import ModuleWiring.Backtracking
import ModuleWiring.Search.Progress

/-!
# The search for a wiring
-/

namespace ModuleWiring.Search

/-- The search problem over positions and moves. -/
def problem (search : Search) : Problem Node Move Draft where
  goal? := goal?
  moves := search.moves
  play? := play?
  cost := cost
  rank := Node.rank
  rank_lt := rank_lt_of_play?

/-- Decide the candidate that a draft starts with, its fragments or host
included. -/
def run (search : Search) (draft : Draft) : Outcome Draft :=
  search.problem.explore ⟨.start, draft⟩

/-- Decide the requirements that the candidate already has, and no
fragments. -/
def runPending (search : Search) (draft : Draft) : Outcome Draft :=
  search.problem.explore ⟨.requires, draft⟩

end ModuleWiring.Search
