import ModuleWiring.Proofs.Backtracking

/-!
# The first goal of a search

What a search finds at a position is what it finds at the first of the next
positions from which it finds anything.
-/

namespace ModuleWiring.Problem

variable {σ μ γ : Type} {problem : Problem σ μ γ}

/-- The positions that the moves of a position lead to, in the order in which
they are tried. -/
def nexts (problem : Problem σ μ γ) (position : σ) : List σ :=
  (problem.moves position).toList.filterMap (problem.play? position)

theorem found_tryMoves
    {position : σ} (answer : σ → Option γ)
    {visit : (result : σ) → problem.rank result < problem.rank position →
      Outcome γ}
    (visited : ∀ result lower, (visit result lower).found = answer result)
    (moves : Alternatives μ)
    (legal : ∀ move ∈ moves.toList,
      move ∈ (problem.moves position).toList) :
    (problem.tryMoves position visit moves legal).found =
      (moves.toList.filterMap (problem.play? position)).findSome? answer := by
  induction moves with
  | none => rfl
  | offer move others inductionHypothesis =>
      rw [tryMoves, Alternatives.toList]
      split
      · rename_i impossible
        rw [List.filterMap_cons_none impossible]
        exact inductionHypothesis () _
      · rename_i result played
        rw [List.filterMap_cons_some played, List.findSome?_cons,
          ← visited result
            (problem.rank_lt (legal move List.mem_cons_self) played)]
        dsimp only
        split
        · rename_i goal found
          simp only [found]
        · rename_i missing
          simp only [missing]
          exact inductionHypothesis () _

/-- A search that has not reached a goal goes on to the next positions. -/
theorem found_explore
    {position : σ} (unreached : problem.goal? position = none) :
    (problem.explore position).found =
      (problem.nexts position).findSome? fun result =>
        (problem.explore result).found := by
  rw [explore, unreached]
  exact found_tryMoves (fun result => (problem.explore result).found)
    (fun _ _ => rfl) _ _

end ModuleWiring.Problem
