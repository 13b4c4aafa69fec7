import ModuleWiring.Backtracking
import Mathlib.Logic.Relation

/-!
# What a depth-first search finds

A line of play is a sequence of moves that the positions offer.  The search
finds a goal exactly where some line of play ends in one, and what it finds is
the end of such a line.
-/

namespace ModuleWiring.Problem

variable {σ μ γ : Type} {problem : Problem σ μ γ}

/-- A position offers a move to another one. -/
def Step (problem : Problem σ μ γ) (position result : σ) : Prop :=
  ∃ move ∈ (problem.moves position).toList,
    problem.play? position move = some result

/-- Some line of play leads from one position to another. -/
def Line (problem : Problem σ μ γ) : σ → σ → Prop :=
  Relation.ReflTransGen problem.Step

theorem rank_lt_of_step {position result : σ}
    (step : problem.Step position result) :
    problem.rank result < problem.rank position := by
  obtain ⟨move, member, played⟩ := step
  exact problem.rank_lt member played

theorem exists_of_found_tryMoves {position : σ} {goal : γ}
    {visit : (result : σ) → problem.rank result < problem.rank position →
      Outcome γ}
    {moves : Alternatives μ}
    {legal : ∀ move ∈ moves.toList,
      move ∈ (problem.moves position).toList}
    (found : (problem.tryMoves position visit moves legal).found =
      some goal) :
    ∃ result, problem.Step position result ∧
      ∃ lower, (visit result lower).found = some goal := by
  induction moves with
  | none => cases found
  | offer move others inductionHypothesis =>
      rw [tryMoves] at found
      split at found
      · exact inductionHypothesis () found
      · rename_i result played
        dsimp only at found
        split at found
        · exact ⟨result, ⟨move, legal move List.mem_cons_self, played⟩,
            _, found⟩
        · exact inductionHypothesis () found

theorem isSome_found_tryMoves {position result : σ} {move : μ}
    {visit : (result : σ) → problem.rank result < problem.rank position →
      Outcome γ}
    {moves : Alternatives μ}
    {legal : ∀ move ∈ moves.toList,
      move ∈ (problem.moves position).toList}
    (member : move ∈ moves.toList)
    (played : problem.play? position move = some result)
    (succeeds : ∀ lower, (visit result lower).found.isSome = true) :
    (problem.tryMoves position visit moves legal).found.isSome = true := by
  induction moves with
  | none => cases member
  | offer first others inductionHypothesis =>
      rw [tryMoves]
      rcases List.mem_cons.1 member with rfl | later
      · split
        · rename_i impossible
          rw [impossible] at played
          cases played
        · rename_i reached reachedPlayed
          rw [reachedPlayed] at played
          cases played
          dsimp only
          split
          · rename_i goal found
            rw [found]
            rfl
          · rename_i missing
            have some := succeeds
              (problem.rank_lt (legal move List.mem_cons_self) reachedPlayed)
            rw [missing] at some
            cases some
      · split
        · exact inductionHypothesis () later
        · dsimp only
          split
          · rename_i goal found
            rw [found]
            rfl
          · exact inductionHypothesis () later

theorem found_explore_of_goal {position : σ} {goal : γ}
    (reached : problem.goal? position = some goal) :
    (problem.explore position).found = some goal := by
  rw [explore, reached]

/-- Whatever the search finds lies at the end of a line of play. -/
theorem exists_line_of_found {position : σ} {goal : γ}
    (found : (problem.explore position).found = some goal) :
    ∃ final, problem.Line position final ∧
      problem.goal? final = some goal := by
  induction rank : problem.rank position using Nat.strongRecOn
    generalizing position with
  | ind bound inductionHypothesis =>
      subst rank
      rw [explore] at found
      split at found
      · rename_i reached goalReached
        cases found
        exact ⟨position, .refl, goalReached⟩
      · obtain ⟨result, step, _, later⟩ := exists_of_found_tryMoves found
        obtain ⟨final, line, goalReached⟩ :=
          inductionHypothesis _ (rank_lt_of_step step) later rfl
        exact ⟨final, .head step line, goalReached⟩

theorem isSome_found_of_step {position result : σ}
    (step : problem.Step position result)
    (succeeds : (problem.explore result).found.isSome = true) :
    (problem.explore position).found.isSome = true := by
  obtain ⟨move, member, played⟩ := step
  rw [explore]
  split
  · rfl
  · exact isSome_found_tryMoves member played fun _ => succeeds

/-- The search finds something wherever a line of play ends in a goal. -/
theorem isSome_found_of_line {position final : σ} {goal : γ}
    (line : problem.Line position final)
    (reached : problem.goal? final = some goal) :
    (problem.explore position).found.isSome = true := by
  induction line using Relation.ReflTransGen.head_induction_on with
  | refl =>
      rw [found_explore_of_goal reached]
      rfl
  | head step _ inductionHypothesis =>
      exact isSome_found_of_step step inductionHypothesis

/-- The search finds something if every position of a kind is a goal or has a move
to another one of the kind. -/
theorem isSome_found_of_progress {Holds : σ → Prop}
    (progress : ∀ {position}, Holds position →
      (problem.goal? position).isSome = true ∨
        ∃ result, problem.Step position result ∧ Holds result)
    {position : σ} (holds : Holds position) :
    (problem.explore position).found.isSome = true := by
  induction rank : problem.rank position using Nat.strongRecOn
    generalizing position with
  | ind bound inductionHypothesis =>
      subst rank
      rcases progress holds with reached | ⟨result, step, kept⟩
      · obtain ⟨goal, reached⟩ := Option.isSome_iff_exists.1 reached
        rw [found_explore_of_goal reached]
        rfl
      · exact isSome_found_of_step step
          (inductionHypothesis _ (rank_lt_of_step step) kept rfl)

end ModuleWiring.Problem
