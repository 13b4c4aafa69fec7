import ModuleWiring.Alternatives

/-!
# Depth-first search with backtracking

A search problem offers moves in an order of preference at every position.
`Problem.explore` tries them in that order and gives the first goal that it
meets, together with the number of decisions that it attempted.
-/

namespace ModuleWiring

/-- A search problem. A move may turn out impossible; one that is possible
lowers the rank, so that no line of play goes on forever. -/
structure Problem (σ μ γ : Type) where
  goal? : σ → Option γ
  moves : σ → Alternatives μ
  play? : σ → μ → Option σ
  cost : σ → Nat
  rank : σ → Nat
  rank_lt : ∀ {position move result},
    move ∈ (moves position).toList → play? position move = some result →
      rank result < rank position

/-- What a search found, and how many decisions it attempted. -/
structure Outcome (γ : Type) where
  found : Option γ
  steps : Nat

/-- Count decisions that were attempted before. -/
def Outcome.after {γ : Type} (outcome : Outcome γ) (steps : Nat) :
    Outcome γ :=
  ⟨outcome.found, steps + outcome.steps⟩

namespace Problem

variable {σ μ γ : Type}

/-- Try moves in order until one leads to a goal. -/
def tryMoves (problem : Problem σ μ γ) (position : σ)
    (visit : (result : σ) → problem.rank result < problem.rank position →
      Outcome γ) :
    (moves : Alternatives μ) →
      (∀ move ∈ moves.toList, move ∈ (problem.moves position).toList) →
        Outcome γ
  | .none, _ => ⟨none, 0⟩
  | .offer move others, legal =>
      let rest := fun (_ : Unit) =>
        problem.tryMoves position visit (others ()) fun other member =>
          legal other (List.mem_cons_of_mem _ member)
      match played : problem.play? position move with
      | none => rest ()
      | some result =>
          let outcome := visit result
            (problem.rank_lt (legal move List.mem_cons_self) played)
          match outcome.found with
          | some _ => outcome
          | none => (rest ()).after outcome.steps

/-- Search from a position on. -/
def explore (problem : Problem σ μ γ) (position : σ) : Outcome γ :=
  match problem.goal? position with
  | some goal => ⟨some goal, 0⟩
  | none =>
      (problem.tryMoves position
        (fun result _ => problem.explore result)
        (problem.moves position) fun _ member => member).after
          (problem.cost position)
termination_by problem.rank position

end Problem

end ModuleWiring
