/-!
# Identities of generations

Updating a bundle makes a new generation of it. Identities are ordered by the
bundle and then by the generation.
-/

namespace ModuleWiring

/-- The bundle of a generation and its number among the bundle's
generations. -/
structure GenerationId where
  bundle : Nat
  generation : Nat
  deriving DecidableEq, Repr, Inhabited

namespace GenerationId

instance : LT GenerationId where
  lt left right :=
    left.bundle < right.bundle ∨
      left.bundle = right.bundle ∧ left.generation < right.generation

theorem lt_def {left right : GenerationId} :
    left < right ↔
      left.bundle < right.bundle ∨
        left.bundle = right.bundle ∧ left.generation < right.generation :=
  Iff.rfl

instance (left right : GenerationId) : Decidable (left < right) :=
  inferInstanceAs (Decidable (_ ∨ _))

theorem lt_irrefl (id : GenerationId) : ¬ id < id := by
  rw [lt_def]
  omega

theorem lt_trans {first second third : GenerationId}
    (below : first < second) (above : second < third) : first < third := by
  rw [lt_def] at *
  omega

theorem ne_of_lt {left right : GenerationId} (below : left < right) :
    left ≠ right := by
  rintro rfl
  exact lt_irrefl left below

theorem lt_of_not_lt_of_ne {left right : GenerationId}
    (notBelow : ¬ left < right) (different : left ≠ right) : right < left := by
  rw [lt_def] at *
  cases left
  cases right
  simp only [ne_eq, GenerationId.mk.injEq] at *
  omega

instance : Ord GenerationId where
  compare left right :=
    (compare left.bundle right.bundle).then
      (compare left.generation right.generation)

/-- The text of an identity: bundle, dot, generation. -/
def render (id : GenerationId) : String :=
  id.bundle.repr ++ "." ++ id.generation.repr

instance : ToString GenerationId :=
  ⟨render⟩

end GenerationId

end ModuleWiring
