import Mathlib.Data.Fintype.OfMap

/-!
# Conditions that cannot be left out

A rule draws a conclusion in all situations that meet some conditions.  That it
needs each of them is shown by situations that meet all others, and in which the
conclusion fails.
-/

namespace ModuleWiring

/-- Situations that can arise, the conditions that they may meet, and what is
concluded of them. -/
structure Rule (κ σ : Type) where
  Arises : σ → Prop
  Meets : σ → κ → Prop
  Holds : σ → Prop

namespace Rule

variable {κ σ : Type} {rule : Rule κ σ} {asked : κ → Prop} {situation : σ}

/-- The conclusion holds in every situation that meets what is asked for. -/
def Suffices (rule : Rule κ σ) (asked : κ → Prop) : Prop :=
  ∀ ⦃situation⦄, rule.Arises situation →
    (∀ condition, asked condition → rule.Meets situation condition) →
      rule.Holds situation

/-- A situation meets what is asked for, and the conclusion fails. -/
structure Breaks (rule : Rule κ σ) (asked : κ → Prop) (situation : σ) :
    Prop where
  arises : rule.Arises situation
  meets : ∀ condition, asked condition → rule.Meets situation condition
  fails : ¬ rule.Holds situation

/-- The conclusion fails in some situations, and still does where one of the
conditions need not be met. -/
structure NoneDispensable (rule : Rule κ σ) : Prop where
  unconditionally : ¬ rule.Suffices fun _ => False
  without : ∀ missing, ¬ rule.Suffices (· ≠ missing)

theorem Breaks.not_suffices
    (breaks : rule.Breaks asked situation) : ¬ rule.Suffices asked :=
  fun enough => breaks.fails (enough breaks.arises breaks.meets)

/-- More conditions do as well. -/
theorem Suffices.mono
    {more : κ → Prop} (enough : rule.Suffices asked)
    (covers : ∀ condition, asked condition → more condition) :
    rule.Suffices more :=
  fun _ arises meets => enough arises fun condition asks =>
    meets condition (covers condition asks)

theorem noneDispensable
    [Nonempty κ] (without : ∀ missing, ¬ rule.Suffices (· ≠ missing)) :
    rule.NoneDispensable where
  unconditionally enough :=
    without (Classical.arbitrary κ)
      (enough.mono fun _ impossible => impossible.elim)
  without := without

end Rule

end ModuleWiring
