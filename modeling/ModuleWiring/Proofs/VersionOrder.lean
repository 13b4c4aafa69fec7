import Mathlib.Data.String.Basic
import ModuleWiring.Version.Basic

/-!
# The order of versions

The numbers of a version decide first and its qualifier last, so between two versions
there is always a third one, unless they have the same numbers and the qualifier of one
is that of the other and one more character, a least one.
-/

namespace ModuleWiring

open Std

/-! ## Texts with one more character -/

namespace Text

variable {c : Char} {text longer : List Char}

theorem lt_concat (text : List Char) (c : Char) : text < text ++ [c] := by
  have shorter : text ++ [] < text ++ [c] :=
    List.append_left_lt (List.nil_lt_cons c [])
  rwa [List.append_nil] at shorter

/-- Of the texts over characters from `c` on, the first one after a text is the same text
with `c` behind it. -/
theorem eq_concat_or_lt (least : ∀ d ∈ longer, c ≤ d) (lt : text < longer) :
    longer = text ++ [c] ∨ text ++ [c] < longer := by
  induction text generalizing longer with
  | nil =>
      cases longer with
      | nil => exact absurd lt (List.not_lt_nil _)
      | cons d rest =>
          obtain below | rfl :=
            Std.le_iff_lt_or_eq.1 (least d List.mem_cons_self)
          · exact .inr (List.cons_lt_cons_iff.2 (.inl below))
          · cases rest with
            | nil => exact .inl rfl
            | cons e rest =>
                exact .inr (List.cons_lt_cons_iff.2
                  (.inr ⟨rfl, List.nil_lt_cons e rest⟩))
  | cons first text inductionHypothesis =>
      cases longer with
      | nil => exact absurd lt (List.not_lt_nil _)
      | cons d rest =>
          obtain below | ⟨rfl, later⟩ := List.cons_lt_cons_iff.1 lt
          · exact .inr (List.cons_lt_cons_iff.2 (.inl below))
          · obtain rfl | beyond :=
              inductionHypothesis (List.forall_mem_cons.1 least).2 later
            · exact .inl rfl
            · exact .inr (List.cons_lt_cons_iff.2 (.inr ⟨rfl, beyond⟩))

end Text

/-! ## Versions -/

instance : TransOrd Version :=
  inferInstanceAs (TransCmp (compareLex (compareOn Version.major)
    (compareLex (compareOn Version.minor)
      (compareLex (compareOn Version.micro)
        (compareOn Version.qualifier)))))

namespace Version

variable {left right version other : Version} {c : Char}

/-- Compare the numbers alone. -/
def compareNumbers (left right : Version) : Ordering :=
  (compare left.major right.major).then <|
    (compare left.minor right.minor).then
      (compare left.micro right.micro)

theorem order_eq (left right : Version) :
    left.order right = (left.compareNumbers right).then
      (compare left.qualifier right.qualifier) := by
  rw [order, compareNumbers, Ordering.then_assoc, Ordering.then_assoc]

theorem compareNumbers_eq_iff :
    left.compareNumbers right = .eq ↔
      left = { right with qualifier := left.qualifier } := by
  obtain ⟨major, minor, micro, qualifier⟩ := left
  simp only [compareNumbers, Ordering.then_eq_eq,
    LawfulEqOrd.compare_eq_iff_eq, mk.injEq, and_true]

end Version

instance : LawfulEqOrd Version where
  eq_of_compare := by
    intro left right same
    change left.order right = .eq at same
    rw [Version.order_eq, Ordering.then_eq_eq,
      LawfulEqOrd.compare_eq_iff_eq] at same
    rw [Version.compareNumbers_eq_iff.1 same.1, same.2]

instance : Std.IsLinearOrder Version :=
  .of_ord

namespace Version

variable {left right version other : Version} {c : Char}

theorem lt_iff :
    left < right ↔ left.compareNumbers right = .lt ∨
      left.compareNumbers right = .eq ∧
        left.qualifier < right.qualifier := by
  change left.order right = .lt ↔ _
  rw [order_eq, Ordering.then_eq_lt, compare_lt_iff_lt]

/-- The same numbers, and a qualifier of one more character. -/
def extend (version : Version) (c : Char) : Version :=
  { version with qualifier := version.qualifier.push c }

@[simp]
theorem toList_qualifier_extend (version : Version) (c : Char) :
    (version.extend c).qualifier.toList = version.qualifier.toList ++ [c] :=
  String.toList_push c

theorem lt_extend (version : Version) (c : Char) :
    version < version.extend c := by
  refine lt_iff.2 (.inr ⟨compareNumbers_eq_iff.2 rfl, ?_⟩)
  rw [String.lt_iff_toList_lt, toList_qualifier_extend]
  exact Text.lt_concat _ c

/-- Of the versions whose qualifiers have characters from `c` on, the first one after a
version is the same version with `c` behind its qualifier. -/
theorem eq_extend_or_lt (least : ∀ d ∈ other.qualifier.toList, c ≤ d)
    (lt : version < other) :
    other = version.extend c ∨ version.extend c < other := by
  obtain numbers | ⟨numbers, qualifier⟩ := lt_iff.1 lt
  · exact .inr (lt_iff.2 (.inl numbers))
  · rw [String.lt_iff_toList_lt] at qualifier
    obtain same | beyond := Text.eq_concat_or_lt least qualifier
    · rw [← toList_qualifier_extend, String.toList_inj] at same
      refine .inl ?_
      rw [extend, compareNumbers_eq_iff.1 numbers]
      exact congrArg (fun qualifier => { other with qualifier }) same
    · refine .inr (lt_iff.2 (.inr ⟨numbers, ?_⟩))
      rwa [String.lt_iff_toList_lt, toList_qualifier_extend]

end Version

end ModuleWiring
