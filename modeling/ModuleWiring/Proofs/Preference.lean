import ModuleWiring.Policy
import ModuleWiring.Proofs.VersionOrder

/-!
# What is left out changes no order

Sorting candidates by preference can be done before or after some of them are left
out.
-/

namespace ModuleWiring

open Std

instance : TransOrd GenerationId :=
  inferInstanceAs (TransCmp (compareLex (compareOn GenerationId.bundle)
    (compareOn GenerationId.generation)))

namespace Policy

variable {α : Type} {policy : Policy} {key : α → Version × GenerationId}

instance transCmp (policy : Policy) : TransCmp policy.compare := by
  obtain ⟨preferLowest⟩ := policy
  have highest : TransCmp fun left right : Version × GenerationId =>
      Ord.compare right.1 left.1 :=
    inferInstanceAs (TransCmp fun left right : Version × GenerationId =>
      compareOn Prod.fst right left)
  cases preferLowest with
  | true =>
      exact inferInstanceAs (TransCmp (compareLex
        (compareOn fun item : Version × GenerationId => item.1)
        (compareOn fun item : Version × GenerationId => item.2)))
  | false =>
      exact inferInstanceAs (TransCmp (compareLex
        (fun left right : Version × GenerationId =>
          Ord.compare right.1 left.1)
        (compareOn fun item : Version × GenerationId => item.2)))

/-- Whether a candidate may stand before another one. -/
def Precedes (policy : Policy) (key : α → Version × GenerationId)
    (left right : α) : Prop :=
  (policy.compare (key left) (key right)).isLE = true

theorem Precedes.trans
    {first second third : α} (lower : policy.Precedes key first second)
    (upper : policy.Precedes key second third) :
    policy.Precedes key first third :=
  TransCmp.isLE_trans lower upper

theorem precedes_of_not_gt
    {left right : α} (le : ¬ policy.compare (key left) (key right) = .gt) :
    policy.Precedes key left right := by
  unfold Precedes
  cases compared : policy.compare (key left) (key right) with
  | lt => rfl
  | eq => rfl
  | gt => exact absurd compared le

theorem precedes_of_gt
    {left right : α} (gt : policy.compare (key left) (key right) = .gt) :
    policy.Precedes key right left := by
  have swapped : policy.compare (key right) (key left) =
      (policy.compare (key left) (key right)).swap := OrientedCmp.eq_swap
  rw [Precedes, swapped, gt]
  rfl

theorem place_of_forall
    {item : α} {items : List α}
    (least : ∀ other ∈ items, policy.Precedes key item other) :
    policy.place key item items = item :: items := by
  cases items with
  | nil => rfl
  | cons first rest =>
      have before := least first List.mem_cons_self
      rw [place, if_neg]
      intro gt
      rw [Precedes, gt] at before
      cases before

theorem pairwise_place
    {item : α} {items : List α}
    (sorted : items.Pairwise (policy.Precedes key)) :
    (policy.place key item items).Pairwise (policy.Precedes key) := by
  induction items with
  | nil => exact List.pairwise_singleton _ item
  | cons first rest inductionHypothesis =>
      obtain ⟨least, restSorted⟩ := List.pairwise_cons.1 sorted
      rw [place]
      split
      · rename_i gt
        refine List.pairwise_cons.2 ⟨?_, inductionHypothesis restSorted⟩
        intro other member
        rcases List.mem_cons.1 ((perm_place policy key item rest).mem_iff.1
          member) with rfl | later
        · exact precedes_of_gt gt
        · exact least other later
      · rename_i notGt
        have first := precedes_of_not_gt notGt
        refine List.pairwise_cons.2 ⟨?_, sorted⟩
        intro other member
        rcases List.mem_cons.1 member with rfl | later
        · exact first
        · exact first.trans (least other later)

theorem pairwise_sort (items : List α) :
    (policy.sort key items).Pairwise (policy.Precedes key) := by
  induction items with
  | nil => exact .nil
  | cons item rest inductionHypothesis =>
      exact pairwise_place inductionHypothesis

theorem filter_place
    {item : α} {items : List α} (keep : α → Bool)
    (sorted : items.Pairwise (policy.Precedes key)) :
    (policy.place key item items).filter keep =
      if keep item then policy.place key item (items.filter keep)
      else items.filter keep := by
  induction items with
  | nil => rw [place, List.filter_cons, List.filter_nil, place]
  | cons first rest inductionHypothesis =>
      obtain ⟨least, restSorted⟩ := List.pairwise_cons.1 sorted
      rw [place]
      split
      · rename_i gt
        rw [List.filter_cons, List.filter_cons,
          inductionHypothesis restSorted]
        cases keep first <;> cases keep item <;> simp [place, gt]
      · rename_i notGt
        have before := precedes_of_not_gt notGt
        have leastKept : ∀ other ∈ (first :: rest).filter keep,
            policy.Precedes key item other := by
          intro other member
          rcases List.mem_cons.1 (List.mem_filter.1 member).1 with rfl | later
          · exact before
          · exact before.trans (least other later)
        rw [place_of_forall leastKept, List.filter_cons]

/-- What is left out of a list is left out of the sorted list. -/
theorem sort_filter (keep : α → Bool) (items : List α) :
    policy.sort key (items.filter keep) =
      (policy.sort key items).filter keep := by
  induction items with
  | nil => rfl
  | cons item rest inductionHypothesis =>
      rw [sort, filter_place keep (pairwise_sort rest),
        ← inductionHypothesis, List.filter_cons]
      split
      · rw [sort]
      · rfl

end Policy

end ModuleWiring
