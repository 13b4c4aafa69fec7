import ModuleWiring.Generation.Id
import ModuleWiring.Version.Basic

/-!
# Order of preference

Of candidates that would do equally well, the one with the highest version is
tried first, or the one with the lowest where the policy says so; among equal
versions the older identity goes first.
-/

namespace ModuleWiring

/-- Whether low versions are preferred to high ones. -/
structure Policy where
  preferLowest : Bool
  deriving DecidableEq, Repr, Inhabited

namespace Policy

/-- Compare two candidates by their versions and identities; the lesser one is
tried first. -/
def compare (policy : Policy) (left right : Version × GenerationId) :
    Ordering :=
  let byVersion :=
    if policy.preferLowest then
      Ord.compare left.1 right.1
    else
      Ord.compare right.1 left.1
  byVersion.then (Ord.compare left.2 right.2)

/-- Put a candidate before the first one that is no better. -/
def place
    {α : Type} (policy : Policy) (key : α → Version × GenerationId)
    (item : α) : List α → List α
  | [] => [item]
  | first :: rest =>
      if policy.compare (key item) (key first) = .gt then
        first :: policy.place key item rest
      else
        item :: first :: rest

/-- Sort candidates, best first; those that compare equal keep their order. -/
def sort
    {α : Type} (policy : Policy) (key : α → Version × GenerationId) :
    List α → List α
  | [] => []
  | item :: rest => policy.place key item (policy.sort key rest)

theorem perm_place
    {α : Type} (policy : Policy) (key : α → Version × GenerationId)
    (item : α) (items : List α) :
    (policy.place key item items).Perm (item :: items) := by
  induction items with
  | nil => exact .refl _
  | cons first rest ih =>
      rw [place]
      split
      · exact (ih.cons first).trans (.swap item first rest)
      · exact .refl _

theorem perm_sort
    {α : Type} (policy : Policy) (key : α → Version × GenerationId)
    (items : List α) :
    (policy.sort key items).Perm items := by
  induction items with
  | nil => exact .refl _
  | cons item rest ih =>
      exact (perm_place policy key item _).trans (ih.cons item)

theorem mem_sort
    {α : Type} {policy : Policy} {key : α → Version × GenerationId}
    {item : α} {items : List α} :
    item ∈ policy.sort key items ↔ item ∈ items :=
  (perm_sort policy key items).mem_iff

end Policy

end ModuleWiring
