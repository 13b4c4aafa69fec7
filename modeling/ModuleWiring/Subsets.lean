import ModuleWiring.Selection

/-!
# Subsets of a list

All sublists of a list, the largest first; among those of one size, the
places that they take are in lexicographic order.
-/

namespace ModuleWiring

/-- Every sublist, the whole list first and the empty list last. -/
def subsets {α : Type} (items : List α) : Alternatives (List α) :=
  (Selection.all items.length).enumerate.map (Selection.pick items)

theorem sublist_of_mem_subsets
    {α : Type} {items chosen : List α}
    (member : chosen ∈ (subsets items).toList) :
    chosen.Sublist items := by
  rw [subsets, Alternatives.toList_map] at member
  obtain ⟨selection, _, rfl⟩ := List.mem_map.1 member
  exact selection.pick_sublist items

end ModuleWiring
