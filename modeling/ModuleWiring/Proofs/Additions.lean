import Mathlib.Data.List.Nodup
import ModuleWiring.Draft.Visible
import ModuleWiring.Resolver.DynamicImport

/-!
# Items that are added under new keys

Offers, requirements and visible packages are collected one after the other.  What
comes first for a package stays, and nothing else is added for it.
-/

namespace ModuleWiring

section Additions

variable {α κ : Type} [DecidableEq κ] {key : α → κ}

/-- Add an item unless there is one with its key. -/
def addNew (key : α → κ) (items : List α) (item : α) : List α :=
  if items.any (key · = key item) then items else items ++ [item]

theorem find?_addNew (items : List α) (item : α) (wanted : κ) :
    (addNew key items item).find? (key · = wanted) =
      (items ++ [item]).find? (key · = wanted) := by
  unfold addNew
  split
  · rename_i known
    rw [List.find?_append]
    cases found : items.find? (key · = wanted) with
    | some first => rfl
    | none =>
        have other : key item ≠ wanted := by
          rintro rfl
          obtain ⟨listed, member, same⟩ := List.any_eq_true.1 known
          exact List.find?_eq_none.1 found listed member same
        simp [other]
  · rfl

/-- What comes first under a key is found. -/
theorem find?_foldl_addNew (items added : List α) (wanted : κ) :
    (added.foldl (addNew key) items).find? (key · = wanted) =
      (items ++ added).find? (key · = wanted) := by
  induction added generalizing items with
  | nil => rw [List.foldl_nil, List.append_nil]
  | cons item rest inductionHypothesis =>
      rw [List.foldl_cons, inductionHypothesis, List.find?_append,
        find?_addNew, ← List.find?_append, List.append_assoc,
        List.singleton_append]

theorem nodup_map_addNew
    {items : List α} (distinct : (items.map key).Nodup) (item : α) :
    ((addNew key items item).map key).Nodup := by
  unfold addNew
  split
  · exact distinct
  · rename_i unknown
    rw [List.map_append, List.map_singleton]
    refine List.Nodup.append distinct (List.nodup_singleton _) ?_
    intro listed member same
    rw [List.mem_singleton.1 same] at member
    obtain ⟨other, otherMember, sameKey⟩ := List.mem_map.1 member
    exact unknown (List.any_eq_true.2
      ⟨other, otherMember, decide_eq_true sameKey⟩)

/-- No key is added twice. -/
theorem nodup_map_foldl_addNew
    {items : List α} (distinct : (items.map key).Nodup) (added : List α) :
    ((added.foldl (addNew key) items).map key).Nodup := by
  induction added generalizing items with
  | nil => exact distinct
  | cons item rest inductionHypothesis =>
      exact inductionHypothesis (nodup_map_addNew distinct item)

theorem isSome_find?_key_iff {items : List α} {wanted : κ} :
    (items.find? (key · = wanted)).isSome = true ↔
      wanted ∈ items.map key := by
  rw [List.find?_isSome, List.mem_map]
  simp only [decide_eq_true_eq]

/-- Where keys are distinct, an item is what is found under its key. -/
theorem find?_key_eq_some_iff
    {items : List α} (distinct : (items.map key).Nodup) {wanted : κ}
    {item : α} :
    items.find? (key · = wanted) = some item ↔
      item ∈ items ∧ key item = wanted := by
  constructor
  · intro found
    exact ⟨List.mem_of_find?_eq_some found,
      by simpa using List.find?_some found⟩
  · rintro ⟨member, rfl⟩
    cases found : items.find? (key · = key item) with
    | none =>
        have missed := List.find?_eq_none.1 found item member
        simp at missed
    | some other =>
        have same : key other = key item := by
          simpa using List.find?_some found
        exact congrArg some (List.inj_on_of_nodup_map distinct
          (List.mem_of_find?_eq_some found) member same)

/-- Items with distinct keys are the same if what is found under each key is. -/
theorem perm_iff_find?_eq
    {items others : List α} (distinct : (items.map key).Nodup)
    (otherDistinct : (others.map key).Nodup) :
    items.Perm others ↔
      ∀ wanted, items.find? (key · = wanted) =
        others.find? (key · = wanted) := by
  rw [List.perm_ext_iff_of_nodup distinct.of_map otherDistinct.of_map]
  constructor
  · intro same wanted
    refine Option.ext fun item => ?_
    rw [find?_key_eq_some_iff distinct,
      find?_key_eq_some_iff otherDistinct, same]
  · intro same item
    have found := same (key item)
    rw [← and_iff_left (a := item ∈ items) (rfl : key item = key item),
      ← and_iff_left (a := item ∈ others) (rfl : key item = key item),
      ← find?_key_eq_some_iff distinct, found,
      find?_key_eq_some_iff otherDistinct]

end Additions

/-! ## What is collected in this way -/

theorem reexport_eq_foldl (offers : List Offer) (visible : List Wire) :
    reexport offers visible =
      (visible.map fun wire =>
        Offer.mk wire.package wire.declared (some wire.exporter)).foldl
          (addNew Offer.package) offers := by
  rw [List.foldl_map]
  rfl

namespace Draft

/-- The first wire of a package is the one that is kept. -/
theorem find?_firstOfEach (wires : List Wire) (package : String) :
    (firstOfEach wires).find? (·.package = package) =
      wires.find? (·.package = package) := by
  induction wires with
  | nil => rfl
  | cons first rest inductionHypothesis =>
      rw [firstOfEach]
      by_cases here : first.package = package
      · rw [List.find?_cons_of_pos (by simpa using here),
          List.find?_cons_of_pos (by simpa using here)]
      · rw [List.find?_cons_of_neg (by simpa using here),
          List.find?_cons_of_neg (by simpa using here),
          ← inductionHypothesis, List.find?_filter]
        refine congrArg (List.find? · _) (funext fun wire => ?_)
        by_cases same : wire.package = package
        · simp [same, Ne.symm here]
        · simp [same]

theorem nodup_packages_firstOfEach (wires : List Wire) :
    ((firstOfEach wires).map Wire.package).Nodup := by
  induction wires with
  | nil => exact List.nodup_nil
  | cons first rest inductionHypothesis =>
      rw [firstOfEach, List.map_cons, List.nodup_cons]
      refine ⟨?_, inductionHypothesis.sublist
        (List.filter_sublist.map Wire.package)⟩
      intro listed
      obtain ⟨wire, member, same⟩ := List.mem_map.1 listed
      exact of_decide_eq_true (List.mem_filter.1 member).2 same

end Draft

/-- What a name of a dynamic import asks for. -/
def Import.requirementsFor (wanted : Import) (index : PackageIndex)
    (name : String) : List PackageImport :=
  (index.expandName name).1.map (⟨·,
    if (index.expandName name).2 then wanted.asOptional else wanted⟩)

theorem Import.expand_eq_foldl (wanted : Import) (index : PackageIndex) :
    wanted.expand index =
      (wanted.packages.flatMap (wanted.requirementsFor index)).foldl
        (addNew PackageImport.package) [] := by
  rw [expand, List.foldl_flatMap]
  refine congrArg (fun add => wanted.packages.foldl add []) ?_
  funext requirements name
  rw [requirementsFor, List.foldl_map]
  rfl

end ModuleWiring
