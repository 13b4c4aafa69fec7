import ModuleWiring.Candidate.Basic

/-!
# What a table holds

The values of a table are what it answers to its keys.  A table of wires that
files each wire under its own package may be searched by package.  Offers are
left for the packages that it has no wire for.
-/

namespace ModuleWiring

namespace Table

theorem values_mapValues
    {κ α β : Type} (table : Table κ α) (change : α → β) :
    (table.mapValues change).values = table.values.map change := by
  simp [values, mapValues, Function.comp_def]

variable {κ α β : Type} [DecidableEq κ]

theorem find?_of_mem_entries
    {table : Table κ α} {key : κ} {value : α}
    (member : (key, value) ∈ table.entries) :
    table.find? key = some value := by
  obtain ⟨entries, distinct⟩ := table
  change (key, value) ∈ entries at member
  change (entries.find? fun entry => entry.1 = key).map Prod.snd = some value
  induction entries with
  | nil => cases member
  | cons first rest inductionHypothesis =>
      rw [List.map_cons, List.nodup_cons] at distinct
      rcases List.mem_cons.1 member with rfl | later
      · simp
      · have different : first.1 ≠ key := by
          intro same
          exact distinct.1 (same ▸ List.mem_map_of_mem later)
        rw [List.find?_cons_of_neg (by simpa using different)]
        exact inductionHypothesis distinct.2 later

theorem exists_of_mem_values
    {table : Table κ α} {value : α} (member : value ∈ table.values) :
    ∃ key, table.find? key = some value := by
  obtain ⟨⟨key, held⟩, entry, rfl⟩ := List.mem_map.1 member
  exact ⟨key, find?_of_mem_entries entry⟩

theorem mem_keys_iff {table : Table κ α} {key : κ} :
    key ∈ table.keys ↔ (table.find? key).isSome = true := by
  rw [keys, find?, Option.isSome_map, List.find?_isSome]
  simp

/-- A key that is given its own value changes nothing. -/
theorem insert_of_find?
    {table : Table κ α} {key : κ} {value : α}
    (found : table.find? key = some value) :
    table.insert key value = table := by
  have known : key ∈ table.entries.map Prod.fst :=
    mem_keys_iff.2 (by rw [found]; rfl)
  have same : overwrite key value table.entries = table.entries := by
    refine (List.map_congr_left fun entry member => ?_).trans
      (List.map_id table.entries)
    split
    · rename_i here
      have held := find?_of_mem_entries member
      rw [here, found] at held
      exact Prod.ext here.symm (Option.some.inj held)
    · rfl
  obtain ⟨entries, distinct⟩ := table
  unfold insert
  rw [dif_pos known]
  simpa using same

/-- A new key comes last. -/
theorem values_insert
    {table : Table κ α} {key : κ} (unknown : table.find? key = none)
    (value : α) :
    (table.insert key value).values = table.values ++ [value] := by
  have new : key ∉ table.entries.map Prod.fst := by
    intro known
    have found := mem_keys_iff.1 known
    rw [unknown] at found
    cases found
  unfold insert values
  rw [dif_neg new]
  simp

theorem find?_mapValues
    (table : Table κ α) (change : α → β) (key : κ) :
    (table.mapValues change).find? key = (table.find? key).map change := by
  simp only [mapValues, find?, List.find?_map, Option.map_map]
  rfl

theorem mapValues_insert
    (table : Table κ α) (change : α → β) (key : κ) (value : α) :
    (table.insert key value).mapValues change =
      (table.mapValues change).insert key (change value) := by
  have keys : (table.mapValues change).entries.map Prod.fst =
      table.entries.map Prod.fst := by
    simp [mapValues, Function.comp_def]
  unfold insert
  by_cases known : key ∈ table.entries.map Prod.fst
  · rw [dif_pos known, dif_pos (keys ▸ known)]
    simp only [mapValues, overwrite, List.map_map, mk.injEq]
    refine List.map_congr_left fun entry _ => ?_
    by_cases same : entry.1 = key <;> simp [same]
  · rw [dif_neg known, dif_neg (keys ▸ known)]
    simp [mapValues]

theorem find?_filter
    (table : Table κ α) (keep : κ × α → Bool) (key : κ) :
    (table.filter keep).find? key =
      (table.find? key).filter fun value => keep (key, value) := by
  cases held : (table.filter keep).find? key with
  | some value =>
      obtain ⟨⟨sameKey, sameValue⟩, found, rfl⟩ :=
        Option.map_eq_some_iff.1 held
      have same : sameKey = key := by simpa using List.find?_some found
      subst same
      obtain ⟨member, kept⟩ :=
        List.mem_filter.1 (List.mem_of_find?_eq_some found)
      rw [find?_of_mem_entries member, Option.filter_some]
      exact (if_pos kept).symm
  | none =>
      cases before : table.find? key with
      | none => rfl
      | some value =>
          obtain ⟨⟨sameKey, sameValue⟩, found, rfl⟩ :=
            Option.map_eq_some_iff.1 before
          have same : sameKey = key := by simpa using List.find?_some found
          subst same
          cases kept : keep (sameKey, sameValue) with
          | false =>
              rw [Option.filter_some]
              exact (if_neg (by simp [kept])).symm
          | true =>
              have member : (sameKey, sameValue) ∈
                  (table.filter keep).entries :=
                List.mem_filter.2 ⟨List.mem_of_find?_eq_some found, kept⟩
              rw [find?_of_mem_entries member] at held
              cases held

end Table

namespace Wirings

/-- Each wire is filed under its own package. -/
def IsKeyed (wirings : Wirings) : Prop :=
  ∀ ⦃package wire⦄, wirings.find? package = some wire →
    wire.package = package

theorem isKeyed_empty : IsKeyed ∅ := by
  intro package wire found
  cases found

theorem IsKeyed.insert
    {wirings : Wirings} (keyed : wirings.IsKeyed) (wire : Wire) :
    IsKeyed (Table.insert wirings wire.package wire) := by
  intro package other found
  rw [Table.find?_insert] at found
  split at found
  · rename_i same
    cases found
    exact same
  · exact keyed found

theorem IsKeyed.find?_of_mem
    {wirings : Wirings} (keyed : wirings.IsKeyed) {wire : Wire}
    (member : wire ∈ wirings.values) :
    wirings.find? wire.package = some wire := by
  obtain ⟨package, found⟩ := Table.exists_of_mem_values member
  rw [keyed found]
  exact found

/-- To look among the wires for a package is to look the package up. -/
theorem IsKeyed.find?_values
    {wirings : Wirings} (keyed : wirings.IsKeyed) (package : String) :
    wirings.values.find? (fun wire => wire.package = package) =
      wirings.find? package := by
  cases found : wirings.values.find? fun wire => wire.package = package with
  | none =>
      cases held : wirings.find? package with
      | none => rfl
      | some wire =>
          have missed := List.find?_eq_none.1 found wire
            (Table.mem_values_of_find? held)
          simp [keyed held] at missed
  | some wire =>
      have same : wire.package = package := by
        simpa using List.find?_some found
      rw [← same]
      exact (keyed.find?_of_mem (List.mem_of_find?_eq_some found)).symm

/-- No two wires are for one package. -/
theorem IsKeyed.nodup_packages
    {wirings : Wirings} (keyed : wirings.IsKeyed) :
    (wirings.values.map Wire.package).Nodup := by
  have filed : ∀ entry ∈ wirings.entries, entry.2.package = entry.1 :=
    fun entry member => keyed (Table.find?_of_mem_entries member)
  have same : wirings.values.map Wire.package =
      wirings.entries.map Prod.fst := by
    unfold Table.values
    rw [List.map_map]
    exact List.map_congr_left filed
  rw [same]
  exact wirings.distinct

theorem isKeyed_ofList (wires : List Wire) :
    (Wirings.ofList wires).IsKeyed := by
  have folded : ∀ (rest : List Wire) (table : Wirings),
      table.IsKeyed →
        ((rest.map fun wire => (wire.package, wire)).foldl
          (fun table entry => Table.insert table entry.1 entry.2)
          table : Wirings).IsKeyed := by
    intro rest
    induction rest with
    | nil => exact fun table keyed => keyed
    | cons wire rest inductionHypothesis =>
        intro table keyed
        exact inductionHypothesis _ (keyed.insert wire)
  exact folded wires ∅ isKeyed_empty

/-- Every wire in the table of a list is one of the list. -/
theorem mem_of_find?_ofList
    {wires : List Wire} {package : String} {wire : Wire}
    (found : (Wirings.ofList wires).find? package = some wire) :
    wire ∈ wires := by
  have folded : ∀ (rest : List Wire) (table : Wirings),
      rest ⊆ wires →
        (∀ package wire, table.find? package = some wire → wire ∈ wires) →
        ∀ package wire,
          ((rest.map fun wire => (wire.package, wire)).foldl
            (fun table entry => Table.insert table entry.1 entry.2)
            table : Wirings).find? package = some wire → wire ∈ wires := by
    intro rest
    induction rest with
    | nil => exact fun table _ held => held
    | cons first rest inductionHypothesis =>
        intro table listed held
        refine inductionHypothesis _
          (List.subset_of_cons_subset listed) ?_
        intro package wire found
        rw [Table.find?_insert] at found
        split at found
        · cases found
          exact listed List.mem_cons_self
        · exact held package wire found
  refine folded wires ∅ (List.Subset.refl _) ?_ package wire found
  intro package wire impossible
  cases impossible

end Wirings

namespace BoundModule

/-- The offers among some whose packages are not wired. -/
def unwired (wirings : Wirings) (offers : List Offer) : List Offer :=
  offers.filter fun offer => (wirings.find? offer.package).isNone

theorem unwired_of_forall
    {wirings : Wirings} (none : ∀ package, wirings.find? package = none)
    (offers : List Offer) : unwired wirings offers = offers :=
  List.filter_eq_self.2 fun offer _ => by simp [none]

/-- Wiring one more package withdraws the offers of it. -/
theorem unwired_insert
    (wirings : Wirings) (package : String) (wire : Wire)
    (offers : List Offer) :
    unwired (wirings.insert package wire) offers =
      (unwired wirings offers).filter (·.package ≠ package) := by
  unfold unwired
  rw [List.filter_filter]
  refine List.filter_congr fun offer _ => ?_
  rw [Table.find?_insert]
  by_cases same : package = offer.package
  · simp [same]
  · simp [same, Ne.symm same]

/-- Withdrawing the offers of another package does not matter to a package. -/
theorem find?_filter_ne
    {package other : String} (different : package ≠ other)
    (offers : List Offer) :
    (offers.filter (·.package ≠ other)).find? (·.package = package) =
      offers.find? (·.package = package) := by
  rw [List.find?_filter]
  congr 1
  funext offer
  by_cases same : offer.package = package
  · simp [same, different]
  · simp [same]

/-- Whether other packages are wired does not matter to a package. -/
theorem find?_unwired
    {wirings : Wirings} {package : String}
    (none : wirings.find? package = none) (offers : List Offer) :
    (unwired wirings offers).find? (·.package = package) =
      offers.find? (·.package = package) := by
  rw [unwired, List.find?_filter]
  congr 1
  funext offer
  by_cases same : offer.package = package
  · simp [same, none]
  · simp [same]

end BoundModule

end ModuleWiring
