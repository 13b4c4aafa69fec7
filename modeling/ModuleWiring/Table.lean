/-!
# Tables

A table pairs keys with values in the order in which the keys came first. Main
statement: what a table answers after an `insert`.
-/

namespace ModuleWiring

/-- Distinct keys with their values, in order of first insertion. -/
structure Table (κ α : Type) where
  entries : List (κ × α)
  distinct : (entries.map Prod.fst).Nodup
  deriving DecidableEq, Repr

namespace Table

variable {κ α : Type}

def empty : Table κ α :=
  ⟨[], List.nodup_nil⟩

instance : EmptyCollection (Table κ α) :=
  ⟨empty⟩

instance : Inhabited (Table κ α) :=
  ⟨empty⟩

def keys (table : Table κ α) : List κ :=
  table.entries.map Prod.fst

def values (table : Table κ α) : List α :=
  table.entries.map Prod.snd

def isEmpty (table : Table κ α) : Bool :=
  table.entries.isEmpty

def mapValues {β : Type} (change : α → β) (table : Table κ α) : Table κ β :=
  ⟨table.entries.map fun entry => (entry.1, change entry.2), by
    rw [List.map_map]
    exact table.distinct⟩

def filter (keep : κ × α → Bool) (table : Table κ α) : Table κ α :=
  ⟨table.entries.filter keep,
    table.distinct.sublist (List.filter_sublist.map Prod.fst)⟩

variable [DecidableEq κ]

def find? (table : Table κ α) (key : κ) : Option α :=
  (table.entries.find? fun entry => entry.1 = key).map Prod.snd

def contains (table : Table κ α) (key : κ) : Bool :=
  (table.find? key).isSome

/-- Write the value of one key over its old one. -/
def overwrite (key : κ) (value : α) (entries : List (κ × α)) :
    List (κ × α) :=
  entries.map fun entry => if entry.1 = key then (key, value) else entry

theorem map_fst_overwrite (key : κ) (value : α) (entries : List (κ × α)) :
    (overwrite key value entries).map Prod.fst = entries.map Prod.fst := by
  simp only [overwrite, List.map_map]
  apply List.map_congr_left
  intro entry _
  by_cases same : entry.1 = key <;> simp [same]

/-- Give a key a value. A key that has one keeps its place. -/
def insert (table : Table κ α) (key : κ) (value : α) : Table κ α :=
  if known : key ∈ table.entries.map Prod.fst then
    ⟨overwrite key value table.entries, by
      rw [map_fst_overwrite]
      exact table.distinct⟩
  else
    ⟨table.entries ++ [(key, value)], by
      rw [List.map_append, List.nodup_append]
      refine ⟨table.distinct, by simp, ?_⟩
      intro first firstMember second secondMember same
      simp only [List.map_cons, List.map_nil, List.mem_singleton] at secondMember
      exact known (secondMember ▸ same ▸ firstMember)⟩

/-- The table of a list of entries: of a repeated key the first place and the
last value. -/
def ofList (entries : List (κ × α)) : Table κ α :=
  entries.foldl (fun table entry => table.insert entry.1 entry.2) empty

theorem find?_insert (table : Table κ α) (key other : κ) (value : α) :
    (table.insert key value).find? other =
      if key = other then some value else table.find? other := by
  unfold insert
  split
  · rename_i known
    simp only [find?, overwrite, List.find?_map, Option.map_map]
    by_cases same : key = other
    · subst same
      simp only [if_true]
      obtain ⟨entry, member, equality⟩ := List.mem_map.1 known
      have found : (table.entries.find? fun entry =>
          decide (entry.1 = key)).isSome := by
        rw [List.find?_isSome]
        exact ⟨entry, member, by simpa using equality⟩
      have predicates :
          ((fun entry : κ × α => decide (entry.1 = key)) ∘ fun entry =>
            if entry.1 = key then (key, value) else entry) =
            fun entry => decide (entry.1 = key) := by
        funext candidate
        by_cases hit : candidate.1 = key <;> simp [hit]
      rw [predicates]
      obtain ⟨hit, hitEquality⟩ := Option.isSome_iff_exists.1 found
      have hitKey := List.find?_some hitEquality
      simp only [decide_eq_true_eq] at hitKey
      simp [hitEquality, hitKey]
    · have predicates :
          ((fun entry : κ × α => decide (entry.1 = other)) ∘ fun entry =>
            if entry.1 = key then (key, value) else entry) =
            fun entry => decide (entry.1 = other) := by
        funext candidate
        by_cases hit : candidate.1 = key
        · simp [hit, same]
        · simp [hit]
      rw [predicates, if_neg same]
      cases hit : table.entries.find? fun entry => decide (entry.1 = other) with
      | none => rfl
      | some entry =>
          have hitKey := List.find?_some hit
          simp only [decide_eq_true_eq] at hitKey
          have : entry.1 ≠ key := fun equality =>
            same (equality.symm.trans hitKey)
          simp [this]
  · rename_i unknown
    simp only [find?, List.find?_append]
    by_cases same : key = other
    · subst same
      have missing : table.entries.find? (fun entry =>
          decide (entry.1 = key)) = none := by
        rw [List.find?_eq_none]
        intro entry member hit
        simp only [decide_eq_true_eq] at hit
        exact unknown (List.mem_map.2 ⟨entry, member, hit⟩)
      simp [missing]
    · simp [same]

theorem mem_values_of_find? {table : Table κ α} {key : κ} {value : α}
    (found : table.find? key = some value) : value ∈ table.values := by
  simp only [find?, Option.map_eq_some_iff] at found
  obtain ⟨entry, hit, rfl⟩ := found
  exact List.mem_map_of_mem (List.mem_of_find?_eq_some hit)

end Table

end ModuleWiring
