import ModuleWiring.Generation.Id

/-!
# Rosters

A roster lists things that carry an identity, in ascending order and no two
under one identity. Main statements: what a roster answers after an `insert` or
an `erase`, and how the total of a weight changes.
-/

namespace ModuleWiring

/-- Things in ascending order of their identities. -/
structure Roster {α : Type} (key : α → GenerationId) where
  members : List α
  ascending : (members.map key).Pairwise (· < ·)

/-- A set of identities. -/
abbrev IdSet : Type :=
  Roster (id : GenerationId → GenerationId)

namespace Roster

variable {α : Type} {key : α → GenerationId}

def empty : Roster key :=
  ⟨[], .nil⟩

instance : EmptyCollection (Roster key) :=
  ⟨empty⟩

instance : Inhabited (Roster key) :=
  ⟨empty⟩

def find? (roster : Roster key) (id : GenerationId) : Option α :=
  roster.members.find? fun member => key member = id

def contains (roster : Roster key) (id : GenerationId) : Bool :=
  (roster.find? id).isSome

/-- Put a thing into its place, over the one with the same identity. -/
def place (key : α → GenerationId) (item : α) : List α → List α
  | [] => [item]
  | first :: rest =>
      if key item < key first then item :: first :: rest
      else if key item = key first then item :: rest
      else first :: place key item rest

theorem mem_map_place {item : α} {items : List α} {id : GenerationId} :
    id ∈ (place key item items).map key ↔
      id = key item ∨ id ∈ items.map key := by
  induction items with
  | nil => simp [place]
  | cons first rest ih =>
      rw [place]
      split
      · simp
      · split
        · rename_i same
          simp only [List.map_cons, List.mem_cons, ← same]
          exact ⟨fun h => h.elim .inl (.inr ∘ .inr),
            fun h => h.elim .inl (fun h => h.elim .inl .inr)⟩
        · simp only [List.map_cons, List.mem_cons, ih]
          exact ⟨fun h => h.elim (.inr ∘ .inl)
              (fun h => h.elim .inl (.inr ∘ .inr)),
            fun h => h.elim (.inr ∘ .inl)
              (fun h => h.elim .inl (.inr ∘ .inr))⟩

theorem ascending_place
    {item : α} {items : List α}
    (ascending : (items.map key).Pairwise (· < ·)) :
    ((place key item items).map key).Pairwise (· < ·) := by
  induction items with
  | nil => simp [place]
  | cons first rest ih =>
      rw [List.map_cons, List.pairwise_cons] at ascending
      rw [place]
      split
      · rename_i below
        simp only [List.map_cons, List.pairwise_cons, List.mem_cons]
        refine ⟨?_, ascending⟩
        rintro id (rfl | later)
        · exact below
        · exact GenerationId.lt_trans below (ascending.1 id later)
      · rename_i notBelow
        split
        · rename_i same
          simp only [List.map_cons, List.pairwise_cons, same]
          exact ascending
        · rename_i different
          simp only [List.map_cons, List.pairwise_cons]
          refine ⟨?_, ih ascending.2⟩
          intro id member
          rcases mem_map_place.1 member with rfl | later
          · exact GenerationId.lt_of_not_lt_of_ne notBelow different
          · exact ascending.1 id later

/-- Add a thing, or put it in the place of the one with its identity. -/
def insert (roster : Roster key) (item : α) : Roster key :=
  ⟨place key item roster.members, ascending_place roster.ascending⟩

/-- Take out the member with an identity. -/
def erase (roster : Roster key) (id : GenerationId) : Roster key :=
  ⟨roster.members.filter fun member => key member ≠ id,
    roster.ascending.sublist (List.filter_sublist.map key)⟩

theorem key_of_find? {roster : Roster key} {id : GenerationId} {item : α}
    (found : roster.find? id = some item) : key item = id := by
  simpa using List.find?_some found

theorem mem_of_find? {roster : Roster key} {id : GenerationId} {item : α}
    (found : roster.find? id = some item) : item ∈ roster.members :=
  List.mem_of_find?_eq_some found

theorem eq_of_mem_of_key_eq {items : List α} {first second : α}
    (ascending : (items.map key).Pairwise (· < ·))
    (firstMember : first ∈ items) (secondMember : second ∈ items)
    (same : key first = key second) : first = second := by
  induction items with
  | nil => cases firstMember
  | cons head rest ih =>
      rw [List.map_cons, List.pairwise_cons] at ascending
      have above : ∀ item ∈ rest, key head < key item := fun item member =>
        ascending.1 _ (List.mem_map_of_mem member)
      rcases List.mem_cons.1 firstMember with rfl | firstLater
      · rcases List.mem_cons.1 secondMember with rfl | secondLater
        · rfl
        · exact absurd same (GenerationId.ne_of_lt (above _ secondLater))
      · rcases List.mem_cons.1 secondMember with rfl | secondLater
        · exact absurd same.symm
            (GenerationId.ne_of_lt (above _ firstLater))
        · exact ih ascending.2 firstLater secondLater

theorem find?_of_mem {roster : Roster key} {item : α}
    (member : item ∈ roster.members) :
    roster.find? (key item) = some item := by
  cases found : roster.find? (key item) with
  | none =>
      have missed := List.find?_eq_none.1 found item member
      simp at missed
  | some other =>
      rw [eq_of_mem_of_key_eq roster.ascending (mem_of_find? found) member
        (key_of_find? found)]

theorem find?_place (item : α) (items : List α) (id : GenerationId) :
    (place key item items).find? (fun member => key member = id) =
      if key item = id then some item
      else items.find? fun member => key member = id := by
  induction items with
  | nil => simp [place, List.find?_cons]; split <;> simp_all
  | cons first rest ih =>
      rw [place]
      split
      · simp only [List.find?_cons]
        split <;> simp_all
      · split
        · rename_i same
          simp only [List.find?_cons, ← same]
          split <;> simp_all
        · rename_i different
          simp only [List.find?_cons, ih]
          by_cases hit : key first = id
          · have : ¬ key item = id := fun equality =>
              different (equality.trans hit.symm)
            simp [hit, this]
          · simp [hit]

@[simp]
theorem find?_insert (roster : Roster key) (item : α) (id : GenerationId) :
    (roster.insert item).find? id =
      if key item = id then some item else roster.find? id :=
  find?_place item roster.members id

@[simp]
theorem find?_erase (roster : Roster key) (id other : GenerationId) :
    (roster.erase id).find? other =
      if id = other then none else roster.find? other := by
  unfold find? erase
  rw [List.find?_filter]
  split
  · rename_i same
    subst same
    rw [List.find?_eq_none]
    intro item _
    by_cases hit : key item = id <;> simp [hit]
  · rename_i different
    congr 1
    funext item
    by_cases hit : key item = other
    · simp [hit, Ne.symm different]
    · simp [hit]

theorem contains_insert
    (roster : Roster key) (item : α) (id : GenerationId) :
    (roster.insert item).contains id = true ↔
      key item = id ∨ roster.contains id = true := by
  unfold contains
  rw [find?_insert]
  by_cases same : key item = id <;> simp [same]

theorem contains_erase
    (roster : Roster key) (id other : GenerationId) :
    (roster.erase id).contains other = true ↔
      id ≠ other ∧ roster.contains other = true := by
  unfold contains
  rw [find?_erase]
  by_cases same : id = other <;> simp [same]

/-- A member that is put into its own place changes nothing. -/
theorem insert_of_find?
    {roster : Roster key} {item : α}
    (found : roster.find? (key item) = some item) :
    roster.insert item = roster := by
  obtain ⟨items, ascending⟩ := roster
  have same : place key item items = items := by
    change items.find? (fun member => key member = key item) = some item
      at found
    induction items with
    | nil => cases found
    | cons first rest inductionHypothesis =>
        rw [List.map_cons, List.pairwise_cons] at ascending
        rw [List.find?_cons] at found
        by_cases here : key first = key item
        · simp only [here, decide_true, Option.some.injEq] at found
          subst found
          rw [place, if_neg (GenerationId.lt_irrefl _), if_pos rfl]
        · simp only [here, decide_false] at found
          have above : key first < key item := ascending.1 _
            (List.mem_map_of_mem (List.mem_of_find?_eq_some found))
          have notBelow : ¬ key item < key first := fun below =>
            GenerationId.lt_irrefl _ (GenerationId.lt_trans above below)
          rw [place, if_neg notBelow, if_neg (Ne.symm here),
            inductionHypothesis ascending.2 found]
  unfold insert
  congr 1

def sumOf (weight : α → Nat) : List α → Nat
  | [] => 0
  | item :: rest => weight item + sumOf weight rest

theorem sumOf_congr {weight other : α → Nat} {items : List α}
    (same : ∀ item ∈ items, weight item = other item) :
    sumOf weight items = sumOf other items := by
  induction items with
  | nil => rfl
  | cons first rest ih =>
      rw [sumOf, sumOf, same first List.mem_cons_self, ih]
      intro item member
      exact same item (List.mem_cons_of_mem _ member)

theorem sumOf_place_old {weight : α → Nat} {item old : α} {items : List α}
    (ascending : (items.map key).Pairwise (· < ·))
    (found : items.find? (fun member => key member = key item) = some old) :
    sumOf weight (place key item items) + weight old =
      sumOf weight items + weight item := by
  induction items with
  | nil => simp at found
  | cons first rest ih =>
      rw [List.map_cons, List.pairwise_cons] at ascending
      rw [List.find?_cons] at found
      rw [place]
      split
      · rename_i below
        have different : key first ≠ key item :=
          (GenerationId.ne_of_lt below).symm
        simp only [different, decide_false] at found
        have later : key old ∈ rest.map key :=
          List.mem_map_of_mem (List.mem_of_find?_eq_some found)
        have sameKey : key old = key item := by
          simpa using List.find?_some found
        have above := ascending.1 _ later
        rw [sameKey] at above
        exact absurd (GenerationId.lt_trans below above)
          (GenerationId.lt_irrefl _)
      · split
        · rename_i same
          simp only [same, decide_true, Option.some.injEq] at found
          subst found
          simp only [sumOf]
          omega
        · rename_i different
          simp only [Ne.symm different, decide_false] at found
          have := ih ascending.2 found
          simp only [sumOf]
          omega

def total (weight : α → Nat) (roster : Roster key) : Nat :=
  sumOf weight roster.members

theorem total_insert {roster : Roster key} {item old : α}
    (weight : α → Nat) (found : roster.find? (key item) = some old) :
    (roster.insert item).total weight + weight old =
      roster.total weight + weight item :=
  sumOf_place_old roster.ascending found

theorem total_change {roster : Roster key} {item : α}
    {weight other : α → Nat} (member : item ∈ roster.members)
    (same : ∀ rest ∈ roster.members, key rest ≠ key item →
      weight rest = other rest) :
    roster.total weight + other item = roster.total other + weight item := by
  obtain ⟨items, ascending⟩ := roster
  simp only [total] at *
  induction items with
  | nil => cases member
  | cons first rest ih =>
      rw [List.map_cons, List.pairwise_cons] at ascending
      simp only [sumOf]
      rcases List.mem_cons.1 member with rfl | later
      · have equal : sumOf weight rest = sumOf other rest := by
          apply sumOf_congr
          intro item itemMember
          refine same item (List.mem_cons_of_mem _ itemMember) ?_
          exact (GenerationId.ne_of_lt
            (ascending.1 _ (List.mem_map_of_mem itemMember))).symm
        rw [equal]
        omega
      · have different : key first ≠ key item :=
          GenerationId.ne_of_lt
            (ascending.1 _ (List.mem_map_of_mem later))
        have firstSame := same first List.mem_cons_self different
        have restSame := ih ascending.2 later fun item itemMember =>
          same item (List.mem_cons_of_mem _ itemMember)
        omega

end Roster

end ModuleWiring
