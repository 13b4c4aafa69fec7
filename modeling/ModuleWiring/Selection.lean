import ModuleWiring.Alternatives

/-!
# Selections of places

A selection is a set of places in a list, written down in ascending order.  All
selections are enumerated by going from each to the next one: the last place that
can move on does so, and the places after it line up behind it.  When none can
move, the selections with one place less follow.
-/

namespace ModuleWiring

/-- Some of the places in a list of a given length. -/
structure Selection (size : Nat) where
  places : List Nat
  ascending : places.Pairwise (· < ·)
  within : ∀ place ∈ places, place < size

namespace Selection

variable {size : Nat}

/-- Ascending numbers between two bounds are no more than there is room for. -/
theorem length_le_of_ascending {places : List Nat} {low : Nat}
    (ascending : places.Pairwise (· < ·))
    (within : ∀ place ∈ places, low ≤ place ∧ place < size) :
    places.length ≤ size - low := by
  induction places generalizing low with
  | nil => simp
  | cons place rest inductionHypothesis =>
      obtain ⟨above, ascendingRest⟩ := List.pairwise_cons.1 ascending
      have room := within place List.mem_cons_self
      have fewer : rest.length ≤ size - (place + 1) :=
        inductionHypothesis ascendingRest fun later member =>
          ⟨above later member, (within later (List.mem_cons_of_mem _ member)).2⟩
      rw [List.length_cons]
      omega

/-- No more places are selected than there are. -/
theorem length_le (selection : Selection size) :
    selection.places.length ≤ size :=
  length_le_of_ascending selection.ascending fun place member =>
    ⟨Nat.zero_le place, selection.within place member⟩

/-- The first so many places. -/
def first (count : Nat) (enough : count ≤ size) : Selection size where
  places := List.range count
  ascending := List.pairwise_lt_range
  within := fun _ member =>
    Nat.lt_of_lt_of_le (List.mem_range.1 member) enough

/-- Every place. -/
def all (size : Nat) : Selection size :=
  first size (Nat.le_refl size)

/-- The furthest place that the selected place of an index can move to: those
after it need room as well. -/
def limit (selection : Selection size) (index : Nat) : Nat :=
  size - selection.places.length + index

/-- The last index, below a bound, of a place that can move on. -/
def movableBelow? (selection : Selection size) :
    (bound : Nat) → bound ≤ selection.places.length →
      Option (Fin selection.places.length)
  | 0, _ => none
  | index + 1, inside =>
      if selection.places[index] < selection.limit index then
        some ⟨index, inside⟩
      else
        selection.movableBelow? index (Nat.le_of_succ_le inside)

/-- The last index of a place that can move on. -/
def movable? (selection : Selection size) :
    Option (Fin selection.places.length) :=
  selection.movableBelow? selection.places.length (Nat.le_refl _)

theorem lt_limit_of_movableBelow?
    {selection : Selection size} {bound : Nat}
    {inside : bound ≤ selection.places.length}
    {index : Fin selection.places.length}
    (found : selection.movableBelow? bound inside = some index) :
    selection.places[index] < selection.limit index := by
  induction bound with
  | zero => cases found
  | succ bound inductionHypothesis =>
      unfold movableBelow? at found
      split at found
      · cases found
        assumption
      · exact inductionHypothesis found

/-- What stands at an index moves to the next place, and what comes after it
follows without a gap. -/
def moveOn (selection : Selection size) (index : Fin selection.places.length)
    (movable : selection.places[index] < selection.limit index) :
    Selection size where
  places := selection.places.take index ++
    List.range' (selection.places[index] + 1)
      (selection.places.length - index)
  ascending := by
    refine List.pairwise_append.2
      ⟨selection.ascending.take, List.pairwise_lt_range', ?_⟩
    intro before beforeMember after afterMember
    obtain ⟨position, _, rfl⟩ := List.mem_take_iff_getElem.1 beforeMember
    have below := List.pairwise_iff_getElem.1 selection.ascending position
      index (by omega) index.2 (by omega)
    have above := (List.mem_range'_1.1 afterMember).1
    simp only [Fin.getElem_fin] at above
    omega
  within := by
    intro place member
    rcases List.mem_append.1 member with before | after
    · exact selection.within place (List.mem_of_mem_take before)
    · have room := (List.mem_range'_1.1 after).2
      have fits := selection.length_le
      have index_lt := index.2
      unfold limit at movable
      omega

/-- The selection that comes after a selection, if it is not the last one. -/
def next? (selection : Selection size) : Option (Selection size) :=
  match found : selection.movable? with
  | some index =>
      some (selection.moveOn index (lt_limit_of_movableBelow? found))
  | none =>
      match counted : selection.places.length with
      | 0 => none
      | count + 1 =>
          some (first count (by have fits := selection.length_le; omega))

/-! ## The enumeration ends -/

/-- The number whose digits say how far each place is from the end. -/
def weightOf (size weight : Nat) (places : List Nat) : Nat :=
  places.foldl (fun weight place => weight * (size + 1) + (size - place))
    weight

/-- What is still to come after a selection is bounded by its weight. -/
def weight (selection : Selection size) : Nat :=
  weightOf size 1 selection.places

theorem weightOf_bounds (size weight : Nat) (places : List Nat) :
    weight * Nat.pow (size + 1) places.length ≤
        weightOf size weight places ∧
      weightOf size weight places <
        (weight + 1) * Nat.pow (size + 1) places.length := by
  simp only [Nat.pow_eq]
  induction places generalizing weight with
  | nil => simp [weightOf]
  | cons place rest inductionHypothesis =>
      obtain ⟨lower, upper⟩ :=
        inductionHypothesis (weight * (size + 1) + (size - place))
      have small : weight * (size + 1) + (size - place) + 1 ≤
          (weight + 1) * (size + 1) := by
        rw [Nat.succ_mul]
        omega
      constructor
      · refine Nat.le_trans ?_ lower
        rw [List.length_cons, Nat.pow_succ', ← Nat.mul_assoc]
        exact Nat.mul_le_mul_right _ (Nat.le_add_right _ _)
      · refine Nat.lt_of_lt_of_le upper ?_
        rw [List.length_cons, Nat.pow_succ', ← Nat.mul_assoc]
        exact Nat.mul_le_mul_right _ small

theorem weightOf_append_lt
    {before after later : List Nat} {place moved weight : Nat}
    (further : size - moved < size - place)
    (sameLength : after.length = later.length) :
    weightOf size weight (before ++ moved :: after) <
      weightOf size weight (before ++ place :: later) := by
  unfold weightOf
  rw [List.foldl_append, List.foldl_append, List.foldl_cons, List.foldl_cons]
  generalize before.foldl _ weight = reached
  have upper := (weightOf_bounds size (reached * (size + 1) + (size - moved))
    after).2
  have lower := (weightOf_bounds size (reached * (size + 1) + (size - place))
    later).1
  have step := Nat.mul_le_mul_right ((size + 1) ^ later.length)
    (show reached * (size + 1) + (size - moved) + 1 ≤
      reached * (size + 1) + (size - place) by omega)
  rw [sameLength] at upper
  exact Nat.lt_of_lt_of_le upper (Nat.le_trans step lower)

theorem weight_moveOn_lt
    (selection : Selection size) (index : Fin selection.places.length)
    (movable : selection.places[index] < selection.limit index) :
    (selection.moveOn index movable).weight < selection.weight := by
  have inside := index.2
  have here : selection.places[index] < size :=
    selection.within _ (List.getElem_mem _)
  have whole : selection.places = selection.places.take index ++
      selection.places[index] :: selection.places.drop (index + 1) := by
    rw [Fin.getElem_fin, ← List.drop_eq_getElem_cons inside,
      List.take_append_drop]
  have moved : (selection.moveOn index movable).places =
      selection.places.take index ++ (selection.places[index] + 1) ::
        List.range' (selection.places[index] + 1 + 1)
          (selection.places.length - (index + 1)) := by
    change _ ++ List.range' _ _ = _
    rw [← List.range'_succ]
    congr 2
    omega
  unfold weight
  rw [moved]
  conv => rhs; rw [whole]
  exact weightOf_append_lt (by omega) (by simp)

theorem weight_first_lt
    {selection : Selection size} {count : Nat} {enough : count ≤ size}
    (counted : selection.places.length = count + 1) :
    (first count enough).weight < selection.weight := by
  have upper := (weightOf_bounds size 1 (List.range count)).2
  have lower := (weightOf_bounds size 1 selection.places).1
  have fits := selection.length_le
  rw [List.length_range] at upper
  rw [counted, Nat.pow_eq, Nat.pow_succ', Nat.one_mul] at lower
  exact Nat.lt_of_lt_of_le upper
    (Nat.le_trans (Nat.mul_le_mul_right _ (by omega)) lower)

theorem weight_lt_of_next?
    {selection following : Selection size}
    (found : selection.next? = some following) :
    following.weight < selection.weight := by
  unfold next? at found
  split at found
  · cases found
    exact weight_moveOn_lt _ _ _
  · split at found
    · cases found
    · rename_i counted
      cases found
      exact weight_first_lt counted

/-- A selection and all that come after it. -/
def enumerate (selection : Selection size) : Alternatives (Selection size) :=
  .offer selection fun _ =>
    match _found : selection.next? with
    | none => .none
    | some following => following.enumerate
termination_by selection.weight
decreasing_by exact weight_lt_of_next? _found

/-! ## What is selected -/

/-- The items of a list that stand at the selected places. -/
def pick {α : Type} (items : List α) (selection : Selection items.length) :
    List α :=
  selection.places.pmap (fun place inside => items[place]) selection.within

theorem pmap_getElem_sublist {α : Type} {items : List α} {places : List Nat}
    {low : Nat} (ascending : places.Pairwise (· < ·))
    (above : ∀ place ∈ places, low ≤ place)
    (within : ∀ place ∈ places, place < items.length) :
    (places.pmap (fun place inside => items[place]) within).Sublist
      (items.drop low) := by
  induction places generalizing low with
  | nil => simp
  | cons place rest inductionHypothesis =>
      obtain ⟨later, ascendingRest⟩ := List.pairwise_cons.1 ascending
      have inside := within place List.mem_cons_self
      have restSublist := @inductionHypothesis (place + 1) ascendingRest
        later fun other member =>
          within other (List.mem_cons_of_mem _ member)
      have here : (items[place] :: items.drop (place + 1)).Sublist
          (items.drop low) := by
        rw [← List.drop_eq_getElem_cons inside]
        exact List.drop_sublist_drop_left items
          (above place List.mem_cons_self)
      rw [List.pmap_cons]
      exact (restSublist.cons_cons _).trans here

theorem pick_sublist {α : Type} (items : List α)
    (selection : Selection items.length) :
    (selection.pick items).Sublist items :=
  pmap_getElem_sublist selection.ascending (fun _ _ => Nat.zero_le _)
    selection.within

end Selection

end ModuleWiring
