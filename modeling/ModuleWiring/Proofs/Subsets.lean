import Mathlib.Data.Finset.Sort
import Mathlib.Data.List.Sublists
import ModuleWiring.Subsets

/-!
# The enumeration of subsets

From one selection of places to the next, all of them are met, each once, the
larger ones first and those of one size in lexicographic order.
-/

namespace ModuleWiring

/-- Steps that lead from one state to another one by way of a list of states, both
of them included. -/
inductive Walk {β : Type} (step : β → Option β) : β → List β → β → Prop where
  | stop (state : β) : Walk step state [state] state
  | go {state following last : β} {states : List β} :
      step state = some following →
      Walk step following states last →
      Walk step state (state :: states) last

namespace Walk

variable {β γ : Type} {step : β → Option β} {other : γ → Option γ}
  {state following last final : β} {states later : List β}

theorem append
    (walk : Walk step state states last) (onward : step last = some following)
    (further : Walk step following later final) :
    Walk step state (states ++ later) final := by
  induction walk with
  | stop => exact .go onward further
  | go here _ inductionHypothesis =>
      exact .go here (inductionHypothesis onward)

theorem map
    {change : β → γ}
    (walk : Walk step state states last)
    (along : ∀ before after, step before = some after →
      other (change before) = some (change after)) :
    Walk other (change state) (states.map change) (change last) := by
  induction walk with
  | stop => exact .stop _
  | go here _ inductionHypothesis =>
      exact .go (along _ _ here) inductionHypothesis

theorem mono
    {wider : β → Option β} (walk : Walk step state states last)
    (along : ∀ before after, step before = some after →
      wider before = some after) :
    Walk wider state states last := by
  induction walk with
  | stop => exact .stop _
  | go here _ inductionHypothesis => exact .go (along _ _ here) inductionHypothesis

end Walk

/-! ## The successor of a list of places -/

/-- Ascending places of the same number that come next: the last one that can move
on does so. -/
def carry? (size : Nat) : List Nat → Option (List Nat)
  | [] => none
  | place :: rest =>
      match carry? size rest with
      | some moved => some (place :: moved)
      | none =>
          if place + rest.length + 1 < size then
            some (List.range' (place + 1) (rest.length + 1))
          else
            none

/-- The places that come next. -/
def follow? (size : Nat) (places : List Nat) : Option (List Nat) :=
  match carry? size places with
  | some moved => some moved
  | none => if places = [] then none else some (List.range (places.length - 1))

theorem carry?_append
    {size : Nat} {places moved : List Nat} (before : List Nat)
    (carried : carry? size places = some moved) :
    carry? size (before ++ places) = some (before ++ moved) := by
  induction before with
  | nil => exact carried
  | cons place rest inductionHypothesis =>
      rw [List.cons_append, carry?, inductionHypothesis]
      rfl

namespace Selection

variable {size : Nat}

@[ext] theorem ext_places {left right : Selection size}
    (same : left.places = right.places) : left = right := by
  cases left
  cases right
  cases same
  rfl

/-- When no place from a bound on can move on, the next place to move is the last
one below the bound that can. -/
theorem carry?_of_stuck
    (selection : Selection size) (bound : Nat)
    (inside : bound ≤ selection.places.length)
    (stuck : carry? size (selection.places.drop bound) = none) :
    carry? size selection.places =
      (selection.movableBelow? bound inside).map fun
          (index : Fin selection.places.length) =>
        selection.places.take index ++
          List.range' (selection.places.get index + 1)
            (selection.places.length - index) := by
  induction bound with
  | zero => exact stuck
  | succ index inductionHypothesis =>
      have fits := selection.length_le
      have below : index < selection.places.length := inside
      have rest : selection.places.drop index =
          selection.places[index] :: selection.places.drop (index + 1) :=
        List.drop_eq_getElem_cons inside
      have room : selection.places[index] +
            (selection.places.drop (index + 1)).length + 1 < size ↔
          selection.places[index] < selection.limit index := by
        rw [List.length_drop, limit]
        omega
      rw [movableBelow?]
      split
      · rename_i movable
        have carried : carry? size (selection.places.drop index) =
            some (List.range' (selection.places[index] + 1)
              (selection.places.length - index)) := by
          have count : (selection.places.drop (index + 1)).length + 1 =
              selection.places.length - index := by
            rw [List.length_drop]
            omega
          rw [rest, carry?, stuck, if_pos (room.2 movable), count]
        have whole := carry?_append (selection.places.take index) carried
        rw [List.take_append_drop] at whole
        exact whole
      · rename_i immovable
        refine inductionHypothesis (Nat.le_of_succ_le inside) ?_
        rw [rest, carry?, stuck, if_neg (fun fit => immovable (room.1 fit))]

theorem map_places_next? (selection : Selection size) :
    selection.next?.map places = follow? size selection.places := by
  have carried := selection.carry?_of_stuck selection.places.length
    (Nat.le_refl _) (by rw [List.drop_length, carry?])
  unfold next? follow?
  rw [carried]
  split
  · rename_i index found
    rw [show selection.movableBelow? _ _ = _ from found]
    rfl
  · rename_i found
    rw [show selection.movableBelow? _ _ = _ from found]
    split
    · rename_i empty
      simp [List.length_eq_zero_iff.1 empty]
    · rename_i count counted
      have nonempty : selection.places ≠ [] :=
        List.ne_nil_of_length_eq_add_one counted
      simp [nonempty, counted, first]

theorem toList_enumerate (selection : Selection size) :
    selection.enumerate.toList = selection ::
      match selection.next? with
      | none => []
      | some following => following.enumerate.toList := by
  rw [enumerate, Alternatives.toList]
  split <;> simp_all

theorem walk_enumerate (selection : Selection size) :
    ∃ last, Walk next? selection selection.enumerate.toList last ∧
      last.next? = none := by
  induction bound : selection.weight using Nat.strongRecOn generalizing
    selection with
  | ind bound inductionHypothesis =>
      rw [toList_enumerate]
      cases found : selection.next? with
      | none => exact ⟨selection, .stop selection, found⟩
      | some following =>
          obtain ⟨last, walk, ends⟩ := inductionHypothesis _
            (bound ▸ weight_lt_of_next? found) following rfl
          exact ⟨last, .go found walk, ends⟩

/-- A walk along lists of places to where it cannot go on is the enumeration. -/
theorem map_places_enumerate
    {selection : Selection size} {listed : List (List Nat)} {last : List Nat}
    (walk : Walk (follow? size) selection.places listed last)
    (ends : follow? size last = none) :
    selection.enumerate.toList.map places = listed := by
  generalize begun : selection.places = start at walk
  induction walk generalizing selection with
  | stop state =>
      subst begun
      rw [← map_places_next?, Option.map_eq_none_iff] at ends
      rw [toList_enumerate, ends]
      rfl
  | @go state following last states here _ inductionHypothesis =>
      subst begun
      rw [← map_places_next?] at here
      obtain ⟨next, found, rfl⟩ := Option.map_eq_some_iff.1 here
      rw [toList_enumerate, found, List.map_cons,
        inductionHypothesis ends rfl]

end Selection

/-! ## The places in their order -/

/-- From the first places of a block to its last ones. -/
theorem exists_walk_carry? (low count room : Nat) (enough : count ≤ room) :
    ∃ last, Walk (carry? (low + room)) (List.range' low count)
        ((List.range' low room).sublistsLen count).reverse last ∧
      carry? (low + room) last = none ∧ last.length = count := by
  induction room generalizing low count with
  | zero =>
      obtain rfl := Nat.le_zero.1 enough
      exact ⟨[], .stop [], rfl, rfl⟩
  | succ room inductionHypothesis =>
      cases count with
      | zero =>
          rw [List.sublistsLen_zero]
          exact ⟨[], .stop [], rfl, rfl⟩
      | succ count =>
          have within : low + (room + 1) = low + 1 + room := by omega
          have block : List.range' low (room + 1) =
              low :: List.range' (low + 1) room := List.range'_succ
          obtain ⟨last, walk, stuck, counted⟩ := inductionHypothesis (low + 1)
            count (Nat.le_of_succ_le_succ enough)
          have kept : Walk (carry? (low + 1 + room))
              (List.range' low (count + 1))
              (((List.range' (low + 1) room).sublistsLen count).map
                (List.cons low)).reverse (low :: last) := by
            rw [List.range'_succ, ← List.map_reverse]
            exact walk.map fun before after carried =>
              carry?_append [low] carried
          rw [within, block, List.sublistsLen_succ_cons,
            List.reverse_append]
          by_cases full : room = count
          · -- Nothing is left out of the block.
            subst full
            have none : (List.range' (low + 1) room).sublistsLen (room + 1) =
                [] :=
              List.sublistsLen_of_length_lt (by simp)
            rw [none, List.reverse_nil, List.append_nil]
            refine ⟨low :: last, kept, ?_, by simp [counted]⟩
            rw [carry?, stuck, if_neg (by omega)]
          · obtain ⟨final, further, finalStuck, finalCounted⟩ :=
              inductionHypothesis (low + 1) (count + 1) (by omega)
            refine ⟨final, kept.append ?_ further, finalStuck, finalCounted⟩
            rw [carry?, stuck, if_pos (by omega), counted]

/-- The sublists of up to so many items, the smallest first. -/
def sublistsUpTo {α : Type} (items : List α) (count : Nat) :
    List (List α) :=
  (List.range (count + 1)).flatMap items.sublistsLen

theorem walk_follow? (size count : Nat) (enough : count ≤ size) :
    Walk (follow? size) (List.range count)
      (sublistsUpTo (List.range size) count).reverse [] := by
  induction count with
  | zero =>
      rw [sublistsUpTo, List.range_one, List.flatMap_singleton,
        List.sublistsLen_zero]
      exact .stop []
  | succ count inductionHypothesis =>
      have widen : ∀ before after, carry? (0 + size) before = some after →
          follow? size before = some after := by
        intro before after carried
        rw [Nat.zero_add] at carried
        rw [follow?, carried]
      obtain ⟨last, walk, stuck, counted⟩ :=
        exists_walk_carry? 0 (count + 1) size enough
      have blocks : sublistsUpTo (List.range size) (count + 1) =
          sublistsUpTo (List.range size) count ++
            (List.range size).sublistsLen (count + 1) := by
        rw [sublistsUpTo, List.range_succ, List.flatMap_append,
          List.flatMap_singleton]
        rfl
      rw [blocks, List.reverse_append]
      rw [← List.range_eq_range', ← List.range_eq_range'] at walk
      refine (walk.mono widen).append ?_
        (inductionHypothesis (Nat.le_of_succ_le enough))
      have nonempty : last ≠ [] := List.ne_nil_of_length_eq_add_one counted
      rw [Nat.zero_add] at stuck
      rw [follow?, stuck]
      simp [nonempty, counted]

namespace Selection

/-- All selections of places in the order in which they are enumerated. -/
def sequence (size : Nat) : List (Selection size) :=
  (all size).enumerate.toList

theorem map_places_sequence (size : Nat) :
    (sequence size).map places =
      (sublistsUpTo (List.range size) size).reverse :=
  map_places_enumerate (walk_follow? size size (Nat.le_refl size)) rfl

end Selection

/-! ## Subsets and sublists -/

section Sublists

variable {α β : Type}

theorem sublistsLen_map (change : α → β) (count : Nat) (items : List α) :
    (items.map change).sublistsLen count =
      (items.sublistsLen count).map (List.map change) := by
  induction items generalizing count with
  | nil => cases count <;> simp
  | cons item rest inductionHypothesis =>
      cases count with
      | zero => simp
      | succ count =>
          rw [List.map_cons, List.sublistsLen_succ_cons,
            List.sublistsLen_succ_cons, inductionHypothesis,
            inductionHypothesis]
          simp [Function.comp_def]

theorem sublistsUpTo_map (change : α → β) (items : List α) (count : Nat) :
    sublistsUpTo (items.map change) count =
      (sublistsUpTo items count).map (List.map change) := by
  rw [sublistsUpTo, sublistsUpTo, List.map_flatMap]
  exact List.flatMap_congr fun number _ =>
    sublistsLen_map change number items

/-- The items of a list by their places. -/
theorem map_getElem?_range (items : List α) :
    (List.range items.length).map (items[·]?) = items.map some := by
  refine List.ext_getElem (by simp) fun index _ _ => ?_
  simp

theorem Selection.map_some_pick
    (items : List α) (selection : Selection items.length) :
    (selection.pick items).map some = selection.places.map (items[·]?) := by
  rw [pick, List.map_pmap, ← List.pmap_eq_map selection.within]
  exact List.pmap_congr_left _ fun place _ inside _ =>
    (List.getElem?_eq_getElem inside).symm

/-- Subsets are enumerated as the sublists of each length in turn, from the last
one back. -/
theorem toList_subsets (items : List α) :
    (subsets items).toList = (sublistsUpTo items items.length).reverse := by
  have injective : Function.Injective (List.map (List.map (@some α))) :=
    List.map_injective_iff.2 (List.map_injective_iff.2
      (Option.some_injective α))
  apply injective
  rw [subsets, Alternatives.toList_map, List.map_map,
    show List.map some ∘ Selection.pick items =
        List.map (items[·]?) ∘ Selection.places from
      funext (Selection.map_some_pick items)]
  have placed := congrArg (List.map (List.map (items[·]?)))
    (Selection.map_places_sequence items.length)
  rw [List.map_map, List.map_reverse, ← sublistsUpTo_map,
    map_getElem?_range, sublistsUpTo_map, ← List.map_reverse] at placed
  exact placed

theorem sublistsUpTo_perm (items : List α) :
    (sublistsUpTo items items.length).Perm items.sublists' :=
  List.range_bind_sublistsLen_perm items

/-- No sublist is left out. -/
theorem mem_subsets_of_sublist
    {items chosen : List α} (sublist : chosen.Sublist items) :
    chosen ∈ (subsets items).toList := by
  rw [toList_subsets, List.mem_reverse, (sublistsUpTo_perm items).mem_iff]
  exact List.mem_sublists'.2 sublist

theorem sublistsLen_filter (keep : α → Bool) (count : Nat)
    (items : List α) :
    (items.filter keep).sublistsLen count =
      (items.sublistsLen count).filter (·.all keep) := by
  induction items generalizing count with
  | nil => cases count <;> rfl
  | cons item rest inductionHypothesis =>
      cases count with
      | zero =>
          rw [List.sublistsLen_zero, List.sublistsLen_zero]
          rfl
      | succ count =>
          have within : ((rest.sublistsLen count).map
              (List.cons item)).filter (·.all keep) =
                if keep item then
                  ((rest.sublistsLen count).filter (·.all keep)).map
                    (List.cons item)
                else [] := by
            rw [List.filter_map]
            cases kept : keep item <;>
              simp [Function.comp_def, kept]
          rw [List.sublistsLen_succ_cons, List.filter_append, within,
            List.filter_cons, ← inductionHypothesis, ← inductionHypothesis]
          split
          · rw [List.sublistsLen_succ_cons]
          · rw [List.append_nil]

theorem sublistsUpTo_of_le
    {items : List α} {count : Nat} (enough : items.length ≤ count) :
    sublistsUpTo items count = sublistsUpTo items items.length := by
  induction enough with
  | refl => rfl
  | step enough inductionHypothesis =>
      rw [← inductionHypothesis, sublistsUpTo, List.range_succ,
        List.flatMap_append, List.flatMap_singleton,
        List.sublistsLen_of_length_lt (Nat.lt_succ_of_le enough),
        List.append_nil]
      rfl

/-- The subsets of what is kept of a list are its subsets in which all is
kept. -/
theorem toList_subsets_filter (keep : α → Bool) (items : List α) :
    (subsets (items.filter keep)).toList =
      (subsets items).toList.filter (·.all keep) := by
  rw [toList_subsets, toList_subsets, ← sublistsUpTo_of_le
      (List.length_filter_le keep items), List.filter_reverse, sublistsUpTo,
    sublistsUpTo, List.filter_flatMap]
  exact congrArg List.reverse (List.flatMap_congr fun count _ =>
    sublistsLen_filter keep count items)

end Sublists

/-! ## Every set of places, the largest first -/

/-- Sublists of one length of an ascending list go down in lexicographic order. -/
theorem pairwise_sublistsLen
    {items : List Nat} (ascending : items.Pairwise (· < ·)) (count : Nat) :
    (items.sublistsLen count).Pairwise (· > ·) := by
  induction items generalizing count with
  | nil => cases count <;> simp
  | cons item rest inductionHypothesis =>
      obtain ⟨below, ascendingRest⟩ := List.pairwise_cons.1 ascending
      cases count with
      | zero => simp
      | succ count =>
          rw [List.sublistsLen_succ_cons]
          refine List.pairwise_append.2
            ⟨inductionHypothesis ascendingRest _, ?_, ?_⟩
          · refine List.pairwise_map.2
              ((inductionHypothesis ascendingRest count).imp ?_)
            exact fun later => List.cons_lt_cons_iff.2 (.inr ⟨rfl, later⟩)
          · intro without listed withItem mapped
            obtain ⟨tail, _, rfl⟩ := List.mem_map.1 mapped
            obtain ⟨sublist, counted⟩ := List.mem_sublistsLen.1 listed
            cases without with
            | nil => cases counted
            | cons place others =>
                refine List.cons_lt_cons_iff.2 (.inl (below place ?_))
                exact sublist.subset List.mem_cons_self

namespace Selection

variable {size : Nat}

/-- A selection comes before those with fewer places, and before those with as many
that follow it in lexicographic order. -/
def Precedes (left right : Selection size) : Prop :=
  right.places.length < left.places.length ∨
    left.places.length = right.places.length ∧ left.places < right.places

theorem Precedes.ne {left right : Selection size}
    (precedes : left.Precedes right) : left ≠ right := by
  rintro rfl
  rcases precedes with fewer | ⟨_, later⟩
  · exact Nat.lt_irrefl _ fewer
  · exact lt_irrefl _ later

theorem pairwise_sequence (size : Nat) :
    (sequence size).Pairwise Precedes := by
  have ordered : ((sequence size).map places).Pairwise fun left right =>
      right.length < left.length ∨
        left.length = right.length ∧ left < right := by
    rw [map_places_sequence, List.pairwise_reverse, sublistsUpTo,
      List.pairwise_flatMap]
    constructor
    · intro count _
      refine (pairwise_sublistsLen List.pairwise_lt_range count).imp_of_mem ?_
      intro left right leftListed rightListed later
      refine .inr ⟨?_, later⟩
      rw [List.length_of_sublistsLen leftListed,
        List.length_of_sublistsLen rightListed]
    · refine List.pairwise_lt_range.imp ?_
      intro fewer more less left leftListed right rightListed
      left
      rw [List.length_of_sublistsLen leftListed,
        List.length_of_sublistsLen rightListed]
      exact less
  rw [List.pairwise_map] at ordered
  exact ordered

theorem nodup_sequence (size : Nat) : (sequence size).Nodup :=
  (pairwise_sequence size).imp Precedes.ne

theorem sublist_range (selection : Selection size) :
    selection.places.Sublist (List.range size) := by
  have within : ∀ place ∈ selection.places,
      place < (List.range size).length := by
    rw [List.length_range]
    exact selection.within
  have sublist := pmap_getElem_sublist selection.ascending
    (fun place _ => Nat.zero_le place) within
  simpa using sublist

theorem mem_sequence (selection : Selection size) :
    selection ∈ sequence size := by
  have listed : selection.places ∈ (sequence size).map places := by
    have perm := sublistsUpTo_perm (List.range size)
    rw [List.length_range] at perm
    rw [map_places_sequence, List.mem_reverse, perm.mem_iff]
    exact List.mem_sublists'.2 selection.sublist_range
  obtain ⟨other, member, same⟩ := List.mem_map.1 listed
  rwa [← ext_places same]

theorem length_sequence (size : Nat) :
    (sequence size).length = 2 ^ size := by
  have perm := sublistsUpTo_perm (List.range size)
  rw [List.length_range] at perm
  rw [← List.length_map places, map_places_sequence, List.length_reverse,
    perm.length_eq, List.length_sublists', List.length_range]

/-- The selected places as a set. -/
def toFinset (selection : Selection size) : Finset Nat :=
  selection.places.toFinset

/-- The places of a set in ascending order. -/
def ofFinset (set : Finset Nat) (inside : set ⊆ Finset.range size) :
    Selection size where
  places := set.sort
  ascending := set.sortedLT_sort.pairwise
  within := fun _ member =>
    Finset.mem_range.1 (inside ((Finset.mem_sort _).1 member))

theorem toFinset_ofFinset
    {set : Finset Nat} {inside : set ⊆ Finset.range size} :
    (ofFinset set inside).toFinset = set :=
  Finset.sort_toFinset set (· ≤ ·)

theorem toFinset_injective :
    Function.Injective (@toFinset size) := by
  intro left right same
  refine ext_places (List.Perm.eq_of_pairwise ?_ left.ascending
    right.ascending ?_)
  · exact fun _ _ _ _ below above => absurd below (Nat.lt_asymm above)
  · exact List.perm_of_nodup_nodup_toFinset_eq
      (left.ascending.imp Nat.ne_of_lt) (right.ascending.imp Nat.ne_of_lt)
      same

/-- Every set of places is met exactly once. -/
theorem count_toFinset_sequence
    {set : Finset Nat} (inside : set ⊆ Finset.range size) :
    ((sequence size).map toFinset).count set = 1 := by
  refine List.count_eq_one_of_mem
    ((nodup_sequence size).map toFinset_injective) ?_
  exact List.mem_map.2
    ⟨ofFinset set inside, mem_sequence _, toFinset_ofFinset⟩

end Selection

/-- The subsets of a list are what is picked by the selections of places.  These
follow one another from all places on until there is no next one.  There are as
many as there are sets of places, each set is met once, the larger sets come first
and those of one size in lexicographic order; no place is outside the list, and no
limit on the way falls short of what its formula says. -/
theorem subsets_enumerate_places
    {α : Type} (items : List α) :
    (subsets items).toList =
        (Selection.sequence items.length).map (Selection.pick items) ∧
      (∃ last, Walk Selection.next? (Selection.all items.length)
          (Selection.sequence items.length) last ∧ last.next? = none) ∧
      (Selection.sequence items.length).length = 2 ^ items.length ∧
      (∀ set ⊆ Finset.range items.length,
        ((Selection.sequence items.length).map Selection.toFinset).count
          set = 1) ∧
      (Selection.sequence items.length).Pairwise Selection.Precedes ∧
      ∀ selection ∈ Selection.sequence items.length,
        (∀ place ∈ selection.places, place < items.length) ∧
          ∀ index, (selection.limit index : Int) =
            items.length - selection.places.length + index := by
  refine ⟨Alternatives.toList_map _ _, Selection.walk_enumerate _,
    Selection.length_sequence _,
    fun set inside => Selection.count_toFinset_sequence inside,
    Selection.pairwise_sequence _, ?_⟩
  intro selection _
  refine ⟨selection.within, fun index => ?_⟩
  have fits := selection.length_le
  rw [Selection.limit]
  omega

example : (subsets ['a', 'b', 'c']).toList =
    [['a', 'b', 'c'], ['a', 'b'], ['a', 'c'], ['b', 'c'], ['a'], ['b'], ['c'],
      []] := by
  decide +kernel

end ModuleWiring
