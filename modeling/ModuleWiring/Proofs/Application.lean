import ModuleWiring.Proofs.Consistency
import ModuleWiring.Proofs.Providers

/-!
# Answers that are applied

To apply the solutions of an answer changes the records of their members only.  A
host that occurs in one of them, and in no other, is resolved with it from then on.
-/

namespace ModuleWiring

namespace Table

variable {κ α : Type} [DecidableEq κ]

/-- A table is made of its entries. -/
theorem ofList_entries (table : Table κ α) :
    ofList table.entries = table := by
  have folded : ∀ (rest : List (κ × α)) (before : Table κ α),
      ((before.entries ++ rest).map Prod.fst).Nodup →
        (rest.foldl (fun table entry => table.insert entry.1 entry.2)
          before).entries = before.entries ++ rest := by
    intro rest
    induction rest with
    | nil => simp
    | cons first rest inductionHypothesis =>
        intro before distinct
        have unknown : first.1 ∉ before.entries.map Prod.fst := by
          rw [List.map_append, List.nodup_append] at distinct
          exact fun known => distinct.2.2 _ known _ List.mem_cons_self rfl
        have added : (before.insert first.1 first.2).entries =
            before.entries ++ [first] := by
          unfold insert
          rw [dif_neg unknown]
        rw [List.foldl_cons, inductionHypothesis, added, List.append_assoc]
        · rfl
        · rw [added, List.append_assoc]
          exact distinct
  have whole := folded table.entries empty table.distinct
  obtain ⟨entries, distinct⟩ := table
  unfold ofList
  rw [Table.mk.injEq]
  exact whole

end Table

namespace Wirings

/-- A table of wires is made of them. -/
theorem IsKeyed.ofList_values
    {wirings : Wirings} (keyed : wirings.IsKeyed) :
    Wirings.ofList wirings.values = wirings := by
  have filed : (wirings.values.map fun wire => (wire.package, wire)) =
      wirings.entries := by
    unfold Table.values
    rw [List.map_map]
    refine (List.map_congr_left fun entry member => ?_).trans
      (List.map_id _)
    exact congrArg (·, entry.2) (keyed (Table.find?_of_mem_entries member))
  unfold Wirings.ofList
  rw [filed, Table.ofList_entries]

/-- Wires for distinct packages are filed one by one. -/
theorem entries_ofList
    {wires : List Wire} (distinct : (wires.map Wire.package).Nodup) :
    (Wirings.ofList wires).entries =
      wires.map fun wire => (wire.package, wire) := by
  have keys : ((wires.map fun wire => (wire.package, wire)).map
      Prod.fst).Nodup := by
    rw [List.map_map]
    exact distinct
  exact congrArg Table.entries (Table.ofList_entries ⟨_, keys⟩)

theorem values_ofList
    {wires : List Wire} (distinct : (wires.map Wire.package).Nodup) :
    (Wirings.ofList wires).values = wires := by
  unfold Table.values
  rw [entries_ofList distinct, List.map_map]
  exact List.map_id wires

end Wirings

/-- A solution that speaks only of what is there is left as it is. -/
theorem Solution.restrict_eq
    {solution : Solution} {present : Generation → Bool}
    (all : ∀ generation ∈ solution.mentioned, present generation = true) :
    solution.restrict present = some solution := by
  have members : ∀ generation ∈ solution.members,
      present generation = true := fun generation member =>
    all generation (List.mem_append_left _ (List.mem_append_left _ member))
  have wires : ∀ wire ∈ solution.wires, present wire.exporter = true :=
    fun wire member => all _ (List.mem_append_left _
      (List.mem_append_right _ (List.mem_map_of_mem member)))
  have required : ∀ required ∈ solution.required,
      present required.exporter = true ∧
        ∀ wire ∈ required.wires, present wire.exporter = true := by
    intro required member
    have listed : ∀ generation ∈
        required.exporter :: required.wires.map Wire.exporter,
          present generation = true := fun generation inner =>
      all generation (List.mem_append_right _
        (List.mem_flatMap.2 ⟨required, member, inner⟩))
    exact ⟨listed _ List.mem_cons_self, fun wire inner =>
      listed _ (List.mem_cons_of_mem _ (List.mem_map_of_mem inner))⟩
  have fragmentsKept : solution.fragments.filter present =
      solution.fragments :=
    List.filter_eq_self.2 fun fragment member =>
      members fragment (List.mem_cons_of_mem _ member)
  have wiresKept : (solution.wires.filter fun wire =>
      present wire.exporter) = solution.wires :=
    List.filter_eq_self.2 wires
  have requiredKept : (solution.required.filter fun required =>
      present required.exporter) = solution.required :=
    List.filter_eq_self.2 fun wire member => (required wire member).1
  have innerKept : (solution.required.map fun required =>
      { required with
        wires := required.wires.filter fun wire => present wire.exporter }) =
          solution.required := by
    refine (List.map_congr_left fun wire member => ?_).trans (List.map_id _)
    rw [List.filter_eq_self.2 (required wire member).2]
    rfl
  unfold restrict
  rw [if_pos (members _ List.mem_cons_self), fragmentsKept, wiresKept,
    requiredKept, innerKept]

namespace Store

variable {store : Store} {solution : Solution} {answer : List Solution}

/-- An update that is repeated changes nothing more. -/
theorem find?_updateMembers
    {change : Record → Record}
    (idempotent : ∀ record, change (change record) = change record)
    (members : List Generation) (store : Store) (serial : Nat) :
    (members.foldl (fun store member => store.update change member)
      store).records.find? serial =
      if serial ∈ members.map Generation.serial then
        (store.records.find? serial).map change
      else
        store.records.find? serial := by
  induction members generalizing store with
  | nil => simp
  | cons first rest inductionHypothesis =>
      rw [List.foldl_cons, inductionHypothesis, find?_update]
      by_cases isFirst : first.serial = serial
      · by_cases later : serial ∈ rest.map Generation.serial <;>
          simp [isFirst, later, Function.comp_def, idempotent]
      · by_cases later : serial ∈ rest.map Generation.serial <;>
          simp [isFirst, Ne.symm isFirst, later]

theorem settle_settle (solution : Solution) (record : Record) :
    solution.settle (solution.settle record) = solution.settle record := by
  unfold Solution.settle
  cases record.state <;> rfl

/-- To apply a solution settles its members. -/
theorem find?_apply (solution : Solution) (store : Store) (serial : Nat) :
    (solution.apply store).records.find? serial =
      if serial ∈ solution.members.map Generation.serial then
        (store.records.find? serial).map solution.settle
      else
        store.records.find? serial :=
  find?_updateMembers (settle_settle solution) _ _ _

theorem find?_applyAll_of_not_mem
    {answer : List Solution} (store : Store) {serial : Nat}
    (apart : ∀ solution ∈ answer,
      serial ∉ solution.members.map Generation.serial) :
    (store.applyAll answer).records.find? serial =
      store.records.find? serial := by
  induction answer generalizing store with
  | nil => rfl
  | cons first rest inductionHypothesis =>
      change ((first.apply store).applyAll rest).records.find? serial = _
      rw [inductionHypothesis _ fun solution member =>
          apart solution (List.mem_cons_of_mem _ member),
        find?_apply, if_neg (apart first List.mem_cons_self)]

/-- The record of a generation that is a member of one solution of an answer
only. -/
theorem find?_applyAll_of_mem
    {solution : Solution} {answer : List Solution} (store : Store)
    {serial : Nat} (answered : solution ∈ answer)
    (member : serial ∈ solution.members.map Generation.serial)
    (alone : answer.Pairwise fun left right =>
      serial ∈ left.members.map Generation.serial →
        serial ∉ right.members.map Generation.serial) :
    (store.applyAll answer).records.find? serial =
      (store.records.find? serial).map solution.settle := by
  induction answer generalizing store with
  | nil => cases answered
  | cons first rest inductionHypothesis =>
      rw [List.pairwise_cons] at alone
      change ((first.apply store).applyAll rest).records.find? serial = _
      rcases List.mem_cons.1 answered with rfl | later
      · rw [find?_applyAll_of_not_mem _ fun other listed =>
          alone.1 other listed member, find?_apply, if_pos member]
      · have apart : serial ∉ first.members.map Generation.serial :=
          fun here => alone.1 solution later here member
        rw [inductionHypothesis _ later alone.2, find?_apply, if_neg apart]

/-- What is there stays there when an answer is applied, and nothing else comes. -/
theorem holds_applyAll
    (store : Store) (answer : List Solution) (generation : Generation) :
    (store.applyAll answer).holds generation = store.holds generation := by
  induction answer generalizing store with
  | nil => rfl
  | cons first rest inductionHypothesis =>
      change ((first.apply store).applyAll rest).holds generation = _
      rw [inductionHypothesis]
      unfold holds Table.contains
      rw [find?_apply]
      split
      · rw [Option.isSome_map]
      · rfl

/-- A wiring of which nothing is gone is the one that was applied. -/
theorem wiring?_of_held
    {generation : Generation} {record : Record}
    (found : store.records.find? generation.serial = some record)
    (held : ∀ solution, record.wiring = some solution →
      ∀ other ∈ solution.mentioned, store.holds other = true) :
    store.wiring? generation = record.wiring := by
  unfold wiring?
  rw [found]
  dsimp only
  cases wiring : record.wiring with
  | none => rfl
  | some solution => exact Solution.restrict_eq (held solution wiring)

theorem wiring?_congr
    {left right : Store} {generation : Generation}
    (record : left.records.find? generation.serial =
      right.records.find? generation.serial)
    (holds : ∀ other, left.holds other = right.holds other) :
    left.wiring? generation = right.wiring? generation := by
  unfold wiring?
  rw [record, funext holds]

theorem state_congr
    {left right : Store} {generation : Generation}
    (record : left.records.find? generation.serial =
      right.records.find? generation.serial) :
    left.state generation = right.state generation := by
  unfold state
  rw [record]

end Store

namespace World

/-- An answer has solutions for different bundles, all of known generations. -/
structure Accepts (world : World) (answer : List Solution) : Prop where
  distinct : (answer.map (·.host.id)).Nodup
  bundles : ∀ solution ∈ answer, solution.host.isFragment = false
  proper : ∀ solution ∈ answer, solution.IsProper (· ∈ world.made)

namespace Accepts

variable {world : World} {answer : List Solution} {solution : Solution}
  {generation : Generation}

/-- A bundle is a member of a solution only as its host. -/
theorem eq_host
    (accepts : world.Accepts answer) (consistent : world.IsConsistent)
    (made : generation ∈ world.made)
    (isBundle : generation.isFragment = false)
    (answered : solution ∈ answer)
    (member : generation.serial ∈
      solution.members.map Generation.serial) :
    solution.host = generation := by
  obtain ⟨other, listed, same⟩ := List.mem_map.1 member
  have proper := accepts.proper solution answered
  have isOther := consistent.serials other (proper.members other listed)
    generation made same
  subst isOther
  rcases List.mem_cons.1 listed with isHost | isFragment
  · exact isHost.symm
  · rw [proper.fragments other isFragment] at isBundle
    cases isBundle

/-- A host is resolved with its solution when the answer has been applied. -/
theorem applied_host
    (accepts : world.Accepts answer) (consistent : world.IsConsistent)
    (answered : solution ∈ answer)
    (held : ∀ generation ∈ solution.mentioned,
      world.store.holds generation = true) :
    (world.store.applyAll answer).wiring? solution.host = some solution ∧
      ((world.store.applyAll answer).state
        solution.host).isResolved = true := by
  have isHost : solution.host ∈ solution.members := List.mem_cons_self
  have made := (accepts.proper solution answered).members _ isHost
  have isBundle := accepts.bundles solution answered
  have apart : answer.Pairwise fun left right =>
      left.host.id ≠ right.host.id :=
    List.pairwise_map.1 accepts.distinct
  have alone := apart.imp_of_mem (S := fun left right =>
      solution.host.serial ∈ left.members.map Generation.serial →
        solution.host.serial ∉ right.members.map Generation.serial) <| by
    intro left right leftMember rightMember different inLeft inRight
    have isLeft := accepts.eq_host consistent made isBundle leftMember inLeft
    have isRight :=
      accepts.eq_host consistent made isBundle rightMember inRight
    exact different (congrArg Generation.id (isLeft.trans isRight.symm))
  obtain ⟨record, found⟩ := Option.isSome_iff_exists.1
    (held _ (List.mem_append_left _ (List.mem_append_left _ isHost)))
  have applied := Store.find?_applyAll_of_mem world.store answered
    (List.mem_map_of_mem isHost) alone
  rw [found, Option.map_some] at applied
  constructor
  · refine Store.wiring?_of_held applied fun other isSolution generation => ?_
    cases isSolution
    rw [Store.holds_applyAll]
    exact held generation
  · unfold Store.state
    rw [applied]
    cases state : record.state <;> simp [Solution.settle, state,
      State.isResolved]

/-- The wiring of a bundle that is no host stays when an answer is applied. -/
theorem applied_other
    (accepts : world.Accepts answer) (consistent : world.IsConsistent)
    (made : generation ∈ world.made)
    (isBundle : generation.isFragment = false)
    (other : generation ∉ answer.map Solution.host) :
    (world.store.applyAll answer).wiring? generation =
        world.store.wiring? generation ∧
      (world.store.applyAll answer).state generation =
        world.store.state generation := by
  have apart : ∀ solution ∈ answer, generation.serial ∉
      solution.members.map Generation.serial :=
    fun solution answered member => other (List.mem_map.2 ⟨solution, answered,
      accepts.eq_host consistent made isBundle answered member⟩)
  have record := Store.find?_applyAll_of_not_mem world.store apart
  exact ⟨Store.wiring?_congr record (Store.holds_applyAll _ _),
    Store.state_congr record⟩

end Accepts

end World

/-- What a run of hosts ends with is an answer that can be applied. -/
theorem Resolver.Run.accepts
    {world : World} {target : Generation} {framework : Framework}
    {start : Node} {final : Draft}
    (run : world.resolver.Run world.store target framework start final)
    (consistent : world.IsConsistent) (made : target ∈ world.made)
    (hosts : Search.Everywhere Search.IsHost start) :
    world.Accepts final.solutions where
  distinct := Search.nodup_hosts_of_finished run.finished
  bundles := by
    intro solution answered
    obtain ⟨bound, found, rfl⟩ := Draft.candidate?_of_mem_solutions answered
    exact Search.everywhere_of_line run.line run.scheduled hosts
      (fun _ evolution isHost => Search.isHost_of_evolution evolution isHost)
      found
  proper := fun _ answered => run.isProper consistent.sound made
    (fun _ tracked => consistent.tracked tracked) answered

/-- What a run ends with mentions known generations only. -/
theorem Resolver.Run.known_of_mentioned
    {resolver : Resolver} {store : Store} {target : Generation}
    {framework : Framework} {start : Node} {final : Draft}
    {known : Generation → Prop}
    (run : resolver.Run store target framework start final)
    (sound : store.IsSound known) (stored : store.LeadsTo known)
    (knownTarget : known target)
    (knownTracked : ∀ generation ∈ resolver.tracked, known generation)
    {solution : Solution} (answered : solution ∈ final.solutions) :
    ∀ generation ∈ solution.mentioned, known generation := by
  have initial : Search.Everywhere (Candidate.LeadsTo known) start := by
    intro id candidate found
    obtain ⟨origin, given⟩ := run.begins.given found
    refine Candidate.leadsTo_of_isGiven stored ?_ given
    rcases origin with listed | isTarget
    · exact knownTracked _ (List.mem_filter.1 listed).1
    · exact isTarget ▸ knownTarget
  have leads := Search.leadsTo_of_line run.line run.scheduled
    (run.begins.sameStore.symm ▸ stored) initial
  have finalStore : final.store.LeadsTo known := by
    rw [Search.store_of_line run.line run.scheduled, run.begins.sameStore]
    exact stored
  have members :=
    (run.isProper sound knownTarget knownTracked answered).members
  obtain ⟨bound, found, rfl⟩ := Draft.candidate?_of_mem_solutions answered
  intro generation member
  simp only [Solution.mentioned, List.mem_append, List.mem_map,
    List.mem_flatMap] at member
  rcases member with (isMember | ⟨wire, listed, rfl⟩) | ⟨_, listed, inside⟩
  · exact members generation isMember
  · exact (leads found).wires wire listed
  · obtain ⟨provision, provided, rfl⟩ := List.mem_map.1 listed
    have isKnown := (leads found).required provision provided
    rcases List.mem_cons.1 inside with isProvider | shown
    · exact isProvider ▸ isKnown
    · obtain ⟨wire, visible, rfl⟩ := List.mem_map.1 shown
      exact Draft.known_of_mem_visible finalStore (fun hit => leads hit)
        isKnown wire visible

end ModuleWiring
