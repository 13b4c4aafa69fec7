import Mathlib.Data.List.Nodup
import ModuleWiring.Proofs.Identities
import ModuleWiring.Proofs.Checkpoints

/-!
# Drafts with and without a bystander

A candidate that takes no part is a bystander.  The draft without it has the same
wires, providers and exporters wherever it looks, as long as nothing leads to
the bystander.
-/

namespace ModuleWiring

namespace Roster

variable {α : Type} {key : α → GenerationId}

/-- Rosters that find the same are the same. -/
theorem ext_find?
    {roster other : Roster key}
    (same : ∀ id, roster.find? id = other.find? id) :
    roster = other := by
  have ordered : ∀ members : Roster key,
      members.members.Pairwise (key · < key ·) :=
    fun members => List.pairwise_map.1 members.ascending
  have distinct : ∀ members : Roster key, members.members.Nodup :=
    fun members => (ordered members).imp fun below same =>
      GenerationId.ne_of_lt below (congrArg key same)
  have member : ∀ item, item ∈ roster.members ↔ item ∈ other.members := by
    intro item
    have listed : ∀ members : Roster key, item ∈ members.members ↔
        members.find? (key item) = some item :=
      fun _ => ⟨find?_of_mem, mem_of_find?⟩
    rw [listed, listed, same]
  have perm := (List.perm_ext_iff_of_nodup (distinct roster)
    (distinct other)).2 member
  have equal := List.Perm.eq_of_pairwise
    (fun left right _ _ below above =>
      absurd (GenerationId.lt_trans below above) (GenerationId.lt_irrefl _))
    (ordered roster) (ordered other) perm
  obtain ⟨items, ascending⟩ := roster
  obtain ⟨others, otherAscending⟩ := other
  cases equal
  rfl

theorem erase_insert_of_ne
    {item : α} {id : GenerationId} (different : key item ≠ id)
    (roster : Roster key) :
    (roster.insert item).erase id = (roster.erase id).insert item := by
  refine ext_find? fun other => ?_
  simp only [find?_erase, find?_insert]
  by_cases isErased : id = other
  · have notItem : ¬ key item = other := fun same =>
      different (same.trans isErased.symm)
    rw [if_pos isErased, if_neg notItem, if_pos isErased]
  · rw [if_neg isErased, if_neg isErased]

theorem erase_insert_self (roster : Roster key) (item : α) :
    (roster.insert item).erase (key item) = roster.erase (key item) := by
  refine ext_find? fun other => ?_
  simp only [find?_erase, find?_insert]
  split <;> rfl

theorem erase_comm (roster : Roster key) (first second : GenerationId) :
    (roster.erase first).erase second =
      (roster.erase second).erase first := by
  refine ext_find? fun other => ?_
  simp only [find?_erase]
  split <;> split <;> rfl

/-- To erase what is not there changes nothing. -/
theorem erase_of_not_contains
    {roster : Roster key} {id : GenerationId}
    (missing : roster.contains id = false) :
    roster.erase id = roster := by
  refine ext_find? fun other => ?_
  rw [find?_erase]
  split
  · rename_i same
    subst same
    exact (Option.not_isSome_iff_eq_none.1 (by simpa [contains] using
      missing)).symm
  · rfl

end Roster

theorem Network.walk_congr_of
    {α κ : Type} [DecidableEq κ] {network other : Network α κ}
    {seen : List κ} {stack : List α}
    {inside : ∀ node ∈ stack, network.Within node}
    {otherInside : ∀ node ∈ stack, other.Within node}
    (Holds : α → Prop) (key : network.key = other.key)
    (start : ∀ node ∈ stack, Holds node)
    (next : ∀ node, Holds node → network.next node = other.next node)
    (onward : ∀ node, Holds node → ∀ successor ∈ network.next node,
      Holds successor) :
    network.walk seen stack inside = other.walk seen stack otherInside :=
  walk_congr key fun node member => next node
    (forall_mem_walk Holds start (fun _ _ holds _ => onward _ holds)
      node member).1

namespace Draft

/-- A draft without one of the candidates of another draft.  Names that are
taken by others are taken in both, and every singleton among the others has
its own name. -/
structure Without (id : GenerationId) (full rest : Draft) : Prop where
  store : rest.store = full.store
  candidates : rest.candidates = full.candidates.erase id
  resolving : rest.resolving = full.resolving
  settled : rest.settled = full.settled
  queue : rest.queue = full.queue
  used : rest.used = full.used
  unused : rest.unused = full.unused.erase id
  attached : rest.attached = full.attached
  names : ∀ name, full.singletons.find? name ≠ some id →
    rest.singletons.find? name = full.singletons.find? name
  registered : ∀ {other candidate}, rest.candidate? other = some candidate →
    candidate.generation.isSingleton = true →
      full.singletons.find? candidate.generation.symbolicName = some other

namespace Without

variable {id : GenerationId} {full rest : Draft}

theorem candidate?_eq
    (without : full.Without id rest) {other : GenerationId}
    (different : other ≠ id) :
    rest.candidate? other = full.candidate? other := by
  unfold Draft.candidate?
  rw [without.candidates, Roster.find?_erase, if_neg (Ne.symm different)]

theorem ne_of_candidate?
    (without : full.Without id rest) {other : GenerationId}
    {candidate : Candidate} (found : rest.candidate? other = some candidate) :
    other ≠ id := by
  rintro rfl
  unfold Draft.candidate? at found
  rw [without.candidates, Roster.find?_erase, if_pos rfl] at found
  cases found

theorem generation?_eq
    (without : full.Without id rest) {other : GenerationId}
    (different : other ≠ id) :
    rest.generation? other = full.generation? other := by
  unfold Draft.generation?
  rw [without.candidate?_eq different]

theorem bound?_eq
    (without : full.Without id rest) {other : GenerationId}
    (different : other ≠ id) :
    rest.bound? other = full.bound? other := by
  unfold Draft.bound?
  rw [without.candidate?_eq different]

theorem resolvingBound?_eq
    (without : full.Without id rest) (busy : full.resolving ≠ some id) :
    rest.resolvingBound? = full.resolvingBound? :=
  Draft.resolvingBound?_eq_of_others without.resolving
    (fun _ different => without.candidate?_eq different.symm) busy

theorem contains_unused_eq
    (without : full.Without id rest) {other : GenerationId}
    (different : other ≠ id) :
    rest.unused.contains other = full.unused.contains other := by
  unfold Roster.contains
  rw [without.unused, Roster.find?_erase, if_neg (Ne.symm different)]

theorem target?_eq
    (without : full.Without id rest) {view : View}
    (different : view.owner.id ≠ id) :
    rest.target? view = full.target? view := by
  unfold Draft.target?
  rw [without.candidate?_eq different, without.store]

theorem nextViews_eq
    (without : full.Without id rest) {view : View}
    (different : view.owner.id ≠ id) :
    rest.nextViews view = full.nextViews view := by
  unfold Draft.nextViews
  rw [without.target?_eq different]

theorem reexportedBy_eq
    (without : full.Without id rest) {provider : Generation}
    (different : provider.id ≠ id) :
    rest.reexportedBy provider = full.reexportedBy provider := by
  unfold Draft.reexportedBy
  rw [without.candidate?_eq different, without.store]

theorem offeredBy_eq
    (without : full.Without id rest) {provider : Generation}
    (different : provider.id ≠ id) :
    rest.offeredBy provider = full.offeredBy provider := by
  unfold Draft.offeredBy
  rw [without.candidate?_eq different]

end Without

/-- Nothing that a draft knows leads to a generation of an identity. -/
structure Avoids (draft : Draft) (id : GenerationId) : Prop where
  stored : draft.store.LeadsTo (·.id ≠ id)
  leads : ∀ {other candidate}, draft.candidate? other = some candidate →
    candidate.LeadsTo (·.id ≠ id)

namespace Without

variable {id : GenerationId} {full rest : Draft}

theorem implied_eq
    (without : full.Without id rest) (avoids : rest.Avoids id) {wire : Wire}
    (different : wire.exporter.id ≠ id) :
    rest.implied wire = full.implied wire := by
  have onward : ∀ view : View, view.owner.id ≠ id →
      ∀ successor ∈ rest.nextViews view, successor.owner.id ≠ id := by
    intro view viewDifferent successor member
    obtain ⟨seen, target, used⟩ := mem_nextViews.1 member
    obtain ⟨_, _, rfl⟩ := List.mem_map.1 used
    exact known_of_target? avoids.stored avoids.leads viewDifferent target
  have start : ∀ view ∈ usedViews wire, view.owner.id ≠ id := by
    intro view member
    obtain ⟨_, _, rfl⟩ := List.mem_map.1 member
    exact different
  refine congrArg (wire :: ·) ((List.filterMap_congr fun view member =>
    without.target?_eq ?_).trans (congrArg (List.filterMap full.target?)
      (Network.walk_congr_of (·.owner.id ≠ id) rfl start
        (fun _ => without.nextViews_eq) onward)))
  exact (Network.forall_mem_walk (·.owner.id ≠ id) start
    (fun _ _ holds _ => onward _ holds) view member).1

theorem accepted_eq
    (without : full.Without id rest) (avoids : rest.Avoids id)
    {bound : BoundModule}
    (leads : ∀ wire ∈ bound.wirings.values, wire.exporter.id ≠ id) :
    rest.accepted bound = full.accepted bound :=
  List.flatMap_congr fun wire member =>
    without.implied_eq avoids (leads wire member)

theorem visible_eq
    (without : full.Without id rest) (avoids : rest.Avoids id)
    {provider : Generation} (different : provider.id ≠ id) :
    rest.visible provider = full.visible provider := by
  have onward : ∀ other : Generation, other.id ≠ id →
      ∀ successor ∈ rest.reexportedBy other, successor.id ≠ id := by
    intro other otherDifferent successor member
    unfold Draft.reexportedBy at member
    split at member
    · rename_i candidate found
      obtain ⟨provision, listed, rfl⟩ := List.mem_map.1 member
      exact (avoids.leads found).required provision
        (List.mem_filter.1 listed).1
    · obtain ⟨wire, listed, rfl⟩ := List.mem_map.1 member
      exact (avoids.stored.required (List.mem_filter.1 listed).1).1
  have start : ∀ other ∈ [provider], other.id ≠ id := by
    intro other member
    rw [List.mem_singleton.1 member]
    exact different
  have visited : ∀ other ∈ rest.reached provider, other.id ≠ id :=
    fun other member => (Network.forall_mem_walk (Generation.id · ≠ id) start
      (fun _ _ holds _ => onward _ holds) other member).1
  exact (visible_congr
    (fun other member => without.reexportedBy_eq (visited other member))
    fun other member => without.offeredBy_eq (visited other member)).2

theorem agrees_eq
    (without : full.Without id rest)
    (idle : full.used.contains id = false) (wires : List Wire) :
    rest.agrees wires = full.agrees wires := by
  unfold Draft.agrees
  rw [without.used]
  refine congrArg _ ?_
  rw [Bool.eq_iff_iff, List.all_eq_true, List.all_eq_true]
  refine forall₂_congr fun other member => ?_
  have different : other ≠ id := by
    rintro rfl
    have contained : full.used.contains other = true :=
      Option.isSome_iff_exists.2 ⟨other, Roster.find?_of_mem member⟩
    rw [idle] at contained
    cases contained
  rw [without.candidate?_eq different]

/-! ## The same decision in both drafts -/

/-- Who takes a name in the draft with the bystander can take it without as
well. -/
theorem exists_of_registerSingleton
    (without : full.Without id rest) {generation : Generation}
    (different : generation.id ≠ id) {names : Table String GenerationId}
    (done : full.registerSingleton generation =
      .ok { full with singletons := names }) :
    ∃ others,
      rest.registerSingleton generation =
          .ok { rest with singletons := others } ∧
        Draft.Without id { full with singletons := names }
          { rest with singletons := others } := by
  cases isSingleton : generation.isSingleton with
  | false =>
      simp only [registerSingleton, isSingleton, Bool.false_eq_true, if_false,
        Except.ok.injEq] at done
      have same : full.singletons = names := congrArg Draft.singletons done
      subst same
      exact ⟨rest.singletons, by simp [registerSingleton, isSingleton], without⟩
  | true =>
      obtain ⟨named, same⟩ : (∀ other,
          full.singletons.find? generation.symbolicName = some other →
            other = generation.id) ∧
          full.singletons.insert generation.symbolicName generation.id =
            names := by
        unfold registerSingleton at done
        rw [if_pos isSingleton] at done
        dsimp only at done
        split at done
        · rename_i missing
          cases done
          exact ⟨by simp [missing], rfl⟩
        · rename_i existing taken
          split at done
          · rename_i own
            cases done
            exact ⟨by simp [taken, own], rfl⟩
          · cases done
      subst same
      have free : full.singletons.find? generation.symbolicName ≠ some id :=
        fun taken => different (named id taken).symm
      have restNamed := without.names _ free
      refine ⟨rest.singletons.insert generation.symbolicName generation.id,
        ?_, { without with names := ?_, registered := ?_ }⟩
      · unfold registerSingleton
        rw [if_pos isSingleton, restNamed]
        cases taken : full.singletons.find? generation.symbolicName with
        | none => rfl
        | some other => exact if_pos (named other taken)
      · intro name taken
        simp only [Table.find?_insert] at taken ⊢
        split
        · rfl
        · rename_i other
          rw [if_neg other] at taken
          exact without.names name taken
      · intro other held hit singleton
        have before := without.registered hit singleton
        simp only [Table.find?_insert]
        split
        · rename_i shared
          rw [← shared] at before
          rw [named other before]
        · exact before

/-- A singleton that is a candidate besides the bystander keeps its name. -/
theorem exists_registerSingleton
    (without : full.Without id rest) {generation : Generation}
    {candidate : Candidate}
    (found : rest.candidate? generation.id = some candidate)
    (same : candidate.generation = generation) :
    ∃ names others,
      full.registerSingleton generation =
          .ok { full with singletons := names } ∧
        rest.registerSingleton generation =
          .ok { rest with singletons := others } ∧
        Draft.Without id { full with singletons := names }
          { rest with singletons := others } := by
  have different := without.ne_of_candidate? found
  have done : ∃ names, full.registerSingleton generation =
      .ok { full with singletons := names } := by
    unfold registerSingleton
    cases isSingleton : generation.isSingleton with
    | false => exact ⟨full.singletons, rfl⟩
    | true =>
        have named : full.singletons.find? generation.symbolicName =
            some generation.id := by
          rw [← same] at isSingleton ⊢
          exact without.registered (same ▸ found) isSingleton
        rw [named]
        simp
  obtain ⟨names, registered⟩ := done
  obtain ⟨others, restRegistered, kept⟩ :=
    without.exists_of_registerSingleton different registered
  exact ⟨names, others, registered, restRegistered, kept⟩

/-- A candidate that has its name is put into its place in both drafts. -/
theorem put_of_named
    (without : full.Without id rest) (candidate : Candidate)
    (different : candidate.id ≠ id)
    (named : candidate.generation.isSingleton = true →
      full.singletons.find? candidate.generation.symbolicName =
        some candidate.id) :
    (full.put candidate).Without id (rest.put candidate) where
  store := without.store
  candidates := by
    change rest.candidates.insert candidate = _
    rw [without.candidates]
    exact (Roster.erase_insert_of_ne different _).symm
  resolving := without.resolving
  settled := without.settled
  queue := without.queue
  used := without.used
  unused := without.unused
  attached := without.attached
  names := without.names
  registered := by
    intro other held hit singleton
    rw [candidate?_put] at hit
    split at hit
    · rename_i here
      cases hit
      rw [← here]
      exact named singleton
    · exact without.registered hit singleton

/-- A candidate changes, but not its generation. -/
theorem put
    (without : full.Without id rest) (candidate : Candidate)
    {old : Candidate} (found : rest.candidate? candidate.id = some old)
    (same : old.generation = candidate.generation) :
    (full.put candidate).Without id (rest.put candidate) :=
  without.put_of_named candidate (without.ne_of_candidate? found)
    fun singleton => same ▸ without.registered found (same ▸ singleton)

theorem use
    (without : full.Without id rest) (other : GenerationId) :
    (full.use other).Without id (rest.use other) :=
  { without with
    used := congrArg (·.insert other) without.used
    unused := by
      change rest.unused.erase other = _
      rw [without.unused]
      exact Roster.erase_comm _ _ _ }

theorem claim
    (without : full.Without id rest) (fragment host : GenerationId) :
    (full.claim fragment host).Without id (rest.claim fragment host) :=
  { without with
    attached := congrArg (·.insert fragment host) without.attached
    unused := by
      change rest.unused.erase fragment = _
      rw [without.unused]
      exact Roster.erase_comm _ _ _ }

theorem openHost
    (without : full.Without id rest) {bound : BoundModule}
    {host : GenerationId} {old : Candidate}
    (found : rest.candidate? host = some old)
    (same : old.generation = bound.host) :
    (full.openHost bound host).Without id (rest.openHost bound host) := by
  have hostId : bound.host.id = host := by
    rw [← same]
    exact id_of_candidate? found
  have put := without.put (.bound bound)
    (show rest.candidate? bound.host.id = some old from hostId ▸ found) same
  have used := put.use host
  exact { used with resolving := rfl }

end Without

/-- What a decision makes of two drafts differs in the bystander only, or the
decision is impossible in both. -/
def Both (id : GenerationId) (full rest : Except Incompatible Draft) : Prop :=
  Option.Rel (Without id) full.toOption rest.toOption

theorem both_ok
    {id : GenerationId} {full rest : Draft} (without : full.Without id rest) :
    Both id (.ok full) (.ok rest) :=
  .some without

namespace Without

variable {id : GenerationId} {full rest : Draft}

theorem enlist
    (without : full.Without id rest) {other : GenerationId}
    (different : other ≠ id) :
    Both id (full.enlist other) (rest.enlist other) := by
  unfold Draft.enlist
  rw [without.candidate?_eq different]
  cases found : full.candidate? other with
  | none => exact both_ok without
  | some candidate =>
      cases candidate with
      | resolved wired => exact both_ok without
      | bound binding => exact both_ok without
      | unresolved generation =>
          have sameId : generation.id = other := id_of_candidate? found
          have hit : rest.candidate? generation.id =
              some (.unresolved generation) := by
            rw [sameId, without.candidate?_eq different, found]
          obtain ⟨names, others, registered, restRegistered, kept⟩ :=
            without.exists_registerSingleton hit rfl
          simp only [registered, restRegistered, bind, Except.bind, pure,
            Except.pure]
          have put := kept.put (.bound (.of generation)) hit rfl
          have used := put.use other
          exact both_ok { used with
            queue := congrArg (· ++ [other]) without.queue }

theorem engage
    (without : full.Without id rest) {other : GenerationId}
    (different : other ≠ id) :
    Both id (full.engage other) (rest.engage other) := by
  unfold Draft.engage
  rw [without.candidate?_eq different, without.contains_unused_eq different]
  split
  · exact without.enlist different
  · split
    · exact both_ok (without.use other)
    · exact both_ok without
  · exact both_ok without

/-- The module in charge goes on with another draft of it. -/
theorem put_resolving
    (without : full.Without id rest) {bound new : BoundModule}
    (current : rest.resolvingBound? = some bound)
    (sameHost : new.host = bound.host) :
    (full.put (.bound new)).Without id (rest.put (.bound new)) :=
  without.put (.bound new)
    (show rest.candidate? new.host.id = some (.bound bound) from
      sameHost ▸ candidate?_of_resolvingBound? current) sameHost.symm

theorem changeResolving
    (without : full.Without id rest) (busy : full.resolving ≠ some id)
    {change : BoundModule → BoundModule}
    (sameHost : ∀ bound, (change bound).host = bound.host) :
    (full.changeResolving change).Without id
      (rest.changeResolving change) := by
  have same := without.resolvingBound?_eq busy
  unfold Draft.changeResolving
  rw [← same]
  split
  · exact without
  · rename_i bound current
    exact without.put_resolving current (sameHost bound)

theorem completeResolving
    (without : full.Without id rest) (busy : full.resolving ≠ some id) :
    full.completeResolving.Without id rest.completeResolving := by
  unfold Draft.completeResolving isSettled
  rw [without.resolving, without.settled]
  cases resolving : full.resolving with
  | none => exact without
  | some current =>
      have different : current ≠ id := by
        rintro rfl
        exact busy resolving
      dsimp only
      rw [without.bound?_eq different]
      exact { without with
        resolving := rfl
        settled := rfl }

theorem acceptRequire
    (without : full.Without id rest) (busy : full.resolving ≠ some id)
    {provider : GenerationId} (different : provider ≠ id)
    (visible : ∀ generation, rest.generation? provider = some generation →
      rest.visible generation = full.visible generation) :
    (full.acceptRequire provider).Without id
      (rest.acceptRequire provider) := by
  have same := without.resolvingBound?_eq busy
  unfold Draft.acceptRequire
  rw [← same, ← without.generation?_eq different]
  cases known : rest.generation? provider with
  | none => exact without
  | some generation =>
      cases current : rest.resolvingBound? with
      | none => exact without
      | some bound =>
          dsimp only
          split
          · exact without
          · rw [visible generation known]
            exact without.put_resolving current rfl

theorem wire
    (without : full.Without id rest) (busy : full.resolving ≠ some id)
    {exporter : Generation} (different : exporter.id ≠ id)
    (declared : Export) :
    Both id (full.wire exporter declared) (rest.wire exporter declared) := by
  have engaged := without.engage different
  unfold Draft.wire
  cases fullEngaged : full.engage exporter.id with
  | error conflict =>
      cases restEngaged : rest.engage exporter.id with
      | error other => exact .none
      | ok middle =>
          rw [fullEngaged, restEngaged] at engaged
          cases engaged
  | ok fullMiddle =>
      cases restEngaged : rest.engage exporter.id with
      | error other =>
          rw [fullEngaged, restEngaged] at engaged
          cases engaged
      | ok middle =>
          rw [fullEngaged, restEngaged] at engaged
          cases engaged with
          | some kept =>
          have stillBusy : fullMiddle.resolving ≠ some id := by
            rw [(engaged_of_engage fullEngaged).resolving]
            exact busy
          simp only [bind, Except.bind]
          rw [← kept.resolvingBound?_eq stillBusy]
          cases current : middle.resolvingBound? with
          | none => exact both_ok kept
          | some bound =>
              dsimp only
              split
              · exact both_ok kept
              · rename_i requirement rest _
                unfold BoundModule.addWiring
                split
                · rename_i added
                  split at added
                  · exact .none
                  · cases added
                · rename_i added
                  split at added
                  · cases added
                  · cases added
                    exact both_ok (kept.put_resolving current rfl)

/-- Fragments other than the bystander join a host in both drafts or in
none. -/
theorem attachAll
    (without : full.Without id rest) (host : Candidate)
    {fragments : List GenerationId} (others : ∀ other ∈ fragments, other ≠ id)
    (bound : BoundModule) :
    Option.Rel (fun left right => left.1.Without id right.1 ∧
        right.2 = left.2)
      (Draft.attachAll host fragments full bound).toOption
      (Draft.attachAll host fragments rest bound).toOption := by
  induction fragments generalizing full rest bound with
  | nil => exact .some ⟨without, rfl⟩
  | cons fragment later inductionHypothesis =>
      have different := others fragment List.mem_cons_self
      have laterOthers : ∀ other ∈ later, other ≠ id :=
        fun other member => others other (List.mem_cons_of_mem _ member)
      rw [Draft.attachAll, Draft.attachAll, without.generation?_eq different]
      cases full.generation? fragment with
      | none => exact inductionHypothesis without laterOthers bound
      | some generation =>
          simp only [bind, Except.bind]
          cases checkAttachment fragment host with
          | error conflict => exact .none
          | ok _ =>
              cases bound.attach generation with
              | error conflict => exact .none
              | ok new =>
                  exact inductionHypothesis
                    (without.claim fragment host.id) laterOthers new

theorem bindFragments
    (without : full.Without id rest) {host : GenerationId}
    (different : host ≠ id) {fragments : List GenerationId}
    (others : ∀ other ∈ fragments, other ≠ id) :
    Both id (full.bindFragments host fragments)
      (rest.bindFragments host fragments) := by
  unfold Draft.bindFragments
  rw [← without.candidate?_eq different]
  cases found : rest.candidate? host with
  | none => exact both_ok without
  | some candidate =>
      cases candidate with
      | unresolved installed => exact both_ok without
      | resolved wired => exact both_ok without
      | bound binding =>
          have joined := without.attachAll (.bound binding) others binding
          simp only [bind, Except.bind]
          cases fullJoined : Draft.attachAll (.bound binding) fragments full
              binding with
          | error conflict =>
              rw [fullJoined] at joined
              cases restJoined : Draft.attachAll (.bound binding) fragments
                  rest binding with
              | error other => exact .none
              | ok pair =>
                  rw [restJoined] at joined
                  cases joined
          | ok fullPair =>
              rw [fullJoined] at joined
              cases restJoined : Draft.attachAll (.bound binding) fragments
                  rest binding with
              | error other =>
                  rw [restJoined] at joined
                  cases joined
              | ok pair =>
                  rw [restJoined] at joined
                  cases joined with
                  | some kept =>
                  obtain ⟨middle, new⟩ := pair
                  obtain ⟨keptDraft, sameBound⟩ := kept
                  obtain ⟨taken, claimed⟩ := claimAll_of_attachAll restJoined
                  have hit : middle.candidate? new.host.id =
                      some (.bound binding) := by
                    have hostId : binding.host.id = host :=
                      id_of_candidate? found
                    rw [claimed, claimAll_eq, taken.host, hostId]
                    exact found
                  dsimp only at sameBound ⊢
                  rw [← sameBound]
                  exact both_ok (keptDraft.put (.bound new) hit
                    taken.host.symm)

theorem attachFragment
    (without : full.Without id rest) {fragment host : GenerationId}
    (fragmentDifferent : fragment ≠ id) (different : host ≠ id) :
    Both id (full.attachFragment fragment host)
      (rest.attachFragment fragment host) := by
  unfold Draft.attachFragment
  rw [← without.generation?_eq fragmentDifferent,
    ← without.candidate?_eq different]
  cases rest.generation? fragment with
  | none => exact both_ok without
  | some generation =>
      cases found : rest.candidate? host with
      | none => exact both_ok without
      | some candidate =>
          have hostId : candidate.generation.id = host := id_of_candidate? found
          have opened : ∀ {left right : Draft} {base new : BoundModule},
              left.Without id right →
                right.candidate? host = some candidate →
                base.host = candidate.generation →
                base.attach generation = .ok new →
                ((left.openHost new host).claim fragment host).Without id
                  ((right.openHost new host).claim fragment host) := by
            intro left right base new kept hit isHost attached
            refine (kept.openHost hit ?_).claim fragment host
            rw [(BoundModule.TakesOn.cons attached (.nil new)).host, isHost]
          simp only [bind, Except.bind]
          cases checkAttachment fragment candidate with
          | error conflict => exact .none
          | ok _ =>
              cases candidate with
              | resolved wired =>
                  dsimp only
                  cases attached : (BoundModule.reopen wired).attach
                      generation with
                  | error conflict => exact .none
                  | ok new =>
                      exact both_ok (opened without found rfl attached)
              | unresolved installed =>
                  have hit : rest.candidate? installed.id =
                      some (.unresolved installed) := hostId ▸ found
                  obtain ⟨names, others, registered, restRegistered, kept⟩ :=
                    without.exists_registerSingleton hit rfl
                  simp only [registered, restRegistered]
                  cases attached : (BoundModule.of installed).attach
                      generation with
                  | error conflict => exact .none
                  | ok new =>
                      exact both_ok (opened kept found rfl attached)
              | bound binding =>
                  dsimp only
                  cases attached : binding.attach generation with
                  | error conflict => exact .none
                  | ok new =>
                      have sameHost : new.host = binding.host :=
                        (BoundModule.TakesOn.cons attached (.nil new)).host
                      have kept := without.put (.bound new)
                        (show rest.candidate? new.host.id =
                          some (.bound binding) by
                            rw [sameHost, ← found, ← hostId]
                            rfl) sameHost.symm
                      have settled : (rest.put (.bound new)).isSettled host =
                          (full.put (.bound new)).isSettled host :=
                        congrArg (·.contains host) without.settled
                      dsimp only
                      rw [settled]
                      split
                      · refine both_ok (Without.claim ?_ fragment host)
                        exact { kept with
                          resolving := rfl
                          settled := congrArg (·.filter (· ≠ host))
                            without.settled }
                      · refine both_ok (Without.claim ?_ fragment host)
                        exact { kept with resolving := rfl }

end Without

end Draft

end ModuleWiring
