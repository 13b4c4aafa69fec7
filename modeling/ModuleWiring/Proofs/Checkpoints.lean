import ModuleWiring.Proofs.Bookkeeping
import ModuleWiring.Proofs.Identities
import ModuleWiring.Proofs.Providers
import ModuleWiring.Proofs.Subsets

/-!
# Checkpoints and their transitions

A search has a choice wherever it stands.  The relation of this module says which
choices there are, in terms of the operations on a draft alone and without an
order of preference, phases or backtracking.  Main statement: whatever holds of
the positions of a search holds wherever the transitions lead.
-/

namespace ModuleWiring

/-- A draft, and whether the candidate in charge has only just got its turn. -/
structure Checkpoint where
  isStarting : Bool
  draft : Draft

theorem Draft.unwired_of_wire
    {draft result : Draft} {exporter : Generation} {declared : Export}
    {bound : BoundModule} {requirement : PackageImport}
    {rest : List PackageImport}
    (other : draft.resolving ≠ some exporter.id)
    (current : draft.resolvingBound? = some bound)
    (next : bound.imports = requirement :: rest)
    (done : draft.wire exporter declared = .ok result) :
    bound.wirings.find? requirement.package = none := by
  unfold wire at done
  cases engaged : draft.engage exporter.id with
  | error conflict =>
      rw [engaged] at done
      cases done
  | ok middle =>
      have kept := (engaged_of_engage engaged).resolvingBound? other
      rw [current] at kept
      simp only [engaged, bind, Except.bind, kept, next,
        BoundModule.addWiring] at done
      by_cases wired : bound.wirings.contains requirement.package = true
      · rw [if_pos wired] at done
        cases done
      · simpa [Table.contains] using wired

namespace Search

/-- The package of an import has a suitable wire already, or the runtime serves
it. -/
def NeedsNoWire (search : Search) (bound : BoundModule)
    (requirement : PackageImport) : Prop :=
  (∃ wire, bound.wirings.find? requirement.package = some wire ∧
      requirement.accepts wire.declared wire.exporter = true) ∨
    search.framework.bootDelegation.covers requirement.package = true

/-- What a search may make of a checkpoint, if `leaves` says which imports it may
leave as they are. -/
inductive Transition (search : Search)
    (leaves : BoundModule → PackageImport → Prop) :
    Checkpoint → Checkpoint → Prop where
  /-- A fragment that gets its turn attaches to a host. -/
  | attach {draft result : Draft} {id : GenerationId}
      {fragment host : Generation} :
      draft.resolving = some id →
      draft.generation? id = some fragment →
      fragment.isFragment = true →
      host ∈ search.hostChoices draft fragment →
      draft.attachFragment id host.id = .ok result →
      Transition search leaves ⟨true, draft⟩ ⟨false, result⟩
  /-- A host that gets its turn takes on some of its fragments. -/
  | bind {draft result : Draft} {id : GenerationId} {host : Generation}
      {fragments : List Generation} :
      draft.resolving = some id →
      draft.generation? id = some host →
      host.isFragment = false →
      fragments.Sublist (search.fragmentChoices draft host) →
      draft.bindFragments id (fragments.map Generation.id) = .ok result →
      Transition search leaves ⟨true, draft⟩ ⟨false, result⟩
  /-- A bundle that was resolved before is required. -/
  | requireResolved {draft : Draft} {require : Require}
      {provider : Generation} {wired : ResolvedModule} :
      draft.nextRequire? = some require →
      provider ∈ search.requireChoices draft require →
      isRequireConsistent draft provider = true →
      draft.candidate? provider.id = some (.resolved wired) →
      Transition search leaves ⟨false, draft⟩
        ⟨false, draft.requireResolved provider.id⟩
  /-- A bundle that is bound is required. -/
  | requireBound {draft : Draft} {require : Require} {provider : Generation}
      {bound : BoundModule} :
      draft.nextRequire? = some require →
      provider ∈ search.requireChoices draft require →
      isRequireConsistent draft provider = true →
      draft.candidate? provider.id = some (.bound bound) →
      Transition search leaves ⟨false, draft⟩
        ⟨false, draft.requireBound provider.id⟩
  /-- A bundle that is not resolved is required. -/
  | requireUnresolved {draft result : Draft} {require : Require}
      {provider installed : Generation} :
      draft.nextRequire? = some require →
      provider ∈ search.requireChoices draft require →
      isRequireConsistent draft provider = true →
      draft.candidate? provider.id = some (.unresolved installed) →
      draft.requireUnresolved provider.id = .ok result →
      Transition search leaves ⟨false, draft⟩ ⟨false, result⟩
  /-- An optional require is left. -/
  | leaveRequire {draft : Draft} {require : Require} :
      draft.nextRequire? = some require →
      require.isOptional = true →
      Transition search leaves ⟨false, draft⟩ ⟨false, draft.skipRequire⟩
  /-- An import is wired, once there is no require to decide. -/
  | wire {draft result : Draft} {bound : BoundModule}
      {requirement : PackageImport} {choice : WireChoice} :
      draft.nextRequire? = none →
      draft.resolvingBound? = some bound →
      draft.nextImport? = some requirement →
      ¬ search.NeedsNoWire bound requirement →
      choice ∈ search.wireChoices draft requirement →
      isWireConsistent draft bound requirement.package choice = true →
      draft.wire choice.exporter choice.declared = .ok result →
      Transition search leaves ⟨false, draft⟩ ⟨false, result⟩
  /-- An import is left as it is. -/
  | leaveImport {draft : Draft} {bound : BoundModule}
      {requirement : PackageImport} :
      draft.nextRequire? = none →
      draft.resolvingBound? = some bound →
      draft.nextImport? = some requirement →
      leaves bound requirement →
      Transition search leaves ⟨false, draft⟩ ⟨false, draft.skipImport⟩
  /-- A candidate of which everything is decided is settled. -/
  | complete {draft : Draft} {id : GenerationId} :
      draft.resolving = some id →
      draft.nextRequire? = none →
      draft.nextImport? = none →
      Transition search leaves ⟨false, draft⟩
        ⟨false, draft.completeResolving⟩
  /-- The first candidate in the queue gets its turn. -/
  | startNext {draft next : Draft} :
      draft.resolving = none →
      draft.startNext? = some next →
      Transition search leaves ⟨false, draft⟩ ⟨true, next⟩

/-- Some transitions lead from one checkpoint to another. -/
def Path (search : Search) (leaves : BoundModule → PackageImport → Prop) :
    Checkpoint → Checkpoint → Prop :=
  Relation.ReflTransGen (search.Transition leaves)

end Search

/-- The checkpoints that searches begin with. -/
inductive Checkpoint.IsFirst : Checkpoint → Prop where
  | initial {store : Store} {generations : List Generation}
      {target : Generation} {draft : Draft} :
      Draft.initial store generations target = .ok draft →
      IsFirst ⟨true, draft⟩
  | dynamic {store : Store} {generations : List Generation}
      {host : Generation} {imports : List PackageImport} {draft : Draft} :
      Draft.forDynamicImport store generations host imports = .ok draft →
      IsFirst ⟨false, draft⟩

namespace Search

variable {search : Search} {leaves : BoundModule → PackageImport → Prop}

/-! ## Positions in order -/

/-- A position whose candidates and books are in order.  Of the candidates that
wait for their turn or have just got it, those that are bound are no
fragments. -/
structure IsOrderly (node : Node) : Prop where
  scheduled : Scheduled node
  balanced : node.draft.IsBalanced node.draft.store.fragments
  bundles : ∀ {id bound},
    id ∈ node.draft.queue ∨
        node.phase = .start ∧ node.draft.resolving = some id →
      node.draft.candidate? id = some (.bound bound) →
        bound.host.isFragment = false

theorem queue_of_engaged
    {draft middle : Draft} {id other : GenerationId}
    (engaged : draft.Engaged id middle) (waiting : other ∈ middle.queue) :
    other ∈ draft.queue ∨
      other = id ∧ ∃ installed,
        draft.candidate? id = some (.unresolved installed) := by
  cases engaged with
  | already _ => exact .inl waiting
  | use _ => exact .inl waiting
  | @enlist installed _ found =>
      rcases List.mem_append.1 waiting with earlier | last
      · exact .inl earlier
      · exact .inr ⟨List.mem_singleton.1 last, installed, found⟩

/-- Whoever waits for a turn after a decision, or has just got it, waited before
or was an untouched bundle. -/
theorem waiting_of_decision
    {node result : Node} (scheduled : Scheduled node)
    (decision : Decision search node result) {id : GenerationId}
    (waiting : id ∈ result.draft.queue ∨
      result.phase = .start ∧ result.draft.resolving = some id) :
    id ∈ node.draft.queue ∨ ∃ installed,
      node.draft.candidate? id = some (.unresolved installed) ∧
        installed.isFragment = false := by
  have engagedBundle : ∀ {middle : Draft} {engagedId : GenerationId},
      node.draft.Engaged engagedId middle →
        (∀ installed, node.draft.candidate? engagedId =
          some (.unresolved installed) → installed.isFragment = false) →
          id ∈ middle.queue ∨ Phase.requires = .start ∨
              Phase.imports = .start →
            id ∈ node.draft.queue ∨ ∃ installed,
              node.draft.candidate? id = some (.unresolved installed) ∧
                installed.isFragment = false := by
    rintro middle engagedId engaged notFragment (here | impossible | impossible)
    · rcases queue_of_engaged engaged here with
        earlier | ⟨rfl, installed, found⟩
      · exact .inl earlier
      · exact .inr ⟨installed, found, notFragment installed found⟩
    · cases impossible
    · cases impossible
  cases decision with
  | idle _ => exact .inl (waiting.resolve_right nofun)
  | attach resolving found _ offered done =>
      have inQueue := waiting.resolve_right nofun
      obtain ⟨_, _, _, _, attaches⟩ :=
        scheduled.exists_attaches resolving found offered done
      rw [attaches.same] at inQueue
      exact .inl inQueue
  | bind resolving found notFragment chosen done =>
      have inQueue := waiting.resolve_right nofun
      obtain ⟨_, _, _, binds⟩ :=
        scheduled.exists_binds resolving found notFragment chosen done
      rw [binds.annotated] at inQueue
      exact .inl inQueue
  | toImports _ _ => exact .inl (waiting.resolve_right nofun)
  | leaveRequire _ _ _ => exact .inl (waiting.resolve_right nofun)
  | provide _ _ offered _ engaged =>
      exact engagedBundle engaged
        (notFragment_of_mem_requireChoices offered)
        (waiting.imp_right fun turn => .inl turn.1)
  | leaveImport _ _ _ => exact .inl (waiting.resolve_right nofun)
  | wire _ _ _ _ offered _ engaged =>
      exact engagedBundle engaged (notFragment_of_mem_wireChoices offered)
        (waiting.imp_right fun turn => .inr turn.1)
  | @settle _ draft through =>
      obtain ⟨_, _, resolving, found, _⟩ := scheduled.exists_of_settle through
      rw [scheduled.settle_eq resolving found] at waiting
      left
      change id ∈ draft.queue
      cases queue : draft.queue with
      | nil =>
          rw [queue] at waiting
          exact absurd (waiting.resolve_right nofun) List.not_mem_nil
      | cons next rest =>
          rw [queue] at waiting
          rcases waiting with later | ⟨_, turn⟩
          · exact List.mem_cons_of_mem _ later
          · cases turn
            exact List.mem_cons_self

theorem isOrderly_of_decision
    {node result : Node} (orderly : IsOrderly node)
    (decision : Decision search node result) :
    IsOrderly result := by
  have scheduled := orderly.scheduled
  have sameStore := store_of_decision scheduled decision
  refine ⟨scheduled_of_decision scheduled decision, ?_, ?_⟩
  · rw [sameStore]
    exact isBalanced_of_decision scheduled decision orderly.balanced
  · intro id bound waiting found
    obtain ⟨earlier, old, evolution⟩ :=
      exists_evolution scheduled decision found
    have sameHost : bound.host = earlier.generation := evolution.generation
    rw [sameHost]
    rcases waiting_of_decision scheduled decision waiting with
      queued | ⟨installed, before, notFragment⟩
    · obtain ⟨installed, fresh⟩ := scheduled.queued id queued
      have isBundle := orderly.bundles (.inl queued) fresh
      have isFresh : earlier = .bound (.of installed) :=
        Option.some.inj (old.symm.trans fresh)
      rw [isFresh]
      exact isBundle
    · have isInstalled : earlier = .unresolved installed :=
        Option.some.inj (old.symm.trans before)
      rw [isInstalled]
      exact notFragment

/-- Whichever import is left, a position stays in order: some search may leave
it. -/
theorem isOrderly_of_leave
    {draft : Draft} {bound : BoundModule} {requirement : PackageImport}
    {rest : List PackageImport} (orderly : IsOrderly ⟨.imports, draft⟩)
    (current : draft.resolvingBound? = some bound)
    (next : bound.imports = requirement :: rest) :
    IsOrderly ⟨.imports, draft.skipImport⟩ := by
  let lenient : Search :=
    ⟨⟨"", { everything := true, exact := [], stems := [] }⟩, ⟨false⟩, ∅⟩
  have allowed : lenient.MayLeave bound requirement :=
    .inr (.inr (.inl (by simp [lenient, BootDelegation.covers])))
  rw [Draft.skipImport_eq current next]
  exact isOrderly_of_decision orderly (.leaveImport current next allowed)

theorem isOrderly_of_initial
    {store : Store} {generations : List Generation} {target : Generation}
    {draft : Draft}
    (done : Draft.initial store generations target = .ok draft) :
    IsOrderly ⟨.start, draft⟩ := by
  have sameStore : draft.store = store ∧ draft.queue = [] := by
    obtain ⟨middle, pooled, ⟨_, same⟩ | ⟨_, same⟩⟩ :=
      Draft.exists_of_initial done
    · rw [same]
      exact ⟨(Draft.isPool_of_pool pooled).sameStore,
        (Draft.isPool_of_pool pooled).queue⟩
    · rw [same]
      exact ⟨(Draft.isPool_of_pool pooled).sameStore,
        (Draft.isPool_of_pool pooled).queue⟩
  refine ⟨Draft.scheduled_of_initial done, ?_, ?_⟩
  · have balanced := Draft.isBalanced_of_initial
      (fun generation _ => List.Subset.refl (store.fragments generation)) done
    exact sameStore.1.symm ▸ balanced
  · intro id bound _ found
    exact Draft.isHost_of_initial done found

theorem isOrderly_of_forDynamicImport
    {store : Store} {generations : List Generation} {host : Generation}
    {imports : List PackageImport} {draft : Draft}
    (done : Draft.forDynamicImport store generations host imports =
      .ok draft) :
    IsOrderly ⟨.requires, draft⟩ := by
  have start : draft.store = store ∧ draft.queue = [] := by
    obtain ⟨middle, _, pooled, _, _, same⟩ :=
      Draft.exists_of_forDynamicImport done
    rw [same]
    exact ⟨(Draft.isPool_of_pool pooled).sameStore,
      (Draft.isPool_of_pool pooled).queue⟩
  refine ⟨Draft.scheduled_of_forDynamicImport done, ?_, ?_⟩
  · have balanced := Draft.isBalanced_of_forDynamicImport
      (fun generation _ => List.Subset.refl (store.fragments generation)) done
    exact start.1.symm ▸ balanced
  · intro id bound waiting _
    change id ∈ draft.queue ∨ Phase.requires = .start ∧ _ at waiting
    rw [start.2] at waiting
    exact absurd (waiting.resolve_right nofun) List.not_mem_nil

/-! ## Transitions are moves -/

/-- What holds of some positions, and survives the moves of a search and leaving
the imports that may be left. -/
structure IsSustained (search : Search)
    (leaves : BoundModule → PackageImport → Prop) (Holds : Node → Prop) :
    Prop where
  orderly : ∀ {node}, Holds node → IsOrderly node
  step : ∀ {node result}, Holds node → search.problem.Step node result →
    Holds result
  leave : ∀ {draft bound requirement rest}, Holds ⟨.imports, draft⟩ →
    draft.resolvingBound? = some bound →
      bound.imports = requirement :: rest →
        leaves bound requirement → Holds ⟨.imports, draft.skipImport⟩

/-- The checkpoints that positions stand for.  Between two turns, the search has no
position for a checkpoint. -/
inductive Reflects (Holds : Node → Prop) : Checkpoint → Prop where
  | start {draft : Draft} :
      Holds ⟨.start, draft⟩ → Reflects Holds ⟨true, draft⟩
  | requires {draft : Draft} :
      Holds ⟨.requires, draft⟩ → Reflects Holds ⟨false, draft⟩
  | imports {draft : Draft} :
      Holds ⟨.imports, draft⟩ → Reflects Holds ⟨false, draft⟩
  | settled {draft : Draft} :
      Holds ⟨.imports, draft⟩ → draft.nextImport? = none →
      Reflects Holds ⟨false, draft.completeResolving⟩
  | finished {draft : Draft} :
      Holds ⟨.finished, draft⟩ → Reflects Holds ⟨false, draft⟩

variable {Holds : Node → Prop} {draft : Draft}

theorem resolving_completeResolving (draft : Draft) :
    draft.completeResolving.resolving = none :=
  (Draft.completeResolving_eq draft).2.2

theorem resolving_of_nextRequire?
    {require : Require} (next : draft.nextRequire? = some require) :
    ∃ bound rest, draft.resolvingBound? = some bound ∧
      bound.requires = require :: rest := by
  obtain ⟨bound, current, head⟩ := Option.bind_eq_some_iff.1 next
  obtain ⟨rest, requires⟩ := List.head?_eq_some_iff.1 head
  exact ⟨bound, rest, current, requires⟩

theorem resolving_of_nextImport?
    {requirement : PackageImport}
    (next : draft.nextImport? = some requirement) :
    ∃ bound rest, draft.resolvingBound? = some bound ∧
      bound.imports = requirement :: rest := by
  obtain ⟨bound, current, head⟩ := Option.bind_eq_some_iff.1 next
  obtain ⟨rest, imports⟩ := List.head?_eq_some_iff.1 head
  exact ⟨bound, rest, current, imports⟩

/-- A checkpoint with a candidate in charge is a position in which the requires or
the imports are decided. -/
theorem Reflects.requires_or_imports
    (sustained : search.IsSustained leaves Holds)
    (reflects : Reflects Holds ⟨false, draft⟩)
    (resolving : draft.resolving.isSome = true) :
    Holds ⟨.requires, draft⟩ ∨ Holds ⟨.imports, draft⟩ := by
  cases reflects with
  | requires holds => exact .inl holds
  | imports holds => exact .inr holds
  | settled _ _ =>
      rw [resolving_completeResolving] at resolving
      cases resolving
  | finished holds =>
      rw [(sustained.orderly holds).scheduled.resolving_of_finished.1]
        at resolving
      cases resolving

theorem Reflects.requires_of_next
    {require : Require} (sustained : search.IsSustained leaves Holds)
    (reflects : Reflects Holds ⟨false, draft⟩)
    (next : draft.nextRequire? = some require) :
    Holds ⟨.requires, draft⟩ := by
  obtain ⟨bound, rest, current, requires⟩ := resolving_of_nextRequire? next
  obtain ⟨id, resolving, _⟩ := Draft.exists_of_resolvingBound? current
  refine (reflects.requires_or_imports sustained
    (by rw [resolving]; rfl)).resolve_right fun holds => ?_
  obtain ⟨decided, same, none⟩ := (sustained.orderly holds).scheduled.stage
  rw [current] at same
  cases same
  rw [requires] at none
  cases none

/-- Once there is no require to decide, the imports follow. -/
theorem Reflects.imports_of_none
    (sustained : search.IsSustained leaves Holds)
    (reflects : Reflects Holds ⟨false, draft⟩)
    (resolving : draft.resolving.isSome = true)
    (through : draft.nextRequire? = none) :
    Holds ⟨.imports, draft⟩ := by
  rcases reflects.requires_or_imports sustained resolving with
    requires | imports
  · refine sustained.step requires ⟨.toImports, ?_, rfl⟩
    obtain ⟨id, isResolving⟩ := Option.isSome_iff_exists.1 resolving
    simp [problem, moves, requireMoves, isResolving, through]
  · exact imports

/-- A fragment that has just got its turn is unresolved. -/
theorem IsOrderly.unresolved_of_turn
    {id : GenerationId} {fragment : Generation}
    (orderly : IsOrderly ⟨.start, draft⟩)
    (resolving : draft.resolving = some id)
    (known : draft.generation? id = some fragment)
    (isFragment : fragment.isFragment = true) :
    draft.candidate? id = some (.unresolved fragment) := by
  obtain ⟨candidate, found, rfl⟩ := Option.map_eq_some_iff.1 known
  rcases orderly.scheduled.stage with
    ⟨installed, current, hit⟩ | ⟨installed, current, hit, _⟩
  · have same : installed.id = id :=
      Option.some.inj (current.symm.trans resolving)
    rw [same] at hit
    have isBundle := orderly.bundles (.inr ⟨rfl, resolving⟩) hit
    have isBound : candidate = .bound (.of installed) :=
      Option.some.inj (found.symm.trans hit)
    rw [isBound] at isFragment
    exact absurd (isFragment.symm.trans isBundle) (by simp)
  · have same : installed.id = id :=
      Option.some.inj (current.symm.trans resolving)
    rw [same] at hit
    cases found.symm.trans hit
    exact hit

theorem step_of_attach
    {result : Draft} {id : GenerationId} {fragment host : Generation}
    (orderly : IsOrderly ⟨.start, draft⟩)
    (resolving : draft.resolving = some id)
    (known : draft.generation? id = some fragment)
    (isFragment : fragment.isFragment = true)
    (offered : host ∈ search.hostChoices draft fragment)
    (done : draft.attachFragment id host.id = .ok result) :
    search.problem.Step ⟨.start, draft⟩ ⟨.requires, result⟩ := by
  have found := orderly.unresolved_of_turn resolving known isFragment
  obtain ⟨untouched, _, _⟩ :=
    orderly.scheduled.untouched_of_start resolving found
  have unattached : draft.attached.contains id = false := by
    cases attached : draft.hostOf? id with
    | none =>
        unfold Draft.hostOf? at attached
        simp [Table.contains, attached]
    | some other =>
        obtain ⟨_, _, bound, _, hit, _⟩ := orderly.balanced.claimed attached
        exact absurd hit (untouched other bound)
  refine ⟨.attach id host.id, ?_, by simp [problem, play?, done, Except.toOption]⟩
  simp only [problem, moves, startMoves, resolving, found,
    Candidate.generation, isFragment, if_true, isUnresolved, unattached,
    Bool.not_false, Bool.and_self, Alternatives.toList_ofList]
  exact List.mem_map.2 ⟨host, offered, rfl⟩

theorem step_of_bind
    {result : Draft} {id : GenerationId} {host : Generation}
    {fragments : List Generation}
    (orderly : IsOrderly ⟨.start, draft⟩)
    (resolving : draft.resolving = some id)
    (known : draft.generation? id = some host)
    (notFragment : host.isFragment = false)
    (chosen : fragments.Sublist (search.fragmentChoices draft host))
    (done : draft.bindFragments id (fragments.map Generation.id) =
      .ok result) :
    search.problem.Step ⟨.start, draft⟩ ⟨.requires, result⟩ := by
  obtain ⟨candidate, found, rfl⟩ := Option.map_eq_some_iff.1 known
  have fresh :=
    orderly.scheduled.fresh_of_start resolving found notFragment
  have bindsAs : bind? draft id (fragments.map Generation.id) =
      some result := by
    rw [bind?_eq _ (found.trans (congrArg some fresh)), done]
    rfl
  refine ⟨.bind id (fragments.map Generation.id), ?_,
    by simp [problem, play?, bindsAs]⟩
  simp only [problem, moves, startMoves, resolving, found, notFragment,
    Bool.false_eq_true, if_false, Alternatives.toList_map]
  exact List.mem_map.2
    ⟨_, mem_subsets_of_sublist (chosen.map Generation.id), rfl⟩

/-- A provider that is offered and consistent can be chosen for the next
require. -/
theorem step_of_provide
    {result : Draft} {require : Require} {provider : Generation}
    (next : draft.nextRequire? = some require)
    (offered : provider ∈ search.requireChoices draft require)
    (provided : provide? draft provider = some result) :
    search.problem.Step ⟨.requires, draft⟩ ⟨.requires, result⟩ := by
  obtain ⟨bound, rest, current, _⟩ := resolving_of_nextRequire? next
  obtain ⟨id, resolving, _⟩ := Draft.exists_of_resolvingBound? current
  refine ⟨.provide provider, ?_, by simp [problem, play?, provided]⟩
  simp only [problem, moves, Alternatives.toList_ofList, requireMoves,
    resolving, next]
  exact List.mem_append_left _ (List.mem_map_of_mem offered)

theorem step_of_leaveRequire
    {require : Require} (next : draft.nextRequire? = some require)
    (optional : require.isOptional = true) :
    search.problem.Step ⟨.requires, draft⟩
      ⟨.requires, draft.skipRequire⟩ := by
  obtain ⟨bound, rest, current, _⟩ := resolving_of_nextRequire? next
  obtain ⟨id, resolving, _⟩ := Draft.exists_of_resolvingBound? current
  refine ⟨.leaveRequire, ?_, rfl⟩
  simp [problem, moves, requireMoves, resolving, next, optional]

theorem step_of_wire
    {result : Draft} {bound : BoundModule} {requirement : PackageImport}
    {rest : List PackageImport} {choice : WireChoice}
    (current : draft.resolvingBound? = some bound)
    (next : bound.imports = requirement :: rest)
    (needed : ¬ search.NeedsNoWire bound requirement)
    (offered : choice ∈ search.wireChoices draft requirement)
    (consistent :
      isWireConsistent draft bound requirement.package choice = true)
    (done : draft.wire choice.exporter choice.declared = .ok result) :
    search.problem.Step ⟨.imports, draft⟩ ⟨.imports, result⟩ := by
  have unwired : bound.wirings.find? requirement.package = none :=
    Draft.unwired_of_wire (ne_resolving_of_mem_wireChoices offered) current
      next done
  have undelegated :
      search.framework.bootDelegation.covers requirement.package = false :=
    Bool.eq_false_iff.2 fun delegated => needed (.inr delegated)
  have wired : wire? draft choice = some result := by
    simp [wire?, current, next, consistent, done, Except.toOption]
  refine ⟨.wire choice, ?_, by simp [problem, play?, wired]⟩
  simp only [problem, moves, Alternatives.toList_ofList, importMoves, current,
    next, importChoices, unwired, undelegated, Bool.false_eq_true, if_false]
  exact List.mem_append_left _ (List.mem_map_of_mem offered)

/-- A module of which everything is decided can be settled. -/
theorem step_of_settle
    (orderly : IsOrderly ⟨.imports, draft⟩)
    (through : draft.nextImport? = none) :
    search.problem.Step ⟨.imports, draft⟩ (settle draft) := by
  obtain ⟨bound, current, _⟩ := orderly.scheduled.stage
  have imports : bound.imports = [] := by
    simpa [Draft.nextImport?, current] using through
  refine ⟨.settle, ?_, rfl⟩
  simp [problem, moves, importMoves, current, imports]

/-- Whatever holds of the positions of a search holds where a transition
leads. -/
theorem reflects_of_transition
    {checkpoint result : Checkpoint}
    (sustained : search.IsSustained leaves Holds)
    (reflects : Reflects Holds checkpoint)
    (transition : search.Transition leaves checkpoint result) :
    Reflects Holds result := by
  cases transition with
  | attach resolving known isFragment offered done =>
      cases reflects with
      | start holds =>
          exact .requires (sustained.step holds (step_of_attach
            (sustained.orderly holds) resolving known isFragment offered
            done))
  | bind resolving known notFragment chosen done =>
      cases reflects with
      | start holds =>
          exact .requires (sustained.step holds (step_of_bind
            (sustained.orderly holds) resolving known notFragment chosen
            done))
  | requireResolved next offered consistent found =>
      have holds := reflects.requires_of_next sustained next
      exact .requires (sustained.step holds (step_of_provide next offered
        (by simp [provide?, consistent, found])))
  | requireBound next offered consistent found =>
      have holds := reflects.requires_of_next sustained next
      exact .requires (sustained.step holds (step_of_provide next offered
        (by simp [provide?, consistent, found])))
  | requireUnresolved next offered consistent found done =>
      have holds := reflects.requires_of_next sustained next
      exact .requires (sustained.step holds (step_of_provide next offered
        (by simp [provide?, consistent, found, done, Except.toOption])))
  | leaveRequire next optional =>
      have holds := reflects.requires_of_next sustained next
      exact .requires (sustained.step holds
        (step_of_leaveRequire next optional))
  | wire through current next needed offered consistent done =>
      obtain ⟨bound, rest, same, imports⟩ := resolving_of_nextImport? next
      rw [current] at same
      cases same
      obtain ⟨id, resolving, _⟩ := Draft.exists_of_resolvingBound? current
      have holds := reflects.imports_of_none sustained
        (by rw [resolving]; rfl) through
      exact .imports (sustained.step holds (step_of_wire current imports
        needed offered consistent done))
  | leaveImport through current next allowed =>
      obtain ⟨bound, rest, same, imports⟩ := resolving_of_nextImport? next
      rw [current] at same
      cases same
      obtain ⟨id, resolving, _⟩ := Draft.exists_of_resolvingBound? current
      have holds := reflects.imports_of_none sustained
        (by rw [resolving]; rfl) through
      exact .imports (sustained.leave holds current imports allowed)
  | complete resolving through none =>
      have holds := reflects.imports_of_none sustained
        (by rw [resolving]; rfl) through
      exact .settled holds none
  | @startNext draft next resolving started =>
      cases reflects with
      | requires holds =>
          obtain ⟨bound, current⟩ := (sustained.orderly holds).scheduled.stage
          obtain ⟨id, isResolving, _⟩ :=
            Draft.exists_of_resolvingBound? current
          cases resolving.symm.trans isResolving
      | imports holds =>
          obtain ⟨bound, current, _⟩ :=
            (sustained.orderly holds).scheduled.stage
          obtain ⟨id, isResolving, _⟩ :=
            Draft.exists_of_resolvingBound? current
          cases resolving.symm.trans isResolving
      | @settled earlier holds none =>
          have step : search.problem.Step ⟨.imports, earlier⟩
              (settle earlier) := step_of_settle (sustained.orderly holds) none
          have reached : settle earlier = ⟨.start, next⟩ := by
            simp [settle, started]
          rw [reached] at step
          exact .start (sustained.step holds step)
      | finished holds =>
          have empty :=
            (sustained.orderly holds).scheduled.resolving_of_finished.2
          simp [Draft.startNext?, empty] at started

theorem reflects_of_path
    {first last : Checkpoint} (sustained : search.IsSustained leaves Holds)
    (reflects : Reflects Holds first) (path : search.Path leaves first last) :
    Reflects Holds last := by
  induction path with
  | refl => exact reflects
  | tail _ transition inductionHypothesis =>
      exact reflects_of_transition sustained inductionHypothesis transition

/-- A checkpoint in which everything is decided is the end of a search. -/
theorem Reflects.finished_of_isDone
    {checkpoint : Checkpoint} (sustained : search.IsSustained leaves Holds)
    (reflects : Reflects Holds checkpoint)
    (isDone : checkpoint.draft.isDone = true) :
    Holds ⟨.finished, checkpoint.draft⟩ := by
  have idle : checkpoint.draft.queue = [] ∧
      checkpoint.draft.resolving = none := by
    simpa [Draft.isDone] using isDone
  have busy : ∀ {draft : Draft} {bound : BoundModule},
      draft.resolvingBound? = some bound → draft.resolving ≠ none := by
    intro draft bound current none
    obtain ⟨id, resolving, _⟩ := Draft.exists_of_resolvingBound? current
    cases none.symm.trans resolving
  cases reflects with
  | start holds =>
      rcases (sustained.orderly holds).scheduled.stage with
        ⟨installed, resolving, _⟩ | ⟨fragment, resolving, _⟩
      · cases idle.2.symm.trans resolving
      · cases idle.2.symm.trans resolving
  | requires holds =>
      obtain ⟨bound, current⟩ := (sustained.orderly holds).scheduled.stage
      exact absurd idle.2 (busy current)
  | imports holds =>
      obtain ⟨bound, current, _⟩ := (sustained.orderly holds).scheduled.stage
      exact absurd idle.2 (busy current)
  | @settled earlier holds none =>
      have step : search.problem.Step ⟨.imports, earlier⟩ (settle earlier) :=
        step_of_settle (sustained.orderly holds) none
      have empty : earlier.completeResolving.queue = [] := idle.1
      have reached : settle earlier =
          ⟨.finished, earlier.completeResolving⟩ := by
        simp [settle, Draft.startNext?, empty]
      rw [reached] at step
      exact sustained.step holds step
  | finished holds => exact holds

end Search

end ModuleWiring
