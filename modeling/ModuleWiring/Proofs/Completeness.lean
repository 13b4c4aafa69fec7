import ModuleWiring.Proofs.Plan
import ModuleWiring.Proofs.Reachability
import ModuleWiring.Proofs.Subsets
import Mathlib.Data.List.Nodup

/-!
# Searches find a wiring if there is a plan

A search that follows a consistent plan can always go on with it.  Backtracking
therefore finds some wiring, whether or not it is the one that was planned.
-/

namespace ModuleWiring

namespace Plan

variable {plan : Plan} {search : Search} {store : Store} {draft : Draft}
  {bound : BoundModule} {serves : Generation → PackageImport → Bool}

namespace Follows

theorem of_same
    {result : Draft} (follows : plan.Follows draft)
    (candidates : result.candidates = draft.candidates)
    (unused : result.unused = draft.unused) :
    plan.Follows result := by
  have same : ∀ id, result.candidate? id = draft.candidate? id := by
    intro id
    unfold Draft.candidate?
    rw [candidates]
  constructor
  · intro host member
    rw [same]
    exact follows.planned host member
  · intro id candidate found
    rw [same] at found
    cases follows.fits found with
    | unresolved notFragment waiting =>
        exact .unresolved notFragment (unused ▸ waiting)
    | bound keeps => exact .bound keeps

theorem put
    {id : GenerationId} {new : BoundModule} (follows : plan.Follows draft)
    (found : draft.candidate? id = some (.bound bound))
    (sameHost : new.host = bound.host) (keeps : plan.Keeps new) :
    plan.Follows (draft.put (.bound new)) := by
  have same : bound.host.id = id := Draft.id_of_candidate? found
  constructor
  · intro host member
    obtain ⟨candidate, hit, isHost⟩ := follows.planned host member
    rw [Draft.candidate?_put, Draft.id_bound, sameHost, same]
    by_cases here : id = host.id
    · rw [← here, found] at hit
      cases hit
      exact ⟨_, if_pos here, sameHost.trans isHost⟩
    · exact ⟨candidate, (if_neg here).trans hit, isHost⟩
  · intro other candidate hit
    rw [Draft.candidate?_put] at hit
    split at hit
    · cases hit
      exact .bound keeps
    · cases follows.fits hit with
      | unresolved notFragment waiting =>
          exact .unresolved notFragment waiting
      | bound kept => exact .bound kept

/-- Bundles of the plan can be engaged. -/
theorem exists_engage
    {host : Generation} (follows : plan.Follows draft)
    (isPlain : plan.IsPlain search store) (member : host ∈ plan.hosts) :
    ∃ result, draft.engage host.id = .ok result := by
  unfold Draft.engage
  rcases follows.candidate?_eq member with
    ⟨found, _⟩ | ⟨bound, found, _⟩
  · have free : draft.registerSingleton host = .ok draft := by
      simp [Draft.registerSingleton, (isPlain.plain host member).notSingleton]
    simp [found, Draft.enlist, free, bind, Except.bind, pure, Except.pure]
  · simp [found]

/-- A bundle of the plan that is engaged is bound as the plan demands. -/
theorem engage
    {host : Generation} {result : Draft} (follows : plan.Follows draft)
    (isPlain : plan.IsPlain search store) (member : host ∈ plan.hosts)
    (engaged : draft.Engaged host.id result) :
    plan.Follows result := by
  cases engaged with
  | already _ => exact follows
  | use notUnresolved =>
      refine ⟨follows.planned, ?_⟩
      intro id candidate found
      cases follows.fits found with
      | @unresolved installed notFragment waiting =>
          refine .unresolved notFragment fun planned => ?_
          have different : host.id ≠ installed.id := by
            intro same
            have sameId : installed.id = id := Draft.id_of_candidate? found
            apply notUnresolved installed
            rw [same, sameId]
            exact found
          simpa [Draft.use, Roster.contains, different] using waiting planned
      | bound keeps => exact .bound keeps
  | @enlist installed singletons found =>
      have isHost : installed = host := by
        obtain ⟨candidate, hit, generation⟩ := follows.planned host member
        rw [found] at hit
        cases hit
        exact generation
      subst isHost
      have same : ∀ other : GenerationId,
          (draft.put (.bound (.of installed))).candidate? other =
            if installed.id = other then some (.bound (.of installed))
            else draft.candidate? other :=
        fun other => Draft.candidate?_put draft _ other
      constructor
      · intro other otherMember
        change ∃ candidate,
          (draft.put (.bound (.of installed))).candidate? other.id = _ ∧ _
        rw [same]
        by_cases here : installed.id = other.id
        · have equality := isPlain.distinct installed member other
            otherMember here
          exact ⟨_, if_pos here, equality⟩
        · rw [if_neg here]
          exact follows.planned other otherMember
      · intro id candidate hit
        change (draft.put (.bound (.of installed))).candidate? id = _ at hit
        rw [same] at hit
        split at hit
        · cases hit
          exact .bound (keeps_of isPlain member)
        · rename_i different
          cases follows.fits hit with
          | @unresolved waitingHost notFragment waiting =>
              have sameId : waitingHost.id = id :=
                Draft.id_of_candidate? hit
              refine .unresolved notFragment fun planned => ?_
              have kept := waiting planned
              rw [sameId] at kept ⊢
              simpa [Draft.use, Draft.put, Roster.contains, different]
                using kept
          | bound keeps => exact .bound keeps

/-- The wire that the plan has for a package is consistent with everything that
the draft is committed to. -/
theorem isWireConsistent
    {wire : Wire} (follows : plan.Follows draft)
    (consistent : plan.IsConsistent plan.maySee serves)
    (keeps : plan.Keeps bound)
    (planned : plan.wire? bound.host wire.package = some wire) :
    Search.isWireConsistent draft bound wire.package
      ⟨wire.exporter, wire.declared⟩ = true := by
  have origin : ∀ reached ∈ draft.implied wire ++ draft.accepted bound,
      ∃ package start, plan.wire? bound.host package = some start ∧
        Reaches plan.maySee start reached := by
    intro reached member
    rcases List.mem_append.1 member with new | old
    · have exporter := (consistent.provided keeps.host planned).2.1
      exact ⟨_, _, planned,
        follows.reaches_of_mem_implied consistent exporter new⟩
    · obtain ⟨start, wired, implied⟩ := List.mem_flatMap.1 old
      have before := keeps.wirings (keeps.keyed.find?_of_mem wired)
      have exporter := (consistent.provided keeps.host before).2.1
      exact ⟨_, _, before,
        follows.reaches_of_mem_implied consistent exporter implied⟩
  apply Draft.agrees_of_exporter_eq
  · intro first firstMember second secondMember samePackage
    obtain ⟨_, _, firstPlanned, firstReached⟩ := origin first firstMember
    obtain ⟨_, _, secondPlanned, secondReached⟩ := origin second secondMember
    exact congrArg Generation.id (consistent.single keeps.host secondPlanned
      firstPlanned secondReached firstReached samePackage)
  · intro reached member other inUse samePackage
    obtain ⟨_, _, start, reaches⟩ := origin reached member
    obtain ⟨host, hostMember, theirs⟩ := follows.planned_of_inUse inUse
    rw [samePackage] at theirs
    exact congrArg Generation.id
      (consistent.uses keeps.host hostMember start reaches theirs)

/-- The wire that the plan has for an import is among the choices. -/
theorem mem_wireChoices
    {requirement : PackageImport} {wire : Wire}
    (follows : plan.Follows draft) (isPlain : plan.IsPlain search store)
    (consistent : plan.IsConsistent plan.maySee serves)
    (member : bound.host ∈ plan.hosts)
    (resolving : draft.resolving = some bound.host.id)
    (planned : plan.wire? bound.host requirement.package = some wire)
    (accepted : requirement.accepts wire.declared wire.exporter = true) :
    ⟨wire.exporter, wire.declared⟩ ∈ search.wireChoices draft requirement := by
  obtain ⟨_, exporterMember, foreign, declared, _⟩ :=
    consistent.provided member planned
  have unwired := consistent.unwired member planned
  have other : draft.resolving ≠ some wire.exporter.id := by
    rw [resolving]
    intro same
    exact foreign (isPlain.distinct _ exporterMember _ member
      (Option.some.inj same).symm)
  have exports := PackageImport.mem_packages_of_accepts accepted
  have offered : (⟨requirement.package, wire.declared, none⟩ : Offer) ∈
      wire.exporter.offers :=
    Generation.mem_offers_of_mem_exports declared exports
  have indexed : ∀ candidate : Candidate,
      candidate.id = wire.exporter.id →
        search.mayExport candidate requirement.package = true := by
    intro candidate same
    have known := isPlain.indexed _ exporterMember _ declared _ exports
    simp [Search.mayExport, same, known]
  rcases follows.candidate?_eq exporterMember with
    ⟨found, unused⟩ | ⟨exporting, found, isHost, keeps⟩
  · have notFragment := (isPlain.plain _ exporterMember).notFragment
    have grouped : (Search.group? draft
        (.unresolved wire.exporter)).isSome = true := by
      refine Search.isSome_group? other ?_
      rintro _ ⟨rfl⟩
      exact ⟨notFragment, unused⟩
    exact Search.mem_wireChoices_of_offer (Draft.mem_of_candidate? found)
      grouped (indexed _ rfl) offered rfl rfl accepted
  · have sameId : (Candidate.bound exporting).id = wire.exporter.id :=
      congrArg Generation.id isHost
    have grouped : (Search.group? draft (.bound exporting)).isSome = true :=
      Search.isSome_group? (sameId ▸ other) (by simp)
    have none : exporting.wirings.find? requirement.package = none := by
      cases wired : exporting.wirings.find? requirement.package with
      | none => rfl
      | some theirs =>
          have impossible := keeps.wirings wired
          rw [isHost, unwired] at impossible
          cases impossible
    have stillOffered : (⟨requirement.package, wire.declared, Option.none⟩ :
        Offer) ∈ exporting.offers := by
      rw [keeps.offers, isHost]
      exact List.mem_filter.2 ⟨offered, by simp [none]⟩
    rw [← isHost] at accepted ⊢
    exact Search.mem_wireChoices_of_offer (Draft.mem_of_candidate? found)
      grouped (indexed _ sameId) stillOffered rfl rfl accepted

/-- A host starts without fragments. -/
theorem exists_step_of_start
    (follows : plan.Follows draft) (isPlain : plan.IsPlain search store)
    (scheduled : Search.Scheduled ⟨.start, draft⟩) :
    ∃ result, search.problem.Step ⟨.start, draft⟩ result ∧
      plan.Follows result.draft := by
  rcases scheduled.stage with
    ⟨installed, resolving, found⟩ | ⟨fragment, _, found, isFragment, _⟩
  · have notFragment : installed.isFragment = false := by
      cases follows.fits found with
      | bound keeps => exact (isPlain.plain _ keeps.host).notFragment
    refine ⟨⟨.requires, draft⟩, ⟨.bind installed.id [], ?_, rfl⟩, follows⟩
    change _ ∈ (search.startMoves draft).toList
    dsimp only at resolving found
    simp only [Search.startMoves, resolving, found, Candidate.generation,
      BoundModule.of, notFragment, Bool.false_eq_true, if_false,
      Alternatives.toList_map]
    exact List.mem_map.2
      ⟨[], mem_subsets_of_sublist (List.nil_sublist _), rfl⟩
  · cases follows.fits found with
    | unresolved notFragment _ =>
        rw [notFragment] at isFragment
        cases isFragment

/-- Nothing is required. -/
theorem exists_step_of_requires
    (follows : plan.Follows draft)
    (scheduled : Search.Scheduled ⟨.requires, draft⟩) :
    ∃ result, search.problem.Step ⟨.requires, draft⟩ result ∧
      plan.Follows result.draft := by
  obtain ⟨bound, current⟩ := scheduled.stage
  obtain ⟨id, resolving, found⟩ := Draft.exists_of_resolvingBound? current
  refine ⟨⟨.imports, draft⟩, ⟨.toImports, ?_, rfl⟩, follows⟩
  change _ ∈ (Alternatives.ofList (search.requireMoves draft)).toList
  cases follows.fits found with
  | bound keeps =>
      dsimp only at resolving current
      simp [Search.requireMoves, resolving, Draft.nextRequire?, current,
        keeps.requires]

theorem exists_step_of_leaveImport
    (search : Search) {requirement : PackageImport} {rest : List PackageImport}
    (follows : plan.Follows draft) (keeps : plan.Keeps bound)
    (current : draft.resolvingBound? = some bound)
    (next : bound.imports = requirement :: rest)
    (allowed : .leaveImport ∈
      search.importChoices draft bound requirement) :
    ∃ result, search.problem.Step ⟨.imports, draft⟩ result ∧
      plan.Follows result.draft := by
  refine ⟨⟨.imports, draft.skipImport⟩, ⟨.leaveImport, ?_, rfl⟩, ?_⟩
  · change _ ∈ (Alternatives.ofList (search.importMoves draft)).toList
    simpa only [Alternatives.toList_ofList, Search.importMoves, current, next]
      using allowed
  · rw [Draft.skipImport_eq current next]
    exact follows.put (Draft.candidate?_of_resolvingBound? current) rfl
      (keeps.leaveImport next)

theorem exists_step_of_wire
    {requirement : PackageImport} {rest : List PackageImport} {wire : Wire}
    (follows : plan.Follows draft) (isPlain : plan.IsPlain search store)
    (consistent : plan.IsConsistent plan.maySee serves)
    (keeps : plan.Keeps bound)
    (current : draft.resolvingBound? = some bound)
    (next : bound.imports = requirement :: rest)
    (unwired : bound.wirings.find? requirement.package = none)
    (planned : plan.wire? bound.host requirement.package = some wire)
    (accepted : requirement.accepts wire.declared wire.exporter = true) :
    ∃ result, search.problem.Step ⟨.imports, draft⟩ result ∧
      plan.Follows result.draft := by
  obtain ⟨id, resolving, found⟩ := Draft.exists_of_resolvingBound? current
  have isHost : bound.host.id = id := Draft.id_of_candidate? found
  rw [← isHost] at resolving found
  obtain ⟨package, exporter, foreign, _⟩ :=
    consistent.provided keeps.host planned
  have other : draft.resolving ≠ some wire.exporter.id := by
    rw [resolving]
    intro same
    exact foreign (isPlain.distinct _ exporter _ keeps.host
      (Option.some.inj same).symm)
  have undelegated := (isPlain.plain _ keeps.host).undelegated requirement
    (keeps.imports (next ▸ List.mem_cons_self))
  have choice := follows.mem_wireChoices isPlain consistent keeps.host
    resolving planned accepted
  have agrees : Search.isWireConsistent draft bound requirement.package
      ⟨wire.exporter, wire.declared⟩ = true := by
    rw [← package]
    exact follows.isWireConsistent consistent keeps (package ▸ planned)
  obtain ⟨middle, engaged⟩ := follows.exists_engage isPlain exporter
  have isEngaged := Draft.engaged_of_engage engaged
  have kept := (isEngaged.resolvingBound? other).trans current
  have same : (⟨requirement.package, wire.declared, wire.exporter⟩ : Wire) =
      wire := by rw [← package]
  have done := Draft.wire_eq_ok wire.declared engaged other current next
    unwired
  rw [same, ← package] at done
  have goesOn := (follows.engage isPlain exporter isEngaged).put
    (Draft.candidate?_of_resolvingBound? kept) (by rfl)
    (keeps.wire next (package ▸ planned))
  refine ⟨⟨.imports, _⟩,
    ⟨.wire ⟨wire.exporter, wire.declared⟩, ?_, ?_⟩, goesOn⟩
  · change _ ∈ (Alternatives.ofList (search.importMoves draft)).toList
    simp only [Alternatives.toList_ofList, Search.importMoves, current, next,
      Search.importChoices, unwired, undelegated, Bool.false_eq_true,
      if_false]
    exact List.mem_append_left _ (List.mem_map_of_mem choice)
  · change (Search.wire? draft _).map (Node.mk .imports) = _
    simp only [Search.wire?, current, next, agrees, if_true, done]
    rfl

/-- An import is decided as planned. -/
theorem exists_step_of_imports
    (follows : plan.Follows draft) (isPlain : plan.IsPlain search store)
    (consistent : plan.IsConsistent plan.maySee Generation.servesFirst)
    (scheduled : Search.Scheduled ⟨.imports, draft⟩) :
    ∃ result, search.problem.Step ⟨.imports, draft⟩ result ∧
      plan.Follows result.draft := by
  obtain ⟨bound, current, _⟩ := scheduled.stage
  obtain ⟨id, resolving, found⟩ := Draft.exists_of_resolvingBound? current
  have keeps : plan.Keeps bound := by
    cases follows.fits found with
    | bound keeps => exact keeps
  dsimp only at current resolving found
  cases next : bound.imports with
  | nil =>
      refine ⟨Search.settle draft, ⟨.settle, ?_, rfl⟩, ?_⟩
      · change _ ∈ (Alternatives.ofList (search.importMoves draft)).toList
        simp [Search.importMoves, current, next]
      · rw [scheduled.settle_eq resolving found]
        cases draft.queue with
        | nil => exact follows.of_same rfl rfl
        | cons _ _ => exact follows.of_same rfl rfl
  | cons requirement rest =>
      have member : requirement ∈ bound.host.imports :=
        keeps.imports (next ▸ List.mem_cons_self)
      have undelegated := (isPlain.plain _ keeps.host).undelegated requirement
        member
      have leave := follows.exists_step_of_leaveImport search keeps current next
      cases wired : bound.wirings.find? requirement.package with
      | some wire =>
          have planned := keeps.wirings wired
          refine leave ?_
          simp only [Search.importChoices, wired]
          rcases consistent.satisfied keeps.host member with
            ⟨other, theirs, accepted⟩ | optional | ⟨none, _⟩
          · rw [planned] at theirs
            cases theirs
            simp [accepted]
          · simp [optional]
          · rw [planned] at none
            cases none
      | none =>
          have allowed : (Search.isSelfServed bound requirement ||
              requirement.isOptional) = true →
                .leaveImport ∈ search.importChoices draft bound requirement := by
            intro may
            simp only [Search.importChoices, wired, undelegated,
              Bool.false_eq_true, if_false]
            rw [if_pos may]
            exact List.mem_append_right _ List.mem_cons_self
          rcases consistent.satisfied keeps.host member with
            ⟨wire, planned, accepted⟩ | optional | ⟨_, served⟩
          · exact follows.exists_step_of_wire isPlain consistent keeps current
              next wired planned accepted
          · exact leave (allowed (by simp [optional]))
          · refine leave (allowed ?_)
            obtain ⟨own, offered, accepted⟩ :=
              (Option.any_eq_true _ _).1 served
            obtain ⟨offer, first, rfl⟩ := Option.map_eq_some_iff.1 offered
            have source := (Draft.mem_exports_of_mem_offers
              (List.mem_of_find?_eq_some first)).2
            have kept := keeps.offer?_eq wired
            change requirement.accepts offer.declared _ = true at accepted
            simp [Search.isSelfServed, kept, first, Offer.exporter, source,
              accepted]

/-- A search that follows a consistent plan finds a wiring. -/
theorem found
    {node : Node} (isPlain : plan.IsPlain search store)
    (consistent : plan.IsConsistent plan.maySee Generation.servesFirst)
    (scheduled : Search.Scheduled node) (follows : plan.Follows node.draft) :
    (search.problem.explore node).found.isSome = true := by
  have progress : ∀ {node : Node},
      Search.Scheduled node ∧ plan.Follows node.draft →
        (search.problem.goal? node).isSome = true ∨
          ∃ result, search.problem.Step node result ∧
            Search.Scheduled result ∧ plan.Follows result.draft := by
    rintro ⟨phase, draft⟩ ⟨scheduled, follows⟩
    have onward : (∃ result, search.problem.Step ⟨phase, draft⟩ result ∧
        plan.Follows result.draft) →
          ∃ result, search.problem.Step ⟨phase, draft⟩ result ∧
            Search.Scheduled result ∧ plan.Follows result.draft := by
      rintro ⟨result, step, kept⟩
      exact ⟨result, step, Search.scheduled_of_decision scheduled
        (Search.decision_of_step step), kept⟩
    cases phase with
    | start =>
        exact .inr (onward (follows.exists_step_of_start isPlain scheduled))
    | requires =>
        exact .inr (onward (follows.exists_step_of_requires scheduled))
    | imports =>
        exact .inr (onward (follows.exists_step_of_imports isPlain consistent
          scheduled))
    | finished => exact .inl rfl
  exact Problem.isSome_found_of_progress progress ⟨scheduled, follows⟩

end Follows

/-- The first draft for a bundle of a plan follows the plan. -/
theorem exists_initial
    (search : Search) {generations : List Generation} {target : Generation}
    (plain : ∀ generation ∈ generations,
      generation.IsPlain search.framework store)
    (distinct : (generations.map Generation.id).Nodup)
    (isPlain : plan.IsPlain search store)
    (tracked : plan.hosts ⊆ generations) (member : target ∈ plan.hosts) :
    ∃ draft, Draft.initial store generations target = .ok draft ∧
      plan.Follows draft := by
  have unresolved : ∀ generation ∈ generations,
      (store.state generation).isResolved = false := by
    intro generation listed
    rw [(plain generation listed).installed]
    rfl
  obtain ⟨pool, pooled, waiting⟩ := Draft.exists_pool
    (fun generation listed =>
      ⟨unresolved generation listed, (plain generation listed).notSingleton⟩)
    distinct
  have isPool := Draft.isPool_of_pool pooled
  have follows : plan.Follows pool := by
    constructor
    · intro host planned
      exact ⟨_, (waiting host (tracked planned)).1, rfl⟩
    · intro id candidate found
      obtain ⟨listed, given⟩ := isPool.given found
      cases given with
      | unresolved _ =>
          exact .unresolved (plain _ listed).notFragment
            fun planned => (waiting _ (tracked planned)).2
      | resolved resolved _ =>
          exact absurd resolved
            (Bool.eq_false_iff.1 (unresolved _ listed))
      | target _ _ => exact absurd found (isPool.untouched id _)
      | reopened _ _ => exact absurd found (isPool.untouched id _)
  have free : pool.registerSingleton target = .ok pool := by
    simp [Draft.registerSingleton, (isPlain.plain target member).notSingleton]
  have isEngaged : pool.Engaged target.id
      { (pool.put (.bound (.of target))).use target.id with
        queue := pool.queue ++ [target.id], singletons := pool.singletons } :=
    .enlist (waiting target (tracked member)).1
  have engaged := follows.engage isPlain member isEngaged
  refine ⟨{ (pool.put (.bound (.of target))).use target.id with
    resolving := some target.id }, ?_, engaged.of_same rfl rfl⟩
  simp [Draft.initial, pooled, bind, Except.bind, free, pure, Except.pure,
    (isPlain.plain target member).notFragment]

end Plan

/-- A resolver that tracks plain bundles answers with a wiring wherever there is
a consistent plan.  Until an owner is wired its own export may be taken for a
used package, so that a plan has to agree with that as well, and only the first
of its exports serves a bundle itself. -/
theorem World.Reachable.exists_answer_of_plan
    {world : World} {framework : Framework} {plan : Plan}
    {target : Generation} (reachable : world.Reachable)
    (started : world.resolver.framework = some framework)
    (plain : ∀ generation ∈ world.resolver.tracked,
      generation.IsPlain framework world.store)
    (tracked : plan.hosts ⊆ world.resolver.tracked)
    (member : target ∈ plan.hosts)
    (consistent : plan.IsConsistent plan.maySee Generation.servesFirst) :
    ∃ answer, world.resolver.resolve world.store target = .ok answer := by
  have valid := reachable.isConsistent.resolver
  have isPlain : plan.IsPlain (world.resolver.search framework)
      world.store := by
    refine ⟨fun host planned => plain host (tracked planned), ?_, ?_⟩
    · intro host planned other otherPlanned same
      exact List.inj_on_of_nodup_map valid.distinct (tracked planned)
        (tracked otherPlanned) same
    · intro host planned declared listed package exported
      exact valid.indexed host (tracked planned) package
        (List.mem_flatMap.2 ⟨declared, listed, exported⟩)
  have canonical : world.resolver.canonical world.store =
      world.resolver.tracked := by
    refine List.filter_eq_self.2 fun generation listed => ?_
    rw [(plain generation listed).installed]
    rfl
  have found : world.resolver.find? target.id = some target := by
    cases hit : world.resolver.find? target.id with
    | none =>
        have missed := List.find?_eq_none.1 hit target (tracked member)
        simp at missed
    | some other =>
        obtain ⟨listed, same⟩ := Resolver.mem_of_find? hit
        exact congrArg some (List.inj_on_of_nodup_map valid.distinct listed
          (tracked member) same)
  obtain ⟨draft, begun, follows⟩ := Plan.exists_initial
    (world.resolver.search framework) plain valid.distinct isPlain tracked
    member
  have scheduled := (Draft.begins_of_initial
    (by rw [(plain target (tracked member)).installed]; rfl) begun).2
  have prepared : world.resolver.initialDraft world.store target =
      .ok (world.resolver.search framework, draft) := by
    simp [Resolver.initialDraft, Resolver.frameworkFor, Resolver.started,
      started, Resolver.tracks, found, canonical, begun,
      (plain target (tracked member)).installed, bind, Except.bind, pure,
      Except.pure, Except.mapError]
  obtain ⟨final, reached⟩ := Option.isSome_iff_exists.1
    (follows.found isPlain consistent scheduled)
  refine ⟨final.solutions, ?_⟩
  change (world.resolver.attempt world.store target).solutions = _
  have attempted : (world.resolver.attempt world.store target).result =
      .ok final := by
    unfold Resolver.attempt
    rw [prepared]
    change (Attempt.ofOutcome target
      ((world.resolver.search framework).problem.explore _)).result = _
    unfold Attempt.ofOutcome
    rw [reached]
  unfold Attempt.solutions
  rw [attempted]
  rfl

/-! ## Small plans -/

namespace Plan

/-- The plan with listed wires, each with the bundle that has it. -/
def of (hosts : List Generation) (wires : List (Generation × Wire)) : Plan where
  hosts := hosts
  wire? := fun host package =>
    (wires.find? fun entry =>
      entry.1 = host && entry.2.package = package).map Prod.snd

variable {hosts : List Generation} {wires : List (Generation × Wire)}
  {sees : View → List Wire} {serves : Generation → PackageImport → Bool}

theorem mem_of_wire?
    {host : Generation} {package : String} {wire : Wire}
    (found : (of hosts wires).wire? host package = some wire) :
    (host, wire) ∈ wires ∧ wire.package = package := by
  obtain ⟨entry, hit, rfl⟩ := Option.map_eq_some_iff.1 found
  have same := List.find?_some hit
  simp only [Bool.and_eq_true, decide_eq_true_eq] at same
  rw [← same.1]
  exact ⟨List.mem_of_find?_eq_some hit, same.2⟩

/-- A plan is consistent if its wires are closed under uses lists and name one
exporter for each package. -/
theorem isConsistent_of
    (provided : ∀ entry ∈ wires, entry.2.exporter ∈ hosts ∧
      entry.2.exporter ≠ entry.1 ∧
      entry.2.declared ∈ entry.2.exporter.manifest.exports ∧
      (of hosts wires).wire? entry.2.exporter entry.2.package = none ∧
      ∃ requirement ∈ entry.1.imports,
        requirement.package = entry.2.package ∧
          requirement.accepts entry.2.declared entry.2.exporter = true)
    (satisfied : ∀ host ∈ hosts, ∀ requirement ∈ host.imports,
      (∃ wire ∈ (of hosts wires).wire? host requirement.package,
        requirement.accepts wire.declared wire.exporter = true) ∨
      requirement.isOptional = true ∨
      (of hosts wires).wire? host requirement.package = none ∧
        serves host requirement = true)
    (closed : ∀ wire ∈ wires.map Prod.snd,
      ∀ view ∈ Draft.usedViews wire, sees view ⊆ wires.map Prod.snd)
    (single : ∀ wire ∈ wires.map Prod.snd, ∀ other ∈ wires.map Prod.snd,
      wire.package = other.package → wire.exporter = other.exporter) :
    (of hosts wires).IsConsistent sees serves := by
  have listed : ∀ {host package wire},
      (of hosts wires).wire? host package = some wire →
        wire ∈ wires.map Prod.snd := fun found =>
    List.mem_map.2 ⟨_, (mem_of_wire? found).1, rfl⟩
  constructor
  · intro host package wire _ found
    obtain ⟨member, rfl⟩ := mem_of_wire? found
    obtain ⟨inside, foreign, declared, _, wanted⟩ := provided _ member
    exact ⟨rfl, inside, foreign, declared, wanted⟩
  · exact fun member wanted => satisfied _ member _ wanted
  · intro host package wire _ found
    obtain ⟨member, rfl⟩ := mem_of_wire? found
    exact (provided _ member).2.2.2.1
  · intro host other package wire theirs _ _ found theirsFound
    exact single _ (listed theirsFound) _ (listed found)
      ((mem_of_wire? theirsFound).2.trans (mem_of_wire? found).2.symm)
  · intro host other package wire reaching theirs _ _ found reaches theirsFound
    exact single _ (listed theirsFound) _
      (reaches.mem_of_closed closed (listed found))
      (mem_of_wire? theirsFound).2
  · intro host first second wire other left right _ found otherFound
      leftReached rightReached same
    exact single _ (leftReached.mem_of_closed closed (listed found)) _
      (rightReached.mem_of_closed closed (listed otherFound)) same

end Plan

namespace Sample

/-- A relay with an old export of the other package that its wire takes the place
of. -/
def shadowing : Manifest :=
  bundle "y" [offer "p" 1 ["q"], offer "q" 1] [wish "q" 2]

/-- How they are to be wired. -/
def chainPlan (middle : Manifest) : Plan :=
  .of [generation 0 consumer, generation 1 middle, generation 2 source]
    [(generation 0 consumer, ⟨"p", offer "p" 1 ["q"], generation 1 middle⟩),
      (generation 0 consumer, ⟨"q", offer "q" 2, generation 2 source⟩),
      (generation 1 middle, ⟨"q", offer "q" 2, generation 2 source⟩)]

/-- A bundle that exports two versions of a package and imports the second. -/
def repeating : Manifest :=
  bundle "a" [offer "p" 1, offer "p" 2] [wish "p" 2]

end Sample

/-- A chain of three bundles can be planned, and the resolver has an answer for
it. -/
theorem World.chain_answered :
    (Sample.chainPlan Sample.relay).IsConsistent
        (Sample.chainPlan Sample.relay).maySee Generation.servesFirst ∧
      ∃ answer, (Sample.chain Sample.relay).resolver.resolve
        (Sample.chain Sample.relay).store
        (Sample.generation 0 Sample.consumer) = .ok answer := by
  have consistent : (Sample.chainPlan Sample.relay).IsConsistent
      (Sample.chainPlan Sample.relay).maySee Generation.servesFirst :=
    Plan.isConsistent_of (by decide +kernel) (by decide +kernel)
      (by decide +kernel) (by decide +kernel)
  have plain : ∀ generation ∈ (Sample.chain Sample.relay).resolver.tracked,
      generation.IsPlain ⟨"system.bundle", BootDelegation.none⟩
        (Sample.chain Sample.relay).store := by decide +kernel
  have tracked : (Sample.chainPlan Sample.relay).hosts ⊆
      (Sample.chain Sample.relay).resolver.tracked := by decide +kernel
  exact ⟨consistent, World.Reachable.exists_answer_of_plan
    (Sample.reachable_world _) rfl plain tracked List.mem_cons_self
    consistent⟩

/-- Wherever a plan is consistent, in some sense, a resolver that tracks plain
bundles does not claim that there is none. -/
def Plan.Suffices (sees : Plan → View → List Wire)
    (serves : Generation → PackageImport → Bool) : Prop :=
  ∀ {world : World} {framework : Framework} {plan : Plan}
    {target : Generation}, world.Reachable →
      world.resolver.framework = some framework →
        (∀ generation ∈ world.resolver.tracked,
          generation.IsPlain framework world.store) →
          plan.hosts ⊆ world.resolver.tracked → target ∈ plan.hosts →
            plan.IsConsistent (sees plan) serves →
              world.resolver.resolve world.store target ≠
                .error (.noSolution target)

/-- A plan does not suffice that ignores the own export of a bundle that is
still to be wired, nor one in which any export of its own serves a bundle. -/
theorem Plan.not_suffices :
    ¬ Plan.Suffices Plan.sees Generation.serves ∧
      ¬ Plan.Suffices Plan.sees Generation.servesFirst ∧
      ¬ Plan.Suffices Plan.maySee Generation.serves := by
  have shadowed : ∀ serves : Generation → PackageImport → Bool,
      (Sample.chainPlan Sample.shadowing).IsConsistent
        (Sample.chainPlan Sample.shadowing).sees serves →
        ¬ Plan.Suffices Plan.sees serves := by
    intro serves consistent complete
    have plain : ∀ generation ∈
        (Sample.chain Sample.shadowing).resolver.tracked,
        generation.IsPlain ⟨"system.bundle", BootDelegation.none⟩
          (Sample.chain Sample.shadowing).store := by decide +kernel
    have tracked : (Sample.chainPlan Sample.shadowing).hosts ⊆
        (Sample.chain Sample.shadowing).resolver.tracked := by decide +kernel
    exact complete (Sample.reachable_world _) rfl plain tracked
      List.mem_cons_self consistent (by decide +kernel)
  refine ⟨shadowed _ ?_, shadowed _ ?_, ?_⟩
  · exact Plan.isConsistent_of (by decide +kernel) (by decide +kernel)
      (by decide +kernel) (by decide +kernel)
  · exact Plan.isConsistent_of (by decide +kernel) (by decide +kernel)
      (by decide +kernel) (by decide +kernel)
  · intro complete
    have plain : ∀ generation ∈
        (Sample.world [Sample.repeating]).resolver.tracked,
        generation.IsPlain ⟨"system.bundle", BootDelegation.none⟩
          (Sample.world [Sample.repeating]).store := by decide +kernel
    have tracked : [Sample.generation 0 Sample.repeating] ⊆
        (Sample.world [Sample.repeating]).resolver.tracked := by
      decide +kernel
    have consistent : (Plan.of [Sample.generation 0 Sample.repeating]
        []).IsConsistent (Plan.of [Sample.generation 0 Sample.repeating]
          []).maySee Generation.serves :=
      Plan.isConsistent_of (by decide +kernel) (by decide +kernel)
        (by decide +kernel) (by decide +kernel)
    exact complete (Sample.reachable_world _) rfl plain tracked
      List.mem_cons_self consistent (by decide +kernel)

end ModuleWiring
