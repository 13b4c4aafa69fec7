import ModuleWiring.Proofs.Evolution
import ModuleWiring.Proofs.Failing
import ModuleWiring.Resolver.Basic

/-!
# Where a search starts

The candidates of a first draft are the generations that the resolver tracks and
that still exist, as the store knows them.  Only the target may be bound.
-/

namespace ModuleWiring

/-- What holds at first and survives every step holds of what the steps come to. -/
theorem holds_of_foldlM
    {ε α β : Type} {step : β → α → Except ε β} {items : List α}
    {first last : β} (Holds : β → Prop) (start : Holds first)
    (kept : ∀ {before after : β} {item : α}, item ∈ items → Holds before →
      step before item = .ok after → Holds after)
    (done : items.foldlM step first = .ok last) :
    Holds last := by
  induction items generalizing first with
  | nil =>
      cases done
      exact start
  | cons item rest inductionHypothesis =>
      rw [List.foldlM_cons] at done
      cases stepped : step first item with
      | error fault =>
          rw [stepped] at done
          cases done
      | ok next =>
          rw [stepped] at done
          exact inductionHypothesis (kept List.mem_cons_self start stepped)
            (fun member => kept (List.mem_cons_of_mem _ member)) done

/-- A candidate that a search can start with. -/
inductive Candidate.IsGiven (store : Store) : Candidate → Prop where
  | unresolved {installed : Generation} :
      (store.state installed).isResolved = false →
      IsGiven store (.unresolved installed)
  | resolved {generation : Generation} :
      (store.state generation).isResolved = true →
      generation.isFragment = false →
      IsGiven store (.resolved (.of store generation))
  | target {installed : Generation} :
      (store.state installed).isResolved = false →
      installed.isFragment = false →
      IsGiven store (.bound (.of installed))
  | reopened {generation : Generation} (imports : List PackageImport) :
      (store.state generation).isResolved = true →
      IsGiven store (.bound
        { BoundModule.reopen (.of store generation) with
          imports := imports })

namespace Draft

/-- A draft in which nothing is decided. -/
structure IsPool (store : Store) (generations : List Generation)
    (draft : Draft) : Prop where
  sameStore : draft.store = store
  resolving : draft.resolving = none
  settled : draft.settled = []
  queue : draft.queue = []
  given : ∀ {id candidate}, draft.candidate? id = some candidate →
    candidate.generation ∈ generations ∧ candidate.IsGiven store
  untouched : draft.IsUntouched

variable {store : Store} {generations : List Generation}

theorem eq_of_addCandidate
    {draft result : Draft} {generation : Generation}
    (done : draft.addCandidate generation = .ok result) :
    result = draft ∨
      ∃ candidate : Candidate, candidate.generation = generation ∧
        candidate.IsGiven draft.store ∧
        (∀ bound, candidate ≠ .bound bound) ∧
        result = { draft.put candidate with
          unused := draft.unused.insert generation.id
          singletons := result.singletons } := by
  unfold addCandidate at done
  dsimp only at done
  split at done
  · cases done
    exact .inl rfl
  · rename_i candidateOf
    cases registered : draft.registerSingleton generation with
    | error conflict =>
        rw [registered] at done
        cases done
    | ok middle =>
        rw [registered, registerSingleton_eq registered] at done
        right
        cases resolved : (draft.store.state generation).isResolved with
        | true =>
            have notFragment : generation.isFragment = false := by
              simpa [resolved] using candidateOf
            rw [resolved] at done
            cases done
            exact ⟨.resolved (.of draft.store generation), rfl,
              .resolved resolved notFragment, by simp, rfl⟩
        | false =>
            rw [resolved] at done
            cases done
            exact ⟨.unresolved generation, rfl, .unresolved resolved,
              by simp, rfl⟩

theorem IsPool.addCandidate
    {draft result : Draft} {generation : Generation}
    (isPool : draft.IsPool store generations)
    (member : generation ∈ generations)
    (done : draft.addCandidate generation = .ok result) :
    result.IsPool store generations := by
  rcases eq_of_addCandidate done with
    rfl | ⟨candidate, rfl, given, notBound, same⟩
  · exact isPool
  · rw [isPool.sameStore] at given
    rw [same]
    refine ⟨isPool.sameStore, isPool.resolving, isPool.settled, isPool.queue,
      ?_, ?_⟩
    · intro id other hit
      change (draft.put candidate).candidate? id = some other at hit
      rw [candidate?_put] at hit
      split at hit
      · cases hit
        exact ⟨member, given⟩
      · exact isPool.given hit
    · intro id bound hit
      change (draft.put candidate).candidate? id = some _ at hit
      rw [candidate?_put] at hit
      split at hit
      · exact notBound bound (Option.some.inj hit)
      · exact isPool.untouched id bound hit

/-- What holds of the empty draft and survives every addition holds of a pool. -/
theorem pool_induction
    (Holds : Draft → Prop) {draft : Draft}
    (empty : Holds (Draft.empty store))
    (added : ∀ {before result : Draft} {generation : Generation},
      generation ∈ generations → Holds before →
        before.addCandidate generation = .ok result → Holds result)
    (done : pool store generations = .ok draft) :
    Holds draft :=
  holds_of_foldlM Holds empty added done

theorem isPool_of_pool
    {draft : Draft} (done : pool store generations = .ok draft) :
    draft.IsPool store generations := by
  have none : ∀ id candidate,
      (Draft.empty store).candidate? id ≠ some candidate := by
    intro id candidate hit
    cases hit
  have empty : (Draft.empty store).IsPool store generations :=
    ⟨rfl, rfl, rfl, rfl, fun hit => absurd hit (none _ _),
      fun _ _ => none _ _⟩
  exact pool_induction (·.IsPool store generations) empty
    (fun member isPool addition => isPool.addCandidate member addition) done

/-- Bundles of distinct identities that are neither resolved nor singletons can
all be put into a pool. -/
theorem exists_pool
    (plain : ∀ generation ∈ generations,
      (store.state generation).isResolved = false ∧
        generation.isSingleton = false)
    (distinct : (generations.map Generation.id).Nodup) :
    ∃ draft, pool store generations = .ok draft ∧
      ∀ generation ∈ generations,
        draft.candidate? generation.id = some (.unresolved generation) ∧
          draft.unused.contains generation.id = true := by
  have folded : ∀ (rest : List Generation) (before : Draft),
      before.store = store →
        (∀ generation ∈ rest,
          (store.state generation).isResolved = false ∧
            generation.isSingleton = false) →
        (rest.map Generation.id).Nodup →
          ∃ draft, rest.foldlM Draft.addCandidate before = .ok draft ∧
            (∀ generation ∈ rest,
              draft.candidate? generation.id =
                  some (.unresolved generation) ∧
                draft.unused.contains generation.id = true) ∧
            ∀ id ∉ rest.map Generation.id,
              draft.candidate? id = before.candidate? id ∧
                draft.unused.contains id = before.unused.contains id := by
    intro rest
    induction rest with
    | nil =>
        intro before _ _ _
        exact ⟨before, rfl, by simp, fun _ _ => ⟨rfl, rfl⟩⟩
    | cons first rest inductionHypothesis =>
        intro before sameStore plain distinct
        rw [List.map_cons, List.nodup_cons] at distinct
        obtain ⟨installed, notSingleton⟩ := plain first List.mem_cons_self
        have added : before.addCandidate first =
            .ok { before.put (.unresolved first) with
              unused := before.unused.insert first.id } := by
          simp [addCandidate, sameStore, installed, registerSingleton,
            notSingleton, bind, Except.bind, pure, Except.pure, put]
        obtain ⟨draft, done, new, kept⟩ := inductionHypothesis
          { before.put (.unresolved first) with
            unused := before.unused.insert first.id } sameStore
          (fun generation member =>
            plain generation (List.mem_cons_of_mem _ member)) distinct.2
        have found : ∀ id, Draft.candidate? { before.put (.unresolved first)
            with unused := before.unused.insert first.id } id =
              if first.id = id then some (.unresolved first)
              else before.candidate? id :=
          candidate?_put before (.unresolved first)
        refine ⟨draft, ?_, ?_, ?_⟩
        · rw [List.foldlM_cons, added]
          exact done
        · intro generation member
          rcases List.mem_cons.1 member with rfl | later
          · obtain ⟨candidate, unused⟩ := kept _ distinct.1
            rw [candidate, unused, found]
            simp [Roster.contains]
          · exact new generation later
        · intro id missing
          simp only [List.map_cons, List.mem_cons, not_or] at missing
          obtain ⟨candidate, unused⟩ := kept id missing.2
          rw [candidate, unused, found, if_neg (Ne.symm missing.1)]
          simp [Roster.contains, Ne.symm missing.1]
  obtain ⟨draft, done, new, _⟩ := folded generations (empty store) rfl plain
    distinct
  exact ⟨draft, done, new⟩

/-- The first draft is a pool with the target in charge. -/
theorem exists_of_initial
    {target : Generation} {draft : Draft}
    (done : initial store generations target = .ok draft) :
    ∃ middle : Draft, pool store generations = .ok middle ∧
      ((target.isFragment = true ∧
          draft = { middle.put (.unresolved target) with
            unused := middle.unused.erase target.id
            singletons := draft.singletons
            resolving := some target.id }) ∨
        (target.isFragment = false ∧
          draft = { (middle.put (.bound (.of target))).use target.id with
            singletons := draft.singletons
            resolving := some target.id })) := by
  unfold initial at done
  cases pooled : pool store generations with
  | error conflict =>
      rw [pooled] at done
      cases done
  | ok middle =>
      rw [pooled] at done
      refine ⟨middle, rfl, ?_⟩
      simp only [bind, Except.bind] at done
      cases registered : middle.registerSingleton target with
      | error conflict =>
          rw [registered] at done
          cases done
      | ok named =>
          rw [registered, registerSingleton_eq registered] at done
          cases isFragment : target.isFragment with
          | true =>
              rw [isFragment] at done
              cases done
              exact .inl ⟨rfl, rfl⟩
          | false =>
              rw [isFragment] at done
              cases done
              exact .inr ⟨rfl, rfl⟩

/-- The candidate that the target of a search is at first: a fragment waits for a
host, any other is bound at once. -/
def asTarget (target : Generation) : Candidate :=
  if target.isFragment then .unresolved target else .bound (.of target)

theorem id_asTarget (target : Generation) :
    (asTarget target).id = target.id := by
  unfold asTarget
  split <;> rfl

theorem candidate?_of_initial
    {target : Generation} {draft : Draft}
    (done : initial store generations target = .ok draft) :
    ∃ middle : Draft, pool store generations = .ok middle ∧
      draft.resolving = some target.id ∧
      ∀ id, draft.candidate? id =
        if target.id = id then some (asTarget target)
        else middle.candidate? id := by
  obtain ⟨middle, pooled, begun⟩ := exists_of_initial done
  have put : ∀ id, (middle.put (asTarget target)).candidate? id =
      if target.id = id then some (asTarget target)
      else middle.candidate? id := by
    intro id
    rw [candidate?_put, id_asTarget]
  refine ⟨middle, pooled, ?_⟩
  unfold asTarget at put ⊢
  rcases begun with ⟨isFragment, same⟩ | ⟨notFragment, same⟩
  · rw [if_pos isFragment] at put ⊢
    rw [same]
    exact ⟨rfl, put⟩
  · rw [if_neg (Bool.eq_false_iff.1 notFragment)] at put ⊢
    rw [same]
    exact ⟨rfl, put⟩

/-- The drafts that a search begins with. -/
structure Begins (store : Store) (generations : List Generation)
    (target : Generation) (draft : Draft) : Prop where
  sameStore : draft.store = store
  settled : draft.settled = []
  queue : draft.queue = []
  given : ∀ {id candidate}, draft.candidate? id = some candidate →
    (candidate.generation ∈ generations ∨ candidate.generation = target) ∧
      candidate.IsGiven store

theorem IsPool.begins_put
    {middle draft : Draft} {candidate : Candidate} {target : Generation}
    (isPool : middle.IsPool store generations)
    (isTarget : candidate.generation = target)
    (given : candidate.IsGiven store)
    (sameStore : draft.store = middle.store)
    (settled : draft.settled = middle.settled)
    (queue : draft.queue = middle.queue)
    (same : draft.candidates = middle.candidates.insert candidate) :
    draft.Begins store generations target := by
  refine ⟨sameStore.trans isPool.sameStore, settled.trans isPool.settled,
    queue.trans isPool.queue, ?_⟩
  intro id other hit
  unfold candidate? at hit
  rw [same, Roster.find?_insert] at hit
  split at hit
  · cases hit
    exact ⟨.inr isTarget, given⟩
  · obtain ⟨listed, otherGiven⟩ := isPool.given hit
    exact ⟨.inl listed, otherGiven⟩

/-- A draft with one bound module, which is in charge, is in order. -/
theorem IsPool.scheduled_of_bound
    {middle draft : Draft} {phase : Phase} {bound : BoundModule}
    (isPool : middle.IsPool store generations)
    (same : draft.candidates = middle.candidates.insert (.bound bound))
    (resolving : draft.resolving = some bound.host.id)
    (settled : draft.settled = middle.settled)
    (queue : draft.queue = middle.queue)
    (used : draft.used = middle.used.insert bound.host.id)
    (stage : Search.Stage ⟨phase, draft⟩) :
    Search.Scheduled ⟨phase, draft⟩ := by
  have onlyBound : ∀ {id : GenerationId} {other : BoundModule},
      draft.candidate? id = some (.bound other) → bound.host.id = id := by
    intro id other hit
    unfold candidate? at hit
    rw [same, Roster.find?_insert, id_bound] at hit
    split at hit
    · assumption
    · exact absurd hit (isPool.untouched id other)
  rw [isPool.settled] at settled
  rw [isPool.queue] at queue
  refine ⟨by simp [queue], by simp [settled], ?_,
    by simp [settled, queue, resolving], ?_, stage⟩
  · intro id other hit
    exact .inr (.inl (resolving.trans (congrArg some (onlyBound hit))))
  · intro id other hit
    simp [used, Roster.contains, onlyBound hit]

/-- A search for a wiring starts in order. -/
theorem scheduled_of_initial
    {target : Generation} {draft : Draft}
    (done : initial store generations target = .ok draft) :
    Search.Scheduled ⟨.start, draft⟩ := by
  obtain ⟨middle, pooled, ⟨isFragment, same⟩ | ⟨_, same⟩⟩ :=
    exists_of_initial done
  · have isPool := isPool_of_pool pooled
    rw [same]
    have untouched : IsUntouched (middle.put (.unresolved target)) := by
      intro id bound hit
      rw [candidate?_put] at hit
      split at hit
      · cases hit
      · exact isPool.untouched id bound hit
    have found : (middle.put (.unresolved target)).candidate? target.id =
        some (.unresolved target) :=
      (candidate?_put middle _ _).trans (if_pos rfl)
    exact ⟨by simp [put, isPool.queue], by simp [put, isPool.settled],
      fun hit => absurd hit (untouched _ _),
      by simp [put, isPool.settled, isPool.queue],
      fun hit => absurd hit (untouched _ _),
      .inr ⟨target, rfl, found, isFragment, untouched⟩⟩
  · have isPool := isPool_of_pool pooled
    rw [same]
    have found : (middle.put (.bound (.of target))).candidate?
        target.id = some (.bound (.of target)) :=
      (candidate?_put middle _ _).trans (if_pos rfl)
    exact isPool.scheduled_of_bound rfl rfl rfl rfl rfl
      (.inl ⟨target, rfl, found⟩)

theorem begins_of_initial
    {target : Generation} {draft : Draft}
    (installed : (store.state target).isResolved = false)
    (done : initial store generations target = .ok draft) :
    draft.Begins store generations target ∧
      Search.Scheduled ⟨.start, draft⟩ := by
  refine ⟨?_, scheduled_of_initial done⟩
  obtain ⟨middle, pooled, ⟨isFragment, same⟩ | ⟨notFragment, same⟩⟩ :=
    exists_of_initial done
  · rw [same]
    exact (isPool_of_pool pooled).begins_put rfl (.unresolved installed) rfl
      rfl rfl rfl
  · rw [same]
    exact (isPool_of_pool pooled).begins_put rfl
      (.target installed notFragment) rfl rfl rfl rfl

/-- The module that a dynamic import reopens is the host, or the generation that
is tracked under its identity. -/
theorem exists_of_forDynamicImport
    {host : Generation} {imports : List PackageImport} {draft : Draft}
    (done : forDynamicImport store generations host imports = .ok draft) :
    ∃ (middle : Draft) (reopened : Generation),
      pool store generations = .ok middle ∧ reopened.id = host.id ∧
        (reopened ∈ generations ∧
          (store.state reopened).isResolved = true ∨ reopened = host) ∧
        draft = { (middle.put (.bound { BoundModule.reopen
          (.of store reopened) with imports := imports })).use host.id with
            resolving := some host.id } := by
  unfold forDynamicImport at done
  cases pooled : pool store generations with
  | error conflict =>
      rw [pooled] at done
      cases done
  | ok middle =>
      rw [pooled] at done
      simp only [bind, Except.bind] at done
      split at done
      · rename_i wired found
        obtain ⟨listed, given⟩ := (isPool_of_pool pooled).given found
        have sameId := id_of_candidate? found
        cases given with
        | @resolved generation wasResolved _ =>
            cases done
            exact ⟨middle, generation, rfl, sameId,
              .inl ⟨listed, wasResolved⟩, rfl⟩
      · cases done
        exact ⟨middle, host, rfl, rfl, .inr rfl, rfl⟩

/-- A search for a dynamic import starts in order. -/
theorem scheduled_of_forDynamicImport
    {host : Generation} {imports : List PackageImport} {draft : Draft}
    (done : forDynamicImport store generations host imports = .ok draft) :
    Search.Scheduled ⟨.requires, draft⟩ := by
  obtain ⟨middle, reopened, pooled, sameId, _, same⟩ :=
    exists_of_forDynamicImport done
  rw [same]
  have found : (middle.put (.bound { BoundModule.reopen
      (.of store reopened) with imports := imports })).candidate? host.id =
        some (.bound { BoundModule.reopen (.of store reopened) with
          imports := imports }) :=
    (candidate?_put middle _ _).trans (if_pos sameId)
  exact (isPool_of_pool pooled).scheduled_of_bound rfl
    (congrArg some sameId.symm) rfl rfl
    (congrArg middle.used.insert sameId.symm)
    ⟨_, resolvingBound?_eq_some rfl found⟩

theorem begins_of_forDynamicImport
    {host : Generation} {imports : List PackageImport} {draft : Draft}
    (resolved : (store.state host).isResolved = true)
    (done : forDynamicImport store generations host imports = .ok draft) :
    draft.Begins store generations host ∧
      Search.Scheduled ⟨.requires, draft⟩ := by
  refine ⟨?_, scheduled_of_forDynamicImport done⟩
  obtain ⟨middle, reopened, pooled, sameId, origin, same⟩ :=
    exists_of_forDynamicImport done
  have isPool := isPool_of_pool pooled
  rw [same]
  refine ⟨isPool.sameStore, isPool.settled, isPool.queue, ?_⟩
  intro id candidate hit
  change (middle.put _).candidate? id = some candidate at hit
  rw [candidate?_put] at hit
  split at hit
  · cases hit
    rcases origin with ⟨listed, wasResolved⟩ | rfl
    · exact ⟨.inl listed, .reopened imports wasResolved⟩
    · exact ⟨.inr rfl, .reopened imports resolved⟩
  · obtain ⟨listed, given⟩ := isPool.given hit
    exact ⟨.inl listed, given⟩

end Draft

/-- A candidate that is never bound stays as it was given. -/
theorem Search.isGiven_of_notBound
    {search : Search} {node final : Node} {store : Store}
    (line : search.problem.Line node final) (scheduled : Scheduled node)
    (given : Everywhere (Candidate.IsGiven store) node)
    {id : GenerationId} {candidate : Candidate}
    (found : final.draft.candidate? id = some candidate)
    (notBound : ∀ bound, candidate ≠ .bound bound) :
    candidate.IsGiven store := by
  have everywhere : Everywhere (fun candidate =>
      (∀ bound, candidate ≠ .bound bound) → candidate.IsGiven store)
        final := by
    refine everywhere_of_line line scheduled (fun _ _ hit _ => given hit) ?_
    intro position result earlier candidate _ evolution holds notBound
    cases evolution with
    | keep => exact holds notBound
    | opening _ _ _ _ _ => exact absurd rfl (notBound _)
    | deciding _ => exact absurd rfl (notBound _)
  exact everywhere found notBound

/-- A resolved candidate stays as the store knows it. -/
theorem Search.eq_of_resolved
    {search : Search} {node final : Node} {store : Store}
    (line : search.problem.Line node final) (scheduled : Scheduled node)
    (given : Everywhere (Candidate.IsGiven store) node)
    {id : GenerationId} {wired : ResolvedModule}
    (found : final.draft.candidate? id = some (.resolved wired)) :
    wired = .of store wired.generation := by
  cases isGiven_of_notBound line scheduled given found (by simp) with
  | resolved _ _ => rfl

/-- A candidate is as a store knows it, or the search has bound it such that something
holds. -/
def Search.StoredOr (store : Store) (Holds : BoundModule → Prop) :
    Candidate → Prop
  | .unresolved installed => (store.state installed).isResolved = false
  | .resolved wired =>
      (store.state wired.generation).isResolved = true ∧
        wired = .of store wired.generation
  | .bound bound => Holds bound

/-- What holds of hosts, fresh or bound again, with the fragments that they take on,
and survives their decisions, holds of all modules that a search binds. -/
theorem Search.storedOr_of_line
    {search : Search} {node final : Node} {store : Store}
    {Holds : BoundModule → Prop}
    (line : search.problem.Line node final) (scheduled : Scheduled node)
    (given : Everywhere (Candidate.IsGiven store) node)
    (fresh : ∀ {installed joined new},
      (store.state installed).isResolved = false ∨ Holds (.of installed) →
        (BoundModule.of installed).TakesOn joined new → Holds new)
    (reopened : ∀ {generation imports joined new},
      (store.state generation).isResolved = true →
        BoundModule.TakesOn
          { BoundModule.reopen (.of store generation) with
            imports := imports } joined new →
          Holds new)
    (decided : ∀ {draft after bound new},
      Deciding search draft after bound new → Holds bound → Holds new) :
    Everywhere (StoredOr store Holds) final := by
  refine everywhere_of_line line scheduled ?_ ?_
  · intro id candidate found
    cases given found with
    | unresolved notResolved => exact notResolved
    | resolved wasResolved _ => exact ⟨wasResolved, rfl⟩
    | target notResolved _ => exact fresh (.inl notResolved) (.nil _)
    | reopened _ wasResolved => exact reopened wasResolved (.nil _)
  · intro position result earlier candidate _ evolution holds
    cases evolution with
    | keep => exact holds
    | opening opens taken _ _ _ =>
        cases opens with
        | reopen wired =>
            obtain ⟨wasResolved, same⟩ := holds
            rw [same] at taken
            exact reopened wasResolved taken
        | fresh installed => exact fresh (.inl holds) taken
        | queued installed => exact fresh (.inr holds) taken
    | deciding step => exact decided step holds

namespace Resolver

variable {resolver : Resolver} {store : Store} {target : Generation}

/-- A search of a resolver, from the first draft to the completed one. -/
structure Run (resolver : Resolver) (store : Store) (target : Generation)
    (framework : Framework) (start : Node) (final : Draft) : Prop where
  started : resolver.framework = some framework
  tracks : resolver.tracks target = true
  begins : start.draft.Begins store (resolver.canonical store) target
  scheduled : Search.Scheduled start
  line : (resolver.search framework).problem.Line start ⟨.finished, final⟩

theorem exists_of_frameworkFor
    {framework : Framework}
    (done : resolver.frameworkFor target = .ok framework) :
    resolver.framework = some framework ∧
      resolver.tracks target = true := by
  obtain ⟨current, isStarted, tracked⟩ := bind_eq_ok_iff.1 done
  unfold started at isStarted
  split at isStarted
  · cases isStarted
  · rename_i framework found
    cases isStarted
    split at tracked
    · rename_i tracks
      cases tracked
      exact ⟨found, tracks⟩
    · cases tracked

theorem exists_line_of_ofOutcome
    {search : Search} {start : Node} {final : Draft}
    (found : (Attempt.ofOutcome target
      (search.problem.explore start)).result = .ok final) :
    search.problem.Line start ⟨.finished, final⟩ := by
  unfold Attempt.ofOutcome at found
  dsimp only at found
  split at found
  · cases found
  · rename_i draft reached
    cases found
    obtain ⟨last, line, goal⟩ := Problem.exists_line_of_found reached
    obtain ⟨phase, draft⟩ := last
    cases phase with
    | finished =>
        cases goal
        exact line
    | start => cases goal
    | requires => cases goal
    | imports => cases goal

theorem Run.finished
    {framework : Framework} {start : Node} {final : Draft}
    (run : resolver.Run store target framework start final) :
    Search.Scheduled ⟨.finished, final⟩ :=
  Search.scheduled_of_line run.line run.scheduled

/-- What a started resolver makes for a target that it tracks. -/
theorem exists_of_frameworkFor_bind
    {α : Type} {make : Framework → Except ResolverError α} {made : α}
    (done : (resolver.frameworkFor target >>= make) = .ok made) :
    ∃ framework, resolver.framework = some framework ∧
      resolver.tracks target = true ∧ make framework = .ok made := by
  obtain ⟨framework, ready, rest⟩ := bind_eq_ok_iff.1 done
  obtain ⟨started, tracks⟩ := exists_of_frameworkFor ready
  exact ⟨framework, started, tracks, rest⟩

/-- A search starts from a first draft without conflicts. -/
theorem eq_ok_of_mapError_bind
    {first : Except Incompatible Draft} {framework : Framework}
    {search : Search} {draft : Draft}
    (prepared : (first.mapError ResolverError.incompatible >>= fun draft =>
      pure (resolver.search framework, draft)) = .ok (search, draft)) :
    search = resolver.search framework ∧ first = .ok draft := by
  obtain ⟨begun, without, same⟩ := bind_eq_ok_iff.1 prepared
  cases same
  exact ⟨rfl, mapError_eq_ok_iff.1 without⟩

/-- What a first draft has been made of. -/
theorem exists_of_initialDraft
    {search : Search} {draft : Draft}
    (prepared : resolver.initialDraft store target = .ok (search, draft)) :
    ∃ framework, search = resolver.search framework ∧
      resolver.framework = some framework ∧ resolver.tracks target = true ∧
      store.state target = .installed ∧
      Draft.initial store (resolver.canonical store) target = .ok draft := by
  obtain ⟨framework, started, tracks, drafted⟩ :=
    exists_of_frameworkFor_bind prepared
  split at drafted
  · cases drafted
  · rename_i installed
    obtain ⟨same, begun⟩ := eq_ok_of_mapError_bind drafted
    exact ⟨framework, same, started, tracks, by simpa using installed, begun⟩

theorem exists_of_dynamicDraft
    {wanted : Import} {search : Search} {draft : Draft}
    (prepared : resolver.dynamicDraft store target wanted =
      .ok (search, draft)) :
    ∃ framework, search = resolver.search framework ∧
      resolver.framework = some framework ∧ resolver.tracks target = true ∧
      (store.state target).isResolved = true ∧
      Draft.forDynamicImport store (resolver.canonical store) target
        (wanted.expand resolver.index) = .ok draft := by
  obtain ⟨framework, started, tracks, drafted⟩ :=
    exists_of_frameworkFor_bind prepared
  split at drafted
  · cases drafted
  · rename_i resolved
    dsimp only at drafted
    split at drafted
    · cases drafted
    · obtain ⟨same, begun⟩ := eq_ok_of_mapError_bind drafted
      exact ⟨framework, same, started, tracks, by simpa using resolved, begun⟩

/-- An attempt that succeeds is a run from the first draft for its target. -/
theorem exists_run_of_attempt
    {final : Draft}
    (found : (resolver.attempt store target).result = .ok final) :
    ∃ framework start, store.state target = .installed ∧
      Draft.initial store (resolver.canonical store) target = .ok start ∧
      resolver.Run store target framework ⟨.start, start⟩ final := by
  unfold attempt at found
  split at found
  · cases found
  · rename_i search start prepared
    have line := exists_line_of_ofOutcome found
    obtain ⟨framework, rfl, started, tracks, installed, begun⟩ :=
      exists_of_initialDraft prepared
    obtain ⟨begins, scheduled⟩ :=
      Draft.begins_of_initial (by rw [installed]; rfl) begun
    exact ⟨framework, start, installed, begun, started, tracks, begins,
      scheduled, line⟩

theorem exists_run_of_attemptDynamic
    {wanted : Import} {final : Draft}
    (found : (resolver.attemptDynamic store target wanted).result =
      .ok final) :
    ∃ framework start, (store.state target).isResolved = true ∧
      Draft.forDynamicImport store (resolver.canonical store) target
        (wanted.expand resolver.index) = .ok start ∧
      resolver.Run store target framework ⟨.requires, start⟩ final := by
  unfold attemptDynamic at found
  split at found
  · cases found
  · rename_i search start prepared
    have line := exists_line_of_ofOutcome found
    obtain ⟨framework, rfl, started, tracks, resolved, begun⟩ :=
      exists_of_dynamicDraft prepared
    obtain ⟨begins, scheduled⟩ :=
      Draft.begins_of_forDynamicImport resolved begun
    exact ⟨framework, start, resolved, begun, started, tracks, begins,
      scheduled, line⟩

theorem exists_of_solutions
    {attempt : Attempt} {answer : List Solution}
    (solved : attempt.solutions = .ok answer) :
    ∃ final, attempt.result = .ok final ∧ final.solutions = answer := by
  unfold Attempt.solutions at solved
  cases result : attempt.result with
  | error fault =>
      rw [result] at solved
      cases solved
  | ok final =>
      rw [result] at solved
      cases solved
      exact ⟨final, rfl, rfl⟩

end Resolver

end ModuleWiring
