import ModuleWiring.Proofs.Omission
import ModuleWiring.Proofs.Reachability

/-!
# Installing more

A resolver that tracks one more generation has one more candidate, and its
searches start with the same draft otherwise.  What could be resolved before
can still be resolved.
-/

namespace ModuleWiring

/-- The candidate that a generation is at first. -/
def Candidate.given (store : Store) (generation : Generation) : Candidate :=
  if (store.state generation).isResolved then
    .resolved (.of store generation)
  else
    .unresolved generation

theorem Candidate.generation_given (store : Store) (generation : Generation) :
    (given store generation).generation = generation := by
  unfold given
  split <;> rfl

namespace Draft

variable {store : Store} {generations : List Generation} {id : GenerationId}
  {full rest result : Draft} {generation : Generation}

/-! ## Pools with and without a bystander -/

/-- Make a generation a candidate that takes no part yet. -/
def enroll (draft : Draft) (generation : Generation) : Draft :=
  { draft.put (.given draft.store generation) with
    unused := draft.unused.insert generation.id }

theorem addCandidate_eq (draft : Draft) (generation : Generation) :
    draft.addCandidate generation =
      if (draft.store.state generation).isResolved &&
          generation.isFragment then
        .ok draft
      else
        (draft.registerSingleton generation).map (·.enroll generation) := by
  unfold addCandidate
  dsimp only
  split
  · rfl
  · cases registered : draft.registerSingleton generation with
    | error conflict => rfl
    | ok named =>
        rw [registerSingleton_eq registered]
        rfl

theorem candidate?_enroll
    (draft : Draft) (generation : Generation) (id : GenerationId) :
    (draft.enroll generation).candidate? id =
      if generation.id = id then some (.given draft.store generation)
      else draft.candidate? id := by
  have put := candidate?_put draft (.given draft.store generation) id
  unfold Candidate.id at put
  rw [Candidate.generation_given] at put
  exact put

/-- Registering gives a singleton its name, which nobody else had before. -/
theorem find?_of_registerSingleton
    (done : full.registerSingleton generation = .ok result) :
    (∀ name, result.singletons.find? name =
        if generation.isSingleton = true ∧ generation.symbolicName = name then
          some generation.id
        else full.singletons.find? name) ∧
      (generation.isSingleton = true → ∀ other,
        full.singletons.find? generation.symbolicName = some other →
          other = generation.id) := by
  unfold registerSingleton at done
  dsimp only at done
  split at done
  · rename_i isSingleton
    simp only [isSingleton, true_and, forall_const]
    split at done
    · rename_i missing
      cases done
      exact ⟨fun _ => Table.find?_insert _ _ _ _, by simp [missing]⟩
    · rename_i existing taken
      split at done
      · rename_i own
        cases done
        exact ⟨fun _ => Table.find?_insert _ _ _ _, by simp [taken, own]⟩
      · cases done
  · rename_i notSingleton
    cases done
    simp [notSingleton]

theorem Without.enroll
    (without : full.Without id rest) (different : generation.id ≠ id)
    (named : generation.isSingleton = true →
      full.singletons.find? generation.symbolicName = some generation.id) :
    (full.enroll generation).Without id (rest.enroll generation) := by
  have sameId : (Candidate.given full.store generation).id = generation.id :=
    congrArg Generation.id (Candidate.generation_given _ _)
  have given : Candidate.given rest.store generation =
      Candidate.given full.store generation :=
    congrArg (Candidate.given · generation) without.store
  have put := without.put_of_named (.given full.store generation)
    (sameId ▸ different) (by
      rw [sameId, Candidate.generation_given]
      exact named)
  unfold Draft.enroll
  rw [given]
  exact { put with
    unused := by
      have insertion : (full.unused.insert generation.id).erase id =
          (full.unused.erase id).insert generation.id := by
        refine Roster.erase_insert_of_ne ?_ full.unused
        exact different
      change rest.unused.insert generation.id = _
      rw [without.unused]
      exact insertion.symm }

/-- Who is tracked besides the bystander is a candidate with and without it. -/
theorem Without.exists_addCandidate
    (without : full.Without id rest) (different : generation.id ≠ id)
    (done : full.addCandidate generation = .ok result) :
    ∃ restResult, rest.addCandidate generation = .ok restResult ∧
      result.Without id restResult := by
  rw [addCandidate_eq] at done ⊢
  rw [without.store]
  split at done
  · rename_i noCandidate
    cases done
    exact ⟨rest, if_pos noCandidate, without⟩
  · rename_i candidateOf
    cases registered : full.registerSingleton generation with
    | error conflict =>
        rw [registered] at done
        cases done
    | ok middle =>
        rw [registered] at done
        cases done
        obtain ⟨named, _⟩ := find?_of_registerSingleton registered
        have same := registerSingleton_eq registered
        rw [same] at registered ⊢
        obtain ⟨others, restRegistered, kept⟩ :=
          without.exists_of_registerSingleton different registered
        rw [if_neg candidateOf, restRegistered]
        refine ⟨_, rfl, kept.enroll different fun isSingleton => ?_⟩
        exact (named _).trans (if_pos ⟨isSingleton, rfl⟩)

/-- The bystander itself is a candidate that the other draft does without. -/
theorem Without.addCandidate
    (without : full.Without generation.id rest)
    (done : full.addCandidate generation = .ok result) :
    result.Without generation.id rest := by
  rw [addCandidate_eq] at done
  split at done
  · cases done
    exact without
  · cases registered : full.registerSingleton generation with
    | error conflict =>
        rw [registered] at done
        cases done
    | ok middle =>
        rw [registered] at done
        cases done
        obtain ⟨named, free⟩ := find?_of_registerSingleton registered
        have sameId : (Candidate.given full.store generation).id =
            generation.id :=
          congrArg Generation.id (Candidate.generation_given _ _)
        rw [registerSingleton_eq registered]
        refine { without with
          candidates := ?_, unused := ?_, names := ?_, registered := ?_ }
        · change _ = (full.candidates.insert
            (.given full.store generation)).erase generation.id
          rw [without.candidates, ← sameId, Roster.erase_insert_self]
        · change _ = (full.unused.insert generation.id).erase generation.id
          rw [without.unused]
          exact (Roster.erase_insert_self full.unused generation.id).symm
        · intro name taken
          change middle.singletons.find? name ≠ some generation.id at taken
          change _ = middle.singletons.find? name
          rw [named] at taken ⊢
          split at taken
          · exact absurd rfl taken
          · rename_i other
            rw [if_neg other]
            exact without.names name taken
        · intro other candidate found isSingleton
          have before := without.registered found isSingleton
          change middle.singletons.find? _ = some other
          rw [named, if_neg, before]
          rintro ⟨alsoSingleton, sameName⟩
          rw [← sameName] at before
          exact without.ne_of_candidate? found
            (free alsoSingleton other before)

/-- Pools are related if each generation that one of them takes in can be left out
of the other, or be added there in another form. -/
theorem exists_pool_filterMap
    {otherStore : Store} {Related : Draft → Draft → Prop}
    {change : Generation → Option Generation}
    (none : Related (.empty store) (.empty otherStore))
    (leave : ∀ {before middle after generation}, Related before middle →
      before.addCandidate generation = .ok after →
        change generation = .none → Related after middle)
    (add : ∀ {before middle after generation changed},
      Related before middle → before.addCandidate generation = .ok after →
        change generation = some changed →
          ∃ next, middle.addCandidate changed = .ok next ∧
            Related after next)
    (done : pool store generations = .ok full) :
    ∃ rest, pool otherStore (generations.filterMap change) = .ok rest ∧
      Related full rest := by
  have folded : ∀ (items : List Generation) (before middle : Draft),
      Related before middle →
        items.foldlM Draft.addCandidate before = .ok full →
          ∃ rest, (items.filterMap change).foldlM Draft.addCandidate
            middle = .ok rest ∧ Related full rest := by
    intro items
    induction items with
    | nil =>
        intro before middle related done
        cases done
        exact ⟨middle, rfl, related⟩
    | cons first later inductionHypothesis =>
        intro before middle related done
        rw [List.foldlM_cons] at done
        cases added : before.addCandidate first with
        | error conflict =>
            rw [added] at done
            cases done
        | ok after =>
            rw [added] at done
            cases changed : change first with
            | none =>
                rw [List.filterMap_cons_none changed]
                exact inductionHypothesis after middle
                  (leave related added changed) done
            | some other =>
                obtain ⟨next, otherAdded, kept⟩ := add related added changed
                rw [List.filterMap_cons_some changed, List.foldlM_cons,
                  otherAdded]
                exact inductionHypothesis after next kept done
  exact folded generations (.empty store) (.empty otherStore) none done

/-- Without a bystander the other generations form the same pool. -/
theorem exists_pool_filter
    (id : GenerationId) (done : pool store generations = .ok full) :
    ∃ rest, pool store (generations.filter (·.id ≠ id)) = .ok rest ∧
      full.Without id rest := by
  have none : (empty store).Without id (empty store) :=
    ⟨rfl, rfl, rfl, rfl, rfl, rfl, rfl, rfl, fun _ _ => rfl,
      fun found => by cases found⟩
  rw [← List.filterMap_eq_filter]
  refine exists_pool_filterMap none ?_ ?_ done
  · intro before middle after generation without added changed
    have isBystander : generation.id = id := by
      simpa using changed
    subst isBystander
    exact without.addCandidate added
  · intro before middle after generation changed without added kept
    obtain ⟨rfl, different⟩ : generation = changed ∧ generation.id ≠ id := by
      simpa [Option.guard_eq_some_iff] using kept
    exact without.exists_addCandidate different added

/-- Who is added becomes a candidate, unless it is a fragment that belongs to its
host, and the others stay what they are. -/
theorem candidate?_of_addCandidate
    (done : full.addCandidate generation = .ok result) :
    result.store = full.store ∧
      (∀ other, generation.id ≠ other →
        result.candidate? other = full.candidate? other) ∧
      (((full.store.state generation).isResolved &&
          generation.isFragment) = false →
        result.candidate? generation.id =
          some (.given full.store generation)) := by
  rw [addCandidate_eq] at done
  split at done
  · rename_i noCandidate
    cases done
    refine ⟨rfl, fun _ _ => rfl, fun free => ?_⟩
    rw [free] at noCandidate
    cases noCandidate
  · cases registered : full.registerSingleton generation with
    | error conflict =>
        rw [registered] at done
        cases done
    | ok middle =>
        rw [registered] at done
        cases done
        rw [registerSingleton_eq registered]
        refine ⟨rfl, fun other different => ?_, fun _ => ?_⟩
        · exact (candidate?_enroll _ _ _).trans (if_neg different)
        · exact (candidate?_enroll _ _ _).trans (if_pos rfl)

/-- All are candidates of a pool but the fragments that are resolved. -/
theorem candidate?_of_pool
    (done : pool store generations = .ok full)
    (distinct : (generations.map Generation.id).Nodup)
    (member : generation ∈ generations)
    (free : ((store.state generation).isResolved &&
      generation.isFragment) = false) :
    full.candidate? generation.id = some (.given store generation) := by
  have folded : ∀ (items : List Generation) (before : Draft),
      before.store = store → (items.map Generation.id).Nodup →
        items.foldlM Draft.addCandidate before = .ok full →
          (generation ∈ items → full.candidate? generation.id =
            some (.given store generation)) ∧
          (generation.id ∉ items.map Generation.id →
            full.candidate? generation.id =
              before.candidate? generation.id) := by
    intro items
    induction items with
    | nil =>
        intro before _ _ done
        cases done
        exact ⟨fun impossible => absurd impossible List.not_mem_nil,
          fun _ => rfl⟩
    | cons first later inductionHypothesis =>
        intro before sameStore distinct done
        rw [List.map_cons, List.nodup_cons] at distinct
        rw [List.foldlM_cons] at done
        cases added : before.addCandidate first with
        | error conflict =>
            rw [added] at done
            cases done
        | ok middle =>
            rw [added] at done
            obtain ⟨middleStore, others, itself⟩ :=
              candidate?_of_addCandidate added
            obtain ⟨inLater, notInLater⟩ := inductionHypothesis middle
              (middleStore.trans sameStore) distinct.2 done
            constructor
            · intro listed
              rcases List.mem_cons.1 listed with rfl | listedLater
              · rw [notInLater distinct.1, ← sameStore]
                exact itself (sameStore ▸ free)
              · exact inLater listedLater
            · intro missing
              simp only [List.map_cons, List.mem_cons, not_or] at missing
              rw [notInLater missing.2]
              exact others _ (Ne.symm missing.1)
  exact (folded generations _ rfl distinct done).1 member

/-- The names of a pool are those of its singletons. -/
theorem exists_singleton_of_pool
    (done : pool store generations = .ok full) {name : String}
    (taken : full.singletons.find? name = some id) :
    ∃ generation ∈ generations, generation.isSingleton = true ∧
      generation.symbolicName = name := by
  refine pool_induction (fun draft => ∀ id name,
    draft.singletons.find? name = some id →
      ∃ generation ∈ generations, generation.isSingleton = true ∧
        generation.symbolicName = name) (by rintro _ _ ⟨⟩) ?_ done id name taken
  intro before after generation member holds added id name taken
  rw [addCandidate_eq] at added
  split at added
  · cases added
    exact holds id name taken
  · cases registered : before.registerSingleton generation with
    | error conflict =>
        rw [registered] at added
        cases added
    | ok middle =>
        rw [registered] at added
        cases added
        change middle.singletons.find? name = some id at taken
        rw [(find?_of_registerSingleton registered).1] at taken
        split at taken
        · rename_i own
          exact ⟨generation, member, own⟩
        · exact holds id name taken

/-- A newcomer can be added to a pool if no singleton has its name. -/
theorem exists_pool_append
    (done : pool store generations = .ok rest)
    (free : generation.isSingleton = true → ∀ other ∈ generations,
      other.isSingleton = true →
        other.symbolicName ≠ generation.symbolicName) :
    ∃ full, pool store (generations ++ [generation]) = .ok full := by
  have registers : ∃ named, rest.registerSingleton generation = .ok named := by
    unfold registerSingleton
    dsimp only
    split
    · rename_i isSingleton
      cases taken : rest.singletons.find? generation.symbolicName with
      | none => exact ⟨_, rfl⟩
      | some id =>
          obtain ⟨other, member, otherSingleton, sameName⟩ :=
            exists_singleton_of_pool done taken
          exact absurd sameName (free isSingleton other member otherSingleton)
    · exact ⟨rest, rfl⟩
  obtain ⟨named, registered⟩ := registers
  have last : ∃ full, rest.addCandidate generation = .ok full := by
    rw [addCandidate_eq]
    split
    · exact ⟨rest, rfl⟩
    · rw [registered]
      exact ⟨_, rfl⟩
  obtain ⟨full, added⟩ := last
  refine ⟨full, ?_⟩
  unfold pool at done ⊢
  rw [List.foldlM_append, done]
  simp only [bind, Except.bind, List.foldlM_cons, List.foldlM_nil, added]
  rfl

/-- The target begins to be decided in both drafts. -/
theorem Without.exists_initial
    {others : List Generation} {target : Generation}
    (without : full.Without id rest)
    (pooled : pool store generations = .ok full)
    (restPooled : pool store others = .ok rest)
    (found : rest.candidate? target.id = some (.unresolved target)) :
    ∃ start restStart,
      initial store generations target = .ok start ∧
        initial store others target = .ok restStart ∧
          start.Without id restStart := by
  obtain ⟨names, taken, registered, restRegistered, kept⟩ :=
    without.exists_registerSingleton found rfl
  unfold initial
  simp only [pooled, restPooled, bind, Except.bind, registered,
    restRegistered]
  split
  · refine ⟨_, _, rfl, rfl, ?_⟩
    have put := kept.put (.unresolved target) found rfl
    exact { put with
      resolving := rfl
      unused := by
        change rest.unused.erase target.id = _
        rw [without.unused]
        exact Roster.erase_comm _ _ _ }
  · refine ⟨_, _, rfl, rfl, ?_⟩
    have put := (kept.put (.bound (.of target)) found rfl).use target.id
    exact { put with resolving := rfl }

end Draft

namespace Resolver

variable {resolver larger : Resolver} {store : Store}
  {target bystander : Generation}

/-! ## Resolvers with and without a bystander -/

/-- A resolver that tracks all that another one tracks, up to one identity. -/
structure Without (id : GenerationId) (larger resolver : Resolver) : Prop where
  framework : resolver.framework = larger.framework
  policy : resolver.policy = larger.policy
  tracked : resolver.tracked = larger.tracked.filter (·.id ≠ id)
  exporters : ∀ package other, other ≠ id →
    (resolver.index.exporters package).contains other =
      (larger.index.exporters package).contains other

theorem Without.search
    {id : GenerationId} (without : larger.Without id resolver)
    (framework : Framework) :
    (larger.search framework).Without id (resolver.search framework) :=
  ⟨rfl, without.policy, without.exporters⟩

theorem Without.canonical_eq
    {id : GenerationId} (without : larger.Without id resolver)
    (store : Store) :
    resolver.canonical store =
      (larger.canonical store).filter (·.id ≠ id) := by
  unfold canonical
  rw [without.tracked, List.filter_comm]

theorem Without.tracks_eq
    {id : GenerationId} (without : larger.Without id resolver)
    (different : target.id ≠ id) :
    resolver.tracks target = larger.tracks target := by
  unfold tracks find?
  rw [without.tracked, List.find?_filter]
  congr 2
  funext generation
  by_cases same : generation.id = target.id
  · simp [same, different]
  · simp [same]

theorem without_of_add
    (added : resolver.add bystander = .ok larger) :
    larger.Without bystander.id resolver := by
  obtain ⟨missing, rfl⟩ := eq_of_add added
  refine ⟨rfl, rfl, ?_, ?_⟩
  · have others : resolver.tracked.filter (·.id ≠ bystander.id) =
        resolver.tracked := by
      refine List.filter_eq_self.2 fun generation member => ?_
      have missed := List.find?_eq_none.1 missing generation member
      simpa using missed
    rw [List.filter_append, others]
    simp
  · intro package other different
    rw [Bool.eq_iff_iff, List.contains_iff_mem, List.contains_iff_mem,
      PackageIndex.mem_exporters_add]
    simp [different]

theorem without_of_remove
    (removed : larger.remove bystander = .ok resolver) :
    larger.Without bystander.id resolver := by
  rw [eq_of_remove removed]
  refine ⟨rfl, rfl, rfl, ?_⟩
  intro package other different
  rw [Bool.eq_iff_iff, List.contains_iff_mem, List.contains_iff_mem,
    PackageIndex.mem_exporters_remove]
  simp [different]

/-- The first positions of the searches for a target differ in the bystander
only. -/
theorem Without.exists_beside
    (without : larger.Without bystander.id resolver)
    (consistent : larger.IsConsistent)
    (stored : store.LeadsTo (·.id ≠ bystander.id))
    (tracked : target ∈ larger.tracked)
    (installed : store.state target = .installed)
    (bystanderTracked : bystander ∈ larger.tracked)
    (bystanderInstalled : store.state bystander = .installed)
    (different : target.id ≠ bystander.id) {full : Draft}
    (pooled : Draft.pool store (larger.canonical store) = .ok full) :
    ∃ start rest,
      Draft.initial store (larger.canonical store) target = .ok start ∧
        Draft.initial store (resolver.canonical store) target = .ok rest ∧
          Search.Beside bystander ⟨.start, start⟩ ⟨.start, rest⟩ := by
  have candidateOf : ∀ {generation : Generation},
      generation ∈ larger.tracked → store.state generation = .installed →
        full.candidate? generation.id = some (.unresolved generation) := by
    intro generation member isInstalled
    have given := Draft.candidate?_of_pool pooled
      (consistent.distinct.sublist (List.filter_sublist.map _))
      (List.mem_filter.2 ⟨member, by rw [isInstalled]; rfl⟩)
      (by rw [isInstalled]; rfl)
    rw [given]
    unfold Candidate.given
    rw [isInstalled]
    rfl
  obtain ⟨restPool, restPooled, kept⟩ :=
    Draft.exists_pool_filter bystander.id pooled
  rw [← without.canonical_eq store] at restPooled
  have found : restPool.candidate? target.id = some (.unresolved target) :=
    (kept.candidate?_eq different).trans (candidateOf tracked installed)
  obtain ⟨start, rest, begun, restBegun, keptStart⟩ :=
    kept.exists_initial pooled restPooled found
  obtain ⟨begins, _⟩ :=
    Draft.begins_of_initial (by rw [installed]; rfl) restBegun
  refine ⟨start, rest, begun, restBegun, rfl, keptStart, ⟨?_, ?_⟩,
    Search.isOrderly_of_initial begun, Search.isOrderly_of_initial restBegun,
    ?_⟩
  · rw [begins.sameStore]
    exact stored
  · intro id candidate hit
    obtain ⟨origin, given⟩ := begins.given hit
    refine Candidate.leadsTo_of_isGiven stored ?_ given
    rcases origin with listed | isTarget
    · rw [without.canonical_eq] at listed
      simpa using (List.mem_filter.1 listed).2
    · rw [isTarget]
      exact different
  · obtain ⟨middle, middlePooled, _, candidates⟩ :=
      Draft.candidate?_of_initial begun
    cases pooled.symm.trans middlePooled
    rw [candidates, if_neg different]
    exact candidateOf bystanderTracked bystanderInstalled

/-- What a search finds from the first draft is the answer. -/
theorem attempt_eq
    {framework : Framework} {start : Draft}
    (started : resolver.framework = some framework)
    (tracks : resolver.tracks target = true)
    (installed : store.state target = .installed)
    (begun : Draft.initial store (resolver.canonical store) target =
      .ok start) :
    resolver.attempt store target =
      .ofOutcome target ((resolver.search framework).run start) := by
  unfold attempt initialDraft frameworkFor Resolver.started
  simp [started, tracks, installed, begun, bind, Except.bind, pure,
    Except.pure, Except.mapError]

theorem solutions_ofOutcome
    {outcome : Outcome Draft} {answer : List Solution} :
    (Attempt.ofOutcome target outcome).solutions = .ok answer ↔
      ∃ final, outcome.found = some final ∧ final.solutions = answer := by
  unfold Attempt.ofOutcome Attempt.solutions
  cases outcome.found with
  | none => simp [Except.map]
  | some final => simp [Except.map]

/-- Where the search from the first draft finds something, there is an answer. -/
theorem exists_resolve_of_found
    {framework : Framework} {start : Draft}
    (started : resolver.framework = some framework)
    (tracks : resolver.tracks target = true)
    (installed : store.state target = .installed)
    (begun : Draft.initial store (resolver.canonical store) target =
      .ok start)
    (found : ((resolver.search framework).run start).found.isSome = true) :
    ∃ answer, resolver.resolve store target = .ok answer := by
  obtain ⟨final, reached⟩ := Option.isSome_iff_exists.1 found
  refine ⟨final.solutions, ?_⟩
  unfold resolve
  rw [attempt_eq started tracks installed begun, solutions_ofOutcome]
  exact ⟨final, reached, rfl⟩

/-- A started resolver takes in a generation whose identity is new. -/
theorem exists_add
    (started : resolver.framework.isSome = true) {newcomer : Generation}
    (fresh : ∀ other ∈ resolver.tracked, other.id ≠ newcomer.id) :
    ∃ larger, resolver.add newcomer = .ok larger := by
  have missing : resolver.find? newcomer.id = none :=
    List.find?_eq_none.2 fun other member => by simpa using fresh other member
  exact ⟨_, add_eq_ok started missing⟩

/-- A module that can be resolved can still be resolved when one more is
tracked. -/
theorem exists_answer_of_add
    {newcomer : Generation} {answer : List Solution}
    (consistent : resolver.IsConsistent) (tracked : target ∈ resolver.tracked)
    (solved : resolver.resolve store target = .ok answer)
    (added : resolver.add newcomer = .ok larger)
    (installed : store.state newcomer = .installed)
    (unknown : store.LeadsTo (·.id ≠ newcomer.id))
    (free : newcomer.isSingleton = true → ∀ other ∈ resolver.canonical store,
      other.isSingleton = true →
        other.symbolicName ≠ newcomer.symbolicName) :
    ∃ another, larger.resolve store target = .ok another := by
  obtain ⟨final, result, rfl⟩ := exists_of_solutions solved
  obtain ⟨framework, first, targetInstalled, begun, run⟩ :=
    exists_run_of_attempt result
  have without := without_of_add added
  obtain ⟨missing, same⟩ := eq_of_add added
  have different : target.id ≠ newcomer.id := by
    have missed := List.find?_eq_none.1 missing target tracked
    simpa using missed
  have canonical : larger.canonical store =
      resolver.canonical store ++ [newcomer] := by
    unfold canonical
    rw [same, List.filter_append]
    simp [installed]
  have pooled : ∃ full,
      Draft.pool store (larger.canonical store) = .ok full := by
    obtain ⟨middle, middlePooled, _⟩ := Draft.exists_of_initial begun
    rw [canonical]
    exact Draft.exists_pool_append middlePooled free
  obtain ⟨full, pooled⟩ := pooled
  have largerTracked : target ∈ larger.tracked ∧
      newcomer ∈ larger.tracked := by
    rw [same]
    exact ⟨List.mem_append_left _ tracked,
      List.mem_append_right _ List.mem_cons_self⟩
  obtain ⟨start, rest, largerBegun, restBegun, beside⟩ :=
    without.exists_beside (consistent.add added) unknown largerTracked.1
      targetInstalled largerTracked.2 installed different pooled
  have tracks := run.tracks
  have started := run.started
  unfold resolve at solved
  rw [attempt_eq started tracks targetInstalled restBegun,
    solutions_ofOutcome] at solved
  obtain ⟨found, reached, _⟩ := solved
  refine exists_resolve_of_found (without.framework ▸ started)
    ((without.tracks_eq different).symm.trans tracks) targetInstalled
    largerBegun
      ((Search.prunes (without.search framework)).isSome_found beside ?_)
  rw [Search.run] at reached
  rw [reached]
  rfl

end Resolver

/-- To install and track one more module breaks none that can be resolved, if its
identity is new, no wiring speaks of it, and it is no singleton whose name is
taken. -/
theorem World.Reachable.exists_resolve_of_add
    {world : World} (reachable : world.Reachable)
    {target newcomer : Generation} {answer : List Solution}
    (made : target ∈ world.made)
    (solved : world.resolver.resolve world.store target = .ok answer)
    (installed : world.store.state newcomer = .installed)
    (fresh : ∀ other ∈ world.resolver.tracked, other.id ≠ newcomer.id)
    (unknown : ∀ generation solution,
      world.store.wiring? generation = some solution →
        ∀ other ∈ solution.mentioned, other.id ≠ newcomer.id)
    (free : newcomer.isSingleton = true → ∀ other ∈ world.resolver.tracked,
      world.store.state other ≠ .uninstalled → other.isSingleton = true →
        other.symbolicName ≠ newcomer.symbolicName) :
    ∃ larger another, world.resolver.add newcomer = .ok larger ∧
      larger.resolve world.store target = .ok another := by
  have consistent := reachable.isConsistent
  obtain ⟨final, result, _⟩ := Resolver.exists_of_solutions solved
  obtain ⟨_, _, _, _, run⟩ := Resolver.exists_run_of_attempt result
  obtain ⟨larger, added⟩ :=
    Resolver.exists_add (by rw [run.started]; rfl) fresh
  have notTaken : newcomer.isSingleton = true →
      ∀ other ∈ world.resolver.canonical world.store,
        other.isSingleton = true →
          other.symbolicName ≠ newcomer.symbolicName := by
    intro isSingleton other listed
    obtain ⟨tracked, present⟩ := List.mem_filter.1 listed
    exact free isSingleton other tracked (of_decide_eq_true present)
  obtain ⟨another, resolved⟩ := Resolver.exists_answer_of_add
    consistent.resolver (consistent.target_tracked made run.tracks) solved
    added installed (Store.leadsTo_of_wiring? fun wired => unknown _ _ wired)
    notTaken
  exact ⟨larger, another, added, resolved⟩

namespace Sample

/-- A fragment that needs what nobody offers. -/
def burden : Manifest :=
  fragment "f" "a" [] [wish "r" 1]

/-- The chain, of which all but the consumer has been resolved. -/
def halfway : World :=
  (chain relay).applying (generation 1 relay) fun _ => true

/-- The same world, in which the fragment is installed, but not tracked yet. -/
def burdened : World :=
  { halfway with
    store := (halfway.store.install (id 3) burden).2
    made := halfway.made ++ [(halfway.store.install (id 3) burden).1] }

theorem reachable_halfway : halfway.Reachable :=
  (reachable_world _).applying (by decide +kernel) _

theorem reachable_burdened : burdened.Reachable :=
  reachable_halfway.step (.install _ _ _)

end Sample

/-- The consumer is tried with the fragment first and resolved without it. -/
theorem World.burdened_still_resolves :
    ∃ larger another,
      Sample.burdened.resolver.add (Sample.generation 3 Sample.burden) =
          .ok larger ∧
        larger.resolve Sample.burdened.store
          (Sample.generation 0 Sample.consumer) = .ok another := by
  have facts : (Sample.burdened.resolver.resolve Sample.burdened.store
      (Sample.generation 0 Sample.consumer)).toOption.isSome = true := by
    decide +kernel
  obtain ⟨answer, solved⟩ := Option.isSome_iff_exists.1 facts
  exact World.Reachable.exists_resolve_of_add Sample.reachable_burdened
    (by decide +kernel) (Search.eq_ok_of_toOption solved) (by decide +kernel)
    (by decide +kernel)
    (fun _ _ wired => Store.forall_mentioned (by decide +kernel) wired)
    (by decide +kernel)

end ModuleWiring
