import ModuleWiring.Proofs.Joining

/-!
# Searches that have been finished

Either call begins its search with nothing bound but the target, and gives an
answer about what the search has bound.  What holds of both is said here once:
where the fragments of a solution come from, and who can be its host.
-/

namespace ModuleWiring

open Search

/-- A list of solutions answers a request for the wiring of a target, or for more
wires of one that is resolved. -/
inductive Resolver.Answers (resolver : Resolver) (store : Store)
    (target : Generation) (answer : List Solution) : Prop where
  | resolve :
      resolver.resolve store target = .ok answer →
      Answers resolver store target answer
  | dynamic (wanted : Import) :
      resolver.resolveDynamic store target wanted = .ok answer →
      Answers resolver store target answer

/-- A reopened generation is the one that gets more wires, if that alone bears
its identity. -/
theorem Draft.hosts_of_forDynamicImport
    {store : Store} {generations : List Generation} {host : Generation}
    {imports : List PackageImport} {draft : Draft}
    (alone : ∀ generation ∈ generations, generation.id = host.id →
      generation = host)
    (done : Draft.forDynamicImport store generations host imports =
      .ok draft) :
    draft.candidate? host.id = some (.bound
        { BoundModule.reopen (.of store host) with imports := imports }) ∧
      Everywhere (IsHostOr host) ⟨.requires, draft⟩ := by
  obtain ⟨middle, reopened, pooled, sameId, origin, same⟩ :=
    exists_of_forDynamicImport done
  have isTarget : reopened = host :=
    origin.elim (fun listed => alone reopened listed.1 sameId) fun same => same
  subst isTarget
  let bound : BoundModule :=
    { BoundModule.reopen (.of store reopened) with imports := imports }
  have candidates : ∀ id, draft.candidate? id =
      if reopened.id = id then some (.bound bound)
      else middle.candidate? id := by
    rw [same]
    exact candidate?_put middle (.bound bound)
  refine ⟨(candidates _).trans (if_pos rfl), ?_⟩
  intro id candidate found
  rw [candidates] at found
  split at found
  · cases found
    rintro _ ⟨rfl⟩ _
    rfl
  · exact isHostOr_of_isHost ((isPool_of_pool pooled).isHost found) _

theorem Draft.waits_of_initial
    {store : Store} {generations : List Generation} {target : Generation}
    {draft : Draft} (installed : store.state target = .installed)
    (done : Draft.initial store generations target = .ok draft) :
    Waits store ⟨.start, draft⟩ := by
  intro id bound _ found
  cases eq_of_bound_of_initial done found
  exact congrArg State.isResolved installed

namespace World

/-- A finished search for an answer, to either call, and how it began. -/
structure Inquires (world : World) (target : Generation)
    (framework : Framework) (start : Node) (final : Draft) : Prop where
  consistent : world.IsConsistent
  made : target ∈ world.made
  placed : world.store.state target ≠ .uninstalled
  pooled : ∃ pool, Draft.pool world.store
    (world.resolver.canonical world.store) = .ok pool
  run : world.resolver.Run world.store target framework start final
  waits : Waits world.store start
  balanced : start.draft.IsBalanced world.store.carried
  hosts : Everywhere (IsHostOr target) start

variable {world : World} {target : Generation} {framework : Framework}
  {start : Node} {final : Draft}

/-- Only one tracked generation bears the identity of the target. -/
theorem IsConsistent.alone
    (consistent : world.IsConsistent) (made : target ∈ world.made)
    (tracks : world.resolver.tracks target = true) :
    ∀ generation ∈ world.resolver.canonical world.store,
      generation.id = target.id → generation = target :=
  fun _ listed same =>
    List.inj_on_of_nodup_map consistent.resolver.distinct
      (List.mem_filter.1 listed).1
      (consistent.target_tracked made tracks) same

theorem fragments_subset_carried
    (store : Store) {generation : Generation}
    (isResolved : (store.state generation).isResolved = true) :
    store.fragments generation ⊆ store.carried generation :=
  (carried_of_isResolved isResolved).symm ▸ List.Subset.refl _

/-- What a generation has been resolved with is a fragment of an answer that the
generation is a member of. -/
theorem IsConsistent.exists_of_carried
    (consistent : world.IsConsistent) {generation fragment : Generation}
    (made : generation ∈ world.made)
    (carried : fragment ∈ world.store.carried generation) :
    ∃ solution ∈ world.answers, generation ∈ solution.members ∧
      fragment ∈ solution.fragments := by
  have listed := (mem_carried_iff.1 carried).2
  unfold Store.fragments at listed
  split at listed
  · cases listed
  · rename_i left wired
    obtain ⟨solution, answered, member, kept⟩ :=
      consistent.exists_of_wiring? made wired
    exact ⟨solution, answered, member,
      (Solution.fragments_sublist_of_restrict kept).subset listed⟩

/-- A search for a wiring is a search for an answer. -/
theorem Solves.inquires
    {draft : Draft} (solves : world.Solves target framework draft final) :
    world.Inquires target framework ⟨.start, draft⟩ final := by
  have hosts : Everywhere IsHost ⟨.start, draft⟩ :=
    fun _ _ found => Draft.isHost_of_initial solves.begun found
  obtain ⟨middle, pooled, _⟩ := Draft.exists_of_initial solves.begun
  refine ⟨solves.consistent, solves.made, ?_, ⟨middle, pooled⟩, solves.run,
    Draft.waits_of_initial solves.installed solves.begun, ?_,
    fun _ _ found => isHostOr_of_isHost (hosts found) target⟩
  · rw [solves.installed]
    exact State.noConfusion
  · exact Draft.isBalanced_of_initial
      (fun _ => fragments_subset_carried world.store) solves.begun

theorem IsConsistent.inquires_resolve
    (consistent : world.IsConsistent) (made : target ∈ world.made)
    {answer : List Solution}
    (solved : world.resolver.resolve world.store target = .ok answer) :
    ∃ framework start final, final.solutions = answer ∧
      world.store.state target = .installed ∧
      Everywhere IsHost start ∧
      world.Inquires target framework start final := by
  obtain ⟨framework, draft, final, same, solves⟩ :=
    consistent.exists_solves made solved
  exact ⟨framework, _, final, same, solves.installed,
    fun _ _ found => Draft.isHost_of_initial solves.begun found,
    solves.inquires⟩

theorem IsConsistent.inquires_resolveDynamic
    (consistent : world.IsConsistent) (made : target ∈ world.made)
    {wanted : Import} {answer : List Solution}
    (solved : world.resolver.resolveDynamic world.store target wanted =
      .ok answer) :
    ∃ framework start final, final.solutions = answer ∧
      (world.store.state target).isResolved = true ∧
      (∃ bound, start.draft.candidate? target.id = some (.bound bound) ∧
        bound.host = target ∧
        bound.fragments = world.store.fragments target) ∧
      world.Inquires target framework start final := by
  obtain ⟨final, result, same⟩ := Resolver.exists_of_solutions solved
  obtain ⟨framework, draft, isResolved, begun, run⟩ :=
    Resolver.exists_run_of_attemptDynamic result
  obtain ⟨found, hosts⟩ := Draft.hosts_of_forDynamicImport
    (consistent.alone made run.tracks) begun
  obtain ⟨middle, _, pooled, _⟩ := Draft.exists_of_forDynamicImport begun
  refine ⟨framework, _, final, same, isResolved, ⟨_, found, rfl, rfl⟩,
    consistent, made, ?_, ⟨middle, pooled⟩, run, ?_, ?_, hosts⟩
  · intro uninstalled
    rw [uninstalled] at isResolved
    cases isResolved
  · intro id bound waiting _
    have queue : draft.queue = [] := run.begins.queue
    rcases waiting with queued | ⟨atStart, _⟩
    · rw [queue] at queued
      cases queued
    · cases atStart
  · refine Draft.isBalanced_of_forDynamicImport ?_ begun
    rintro generation (resolved | rfl)
    · exact fragments_subset_carried world.store resolved
    · exact fragments_subset_carried world.store isResolved

theorem IsConsistent.exists_inquires
    (consistent : world.IsConsistent) (made : target ∈ world.made)
    {answer : List Solution}
    (answers : world.resolver.Answers world.store target answer) :
    ∃ framework start final, final.solutions = answer ∧
      world.Inquires target framework start final := by
  cases answers with
  | resolve solved =>
      obtain ⟨framework, start, final, same, _, _, inquires⟩ :=
        consistent.inquires_resolve made solved
      exact ⟨framework, start, final, same, inquires⟩
  | dynamic wanted solved =>
      obtain ⟨framework, start, final, same, _, _, inquires⟩ :=
        consistent.inquires_resolveDynamic made solved
      exact ⟨framework, start, final, same, inquires⟩

namespace Inquires

variable {solution : Solution} {fragment : Generation}

theorem host_eq_target
    (inquires : world.Inquires target framework start final)
    (answered : solution ∈ final.solutions)
    (isFragment : solution.host.isFragment = true) :
    solution.host = target := by
  obtain ⟨bound, found, rfl⟩ := Draft.candidate?_of_mem_solutions answered
  have hosts : Everywhere (IsHostOr target) ⟨.finished, final⟩ :=
    everywhere_of_line inquires.run.line inquires.run.scheduled
      inquires.hosts fun _ evolution => isHostOr_of_evolution evolution
  exact hosts found bound rfl isFragment

/-- A fragment of a solution has come with the host, or the host may take it
on. -/
theorem carried_or_admits
    (inquires : world.Inquires target framework start final)
    (answered : solution ∈ final.solutions)
    (listed : fragment ∈ solution.fragments) :
    fragment ∈ world.store.carried solution.host ∨
      (world.resolver.search framework).Admits world.store solution.host
        fragment := by
  obtain ⟨bound, found, rfl⟩ := Draft.candidate?_of_mem_solutions answered
  exact stocked_of_line inquires.run.line inquires.run.scheduled
    (fun _ _ begun => (inquires.run.begins.given begun).2) inquires.waits
    found fragment listed

/-- What is bound when the search begins has a solution, which keeps its
fragments. -/
theorem exists_solution
    (inquires : world.Inquires target framework start final)
    {id : GenerationId} {bound : BoundModule}
    (found : start.draft.candidate? id = some (.bound bound)) :
    ∃ solution ∈ final.solutions, solution.host = bound.host ∧
      bound.fragments ⊆ solution.fragments := by
  have kept := @invariant_of_line _ (fun node => ∃ later,
    node.draft.candidate? id = some (.bound later) ∧
      later.host = bound.host ∧ bound.fragments ⊆ later.fragments) _ _
    inquires.run.line inquires.run.scheduled
    ⟨bound, found, rfl, List.Subset.refl _⟩ ?_
  · obtain ⟨last, here, sameHost, kept⟩ := kept
    obtain ⟨solution, member, host, fragments⟩ :=
      inquires.run.finished.exists_solution here
    exact ⟨solution, member, host.trans sameHost, fragments ▸ kept⟩
  · rintro position result _ scheduled decision ⟨later, here, same, kept⟩
    obtain ⟨candidate, hit, evolution⟩ :=
      exists_later_candidate scheduled decision here
    obtain ⟨new, rfl, host, more⟩ := evolution.exists_bound
    exact ⟨new, hit, host.trans same, List.Subset.trans kept more⟩

/-- A fragment of a solution has come with the host, or the search has attached
it to that host and no other. -/
theorem carried_or_attached
    (inquires : world.Inquires target framework start final)
    {id : GenerationId} {bound : BoundModule}
    (found : final.candidate? id = some (.bound bound))
    (listed : fragment ∈ bound.fragments) :
    fragment ∈ world.store.carried bound.host ∨
      final.hostOf? fragment.id = some id ∧
        final.candidate? fragment.id = some (.unresolved fragment) := by
  have balanced := isBalanced_of_line inquires.run.line
    inquires.run.scheduled inquires.balanced
  exact balanced.joined found fragment listed

/-- Whoever takes part in the search is tracked and not uninstalled. -/
theorem canonical_of_found
    (inquires : world.Inquires target framework start final)
    {id : GenerationId} {candidate : Candidate}
    (found : final.candidate? id = some candidate) :
    candidate.generation ∈ world.resolver.tracked ∧
      world.store.state candidate.generation ≠ .uninstalled := by
  have canonical : Everywhere (fun candidate =>
      candidate.generation ∈ world.resolver.canonical world.store ∨
        candidate.generation = target) ⟨.finished, final⟩ := by
    refine everywhere_of_line inquires.run.line inquires.run.scheduled
      (fun _ _ begun => (inquires.run.begins.given begun).1) ?_
    intro _ _ _ _ _ evolution listed
    rw [evolution.generation]
    exact listed
  rcases canonical found with listed | isTarget
  · exact tracked_of_canonical listed
  · rw [isTarget]
    exact ⟨inquires.consistent.target_tracked inquires.made
      inquires.run.tracks, inquires.placed⟩

end Inquires

end World

end ModuleWiring
