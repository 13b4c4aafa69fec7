import ModuleWiring.Proofs.Newcomer
import ModuleWiring.Proofs.Reachability

/-!
# What the policy decides

A policy orders the choices of a search and takes none away, so that it decides
which wiring is found, and not whether there is one.  Fragments are left out: a
host takes them on one by one in the order of the policy, and it may depend on
that order whether it can.
-/

namespace ModuleWiring

namespace Search

variable {search : Search} {policy : Policy} {draft : Draft} {node final : Node}

/-- The search under another policy. -/
def under (search : Search) (policy : Policy) : Search :=
  { search with policy := policy }

theorem mem_wireChoices_under
    {requirement : PackageImport} {choice : WireChoice} :
    choice ∈ (search.under policy).wireChoices draft requirement ↔
      choice ∈ search.wireChoices draft requirement := by
  simp only [wireChoices, groupChoices, List.mem_flatMap, Policy.mem_sort]
  rfl

theorem mem_requireChoices_under
    {require : Require} {provider : Generation} :
    provider ∈ (search.under policy).requireChoices draft require ↔
      provider ∈ search.requireChoices draft require := by
  simp only [requireChoices, providersAmong, List.mem_append, Policy.mem_sort]

theorem mem_hostChoices_under {fragment host : Generation} :
    host ∈ (search.under policy).hostChoices draft fragment ↔
      host ∈ search.hostChoices draft fragment := by
  simp only [hostChoices, hostsAmong, List.mem_flatMap, Policy.mem_sort]
  rfl

/-- No host has fragments to choose from where none waits for a host. -/
theorem fragmentChoices_eq_nil
    (hosts : ∀ ⦃id candidate⦄, draft.candidate? id = some candidate →
      candidate.MayHost)
    (host : Generation) : search.fragmentChoices draft host = [] := by
  refine List.eq_nil_iff_forall_not_mem.2 fun fragment member => ?_
  have available := isAvailable_of_mem_fragmentChoices member
  have isHost := hosts available.found fragment rfl
  rw [available.isFragment] at isHost
  cases isHost

/-- A fragment that begins may join the same hosts, and nothing can join a host
where no fragment waits. -/
theorem mem_startMoves_under
    (hosts : ∀ ⦃id candidate⦄, draft.candidate? id = some candidate →
      candidate.MayHost)
    {move : Move} :
    move ∈ ((search.under policy).startMoves draft).toList ↔
      move ∈ (search.startMoves draft).toList := by
  unfold startMoves
  cases draft.resolving with
  | none => rfl
  | some id =>
      simp only
      cases draft.candidate? id with
      | none => rfl
      | some candidate =>
          simp only
          split
          · split
            · simp [mem_hostChoices_under]
            · rfl
          · rw [fragmentChoices_eq_nil hosts, fragmentChoices_eq_nil hosts]

theorem mem_requireMoves_under {move : Move} :
    move ∈ (search.under policy).requireMoves draft ↔
      move ∈ search.requireMoves draft := by
  unfold requireMoves
  split
  · rfl
  · split
    · rfl
    · simp [mem_requireChoices_under]

theorem mem_importMoves_under {move : Move} :
    move ∈ (search.under policy).importMoves draft ↔
      move ∈ search.importMoves draft := by
  have sameFramework :
      (search.under policy).framework = search.framework := rfl
  simp only [importMoves, importChoices, sameFramework]
  split
  · rfl
  · split
    · rfl
    · split
      · rfl
      · split
        · rfl
        · simp [mem_wireChoices_under]

/-- Where no fragment waits, both policies offer the same moves. -/
theorem mem_moves_under
    (hosts : Everywhere Candidate.MayHost node) {move : Move} :
    move ∈ ((search.under policy).moves node).toList ↔
      move ∈ (search.moves node).toList := by
  obtain ⟨phase, draft⟩ := node
  cases phase with
  | start => exact mem_startMoves_under hosts
  | requires =>
      simp only [moves, Alternatives.toList_ofList]
      exact mem_requireMoves_under
  | imports =>
      simp only [moves, Alternatives.toList_ofList]
      exact mem_importMoves_under
  | finished => rfl

/-- Where no fragment waits, none ever does. -/
theorem mayHost_of_line
    (line : search.problem.Line node final) (scheduled : Scheduled node)
    (hosts : Everywhere Candidate.MayHost node) :
    Everywhere Candidate.MayHost final := by
  refine everywhere_of_line line scheduled hosts ?_
  intro position result earlier candidate _ evolution mayHost installed same
  cases evolution with
  | keep => exact mayHost installed same
  | opening _ _ _ _ _ => cases same
  | deciding _ => cases same

/-- A line of play can be played under every policy. -/
theorem line_under
    (line : search.problem.Line node final) (scheduled : Scheduled node)
    (hosts : Everywhere Candidate.MayHost node) (policy : Policy) :
    (search.under policy).problem.Line node final := by
  induction line with
  | refl => exact .refl
  | tail before step inductionHypothesis =>
      obtain ⟨move, member, played⟩ := step
      have hostsThen := mayHost_of_line before scheduled hosts
      exact inductionHypothesis.tail
        ⟨move, (mem_moves_under hostsThen).2 member, played⟩

end Search

namespace Resolver

variable {resolver : Resolver} {store : Store} {target : Generation}

/-- The resolver under another policy. -/
def under (resolver : Resolver) (policy : Policy) : Resolver :=
  { resolver with policy := policy }

/-- No installed fragment is tracked. -/
def LacksFragments (resolver : Resolver) (store : Store) : Prop :=
  ∀ generation ∈ resolver.tracked,
    store.state generation = .installed → generation.isFragment = false

theorem LacksFragments.under
    (lacks : resolver.LacksFragments store) (policy : Policy) :
    (resolver.under policy).LacksFragments store :=
  lacks

/-- What is tracked and still exists is installed unless it is resolved. -/
theorem installed_of_mem_canonical
    {generation : Generation}
    (member : generation ∈ resolver.canonical store)
    (unresolved : (store.state generation).isResolved = false) :
    store.state generation = .installed := by
  have present := (List.mem_filter.1 member).2
  cases state : store.state generation with
  | installed => rfl
  | uninstalled => simp [state] at present
  | resolved | starting | active | stopping =>
      rw [state] at unresolved
      cases unresolved

/-- No fragment waits in a first draft if no installed one is tracked. -/
theorem LacksFragments.mayHost
    {draft : Draft} (lacks : resolver.LacksFragments store)
    (tracked : target ∈ resolver.tracked)
    (installed : store.state target = .installed)
    (begins : draft.Begins store (resolver.canonical store) target) :
    Search.Everywhere Candidate.MayHost ⟨.start, draft⟩ := by
  rintro id candidate found generation rfl
  obtain ⟨listed | same, given⟩ := begins.given found
  · cases given with
    | unresolved unresolved =>
        exact lacks generation (List.mem_filter.1 listed).1
          (installed_of_mem_canonical listed unresolved)
  · change generation = target at same
    rw [same]
    exact lacks target tracked installed

/-- What can be resolved can be resolved under every policy. -/
theorem exists_resolve_under
    {answer : List Solution} (lacks : resolver.LacksFragments store)
    (known : resolver.tracks target = true → target ∈ resolver.tracked)
    (solved : resolver.resolve store target = .ok answer) (policy : Policy) :
    ∃ other, (resolver.under policy).resolve store target = .ok other := by
  obtain ⟨final, result, rfl⟩ := exists_of_solutions solved
  obtain ⟨framework, start, installed, begun, run⟩ :=
    exists_run_of_attempt result
  have hosts := lacks.mayHost (known run.tracks) installed run.begins
  have line := Search.line_under run.line run.scheduled hosts policy
  have reached : Search.goal? ⟨.finished, final⟩ = some final := rfl
  exact @exists_resolve_of_found (resolver.under policy) _ _ _ _
    run.started run.tracks installed begun
      (Problem.isSome_found_of_line line reached)

end Resolver

/-- Where no installed fragment is tracked, a module can be resolved under one
policy exactly if it can be resolved under the other. -/
theorem World.Reachable.resolve_under_iff
    {world : World} (reachable : world.Reachable) {target : Generation}
    (made : target ∈ world.made)
    (lacks : world.resolver.LacksFragments world.store) :
    (∃ answer, (world.resolver.under ⟨true⟩).resolve world.store target =
        .ok answer) ↔
      ∃ answer, (world.resolver.under ⟨false⟩).resolve world.store target =
        .ok answer := by
  have known := reachable.isConsistent.target_tracked made
  constructor
  · rintro ⟨answer, solved⟩
    exact Resolver.exists_resolve_under (lacks.under ⟨true⟩) known solved
      ⟨false⟩
  · rintro ⟨answer, solved⟩
    exact Resolver.exists_resolve_under (lacks.under ⟨false⟩) known solved
      ⟨true⟩

namespace Sample

/-- A bundle that may be wired to either of two exporters. -/
def choosy : Manifest :=
  bundle "a" [] [Import.of ["p"]]

/-- The world of such a bundle and the exporters. -/
def offered : World :=
  world [choosy, bundle "x" [offer "p" 1] [], bundle "y" [offer "p" 2] []]

end Sample

/-- Both policies find a wiring there, and they find different ones. -/
theorem World.offered_resolved_either_way :
    ∃ low high,
      (Sample.offered.resolver.under ⟨true⟩).resolve Sample.offered.store
        (Sample.generation 0 Sample.choosy) = .ok low ∧
      (Sample.offered.resolver.under ⟨false⟩).resolve Sample.offered.store
        (Sample.generation 0 Sample.choosy) = .ok high ∧ low ≠ high := by
  have made : Sample.generation 0 Sample.choosy ∈ Sample.offered.made := by
    decide +kernel
  have lacks :
      Sample.offered.resolver.LacksFragments Sample.offered.store := by
    unfold Resolver.LacksFragments
    decide +kernel
  have solved : ((Sample.offered.resolver.under ⟨true⟩).resolve
      Sample.offered.store
        (Sample.generation 0 Sample.choosy)).toOption.isSome = true := by
    decide +kernel
  have differs : (Sample.offered.resolver.under ⟨true⟩).resolve
      Sample.offered.store (Sample.generation 0 Sample.choosy) ≠
        (Sample.offered.resolver.under ⟨false⟩).resolve Sample.offered.store
          (Sample.generation 0 Sample.choosy) := by
    decide +kernel
  obtain ⟨low, found⟩ := Option.isSome_iff_exists.1 solved
  have lowest := Search.eq_ok_of_toOption found
  obtain ⟨high, highest⟩ :=
    ((Sample.reachable_world _).resolve_under_iff made lacks).1 ⟨low, lowest⟩
  refine ⟨low, high, lowest, highest, ?_⟩
  rintro rfl
  exact differs (lowest.trans highest.symm)

end ModuleWiring
