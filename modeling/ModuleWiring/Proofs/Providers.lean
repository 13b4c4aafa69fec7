import ModuleWiring.Proofs.Reachability

/-!
# The providers that an answer names

Each provider is another host that still exists and is tracked.  It has the
export itself or through a fragment, and no wire for the package that would take
the place of the export.
-/

namespace ModuleWiring

/-- All requires of a bound module and its fragments, decided or not. -/
def BoundModule.requested (bound : BoundModule) : List Require :=
  (bound.host :: bound.fragments).flatMap (·.manifest.requires)

namespace Draft

/-- The exporter of a wire takes part and still declares the export. -/
def Backs (draft : Draft) (wire : Wire) : Prop :=
  ∃ candidate, draft.candidate? wire.exporter.id = some candidate ∧
    candidate.generation = wire.exporter ∧
    (∀ installed, candidate ≠ .unresolved installed) ∧
    candidate.Declares wire.declared

end Draft

namespace Search

variable {search : Search} {known : Generation → Prop} {store : Store}

theorem Evolution.declares
    {draft after : Draft} {candidate later : Candidate} {declared : Export}
    (evolution : Evolution search draft after candidate later)
    (declares : candidate.Declares declared) :
    later.Declares declared := by
  obtain ⟨member, listed, exported⟩ := declares
  refine ⟨member, ?_, exported⟩
  rcases List.mem_cons.1 listed with host | fragment
  · rw [host, evolution.generation]
    exact List.mem_cons_self
  · exact List.mem_cons_of_mem _ (evolution.mem_fragments fragment)

theorem Evolution.notUnresolved
    {draft after : Draft} {candidate later : Candidate}
    (evolution : Evolution search draft after candidate later)
    (touched : ∀ installed, candidate ≠ .unresolved installed)
    (installed : Generation) : later ≠ .unresolved installed := by
  cases evolution with
  | keep => exact touched installed
  | opening _ _ _ _ _ => simp
  | deciding _ => simp

/-- No decision takes the export of a wire from an exporter that takes part. -/
theorem backs_of_decision
    {node result : Node} {wire : Wire} (scheduled : Scheduled node)
    (decision : Decision search node result)
    (backs : node.draft.Backs wire) :
    result.draft.Backs wire := by
  obtain ⟨candidate, found, isExporter, touched, declares⟩ := backs
  obtain ⟨later, laterFound, evolution⟩ :=
    exists_later_candidate scheduled decision found
  exact ⟨later, laterFound, evolution.generation.trans isExporter,
    evolution.notUnresolved touched, evolution.declares declares⟩

/-- A wire that is chosen is backed from then on. -/
theorem Chosen.backs
    {node result : Node} {bound : BoundModule} {wire : Wire}
    (scheduled : Scheduled node) (decision : Decision search node result)
    (rooted : Everywhere (Candidate.IsRooted known) node)
    (chosen : Chosen search node.draft result.draft bound wire) :
    result.draft.Backs wire := by
  obtain ⟨requirement, _, _, offered⟩ := chosen.offered
  obtain ⟨candidate, found, isExporter, _, offer, member, own, _, declared,
    _⟩ := exists_offer_of_mem_wireChoices offered
  change offer.declared = wire.declared at declared
  have declares := ((rooted found).offers offer member own).1
  rw [declared] at declares
  obtain ⟨later, laterFound, evolution⟩ :=
    exists_later_candidate scheduled decision found
  refine ⟨later, laterFound, evolution.generation.trans isExporter, ?_,
    evolution.declares declares⟩
  rintro installed rfl
  exact chosen.engaged installed laterFound

/-- Every wire of a module that was not resolved before is backed. -/
def WiresBacked (store : Store) (node : Node) : Prop :=
  ∀ ⦃id : GenerationId⦄ ⦃bound : BoundModule⦄,
    node.draft.candidate? id = some (.bound bound) →
    (store.state bound.host).isResolved = false →
    ∀ ⦃package : String⦄ ⦃wire : Wire⦄,
      bound.wirings.find? package = some wire → node.draft.Backs wire

theorem wiresBacked_of_decision
    {node result : Node} (scheduled : Scheduled node)
    (rooted : Everywhere (Candidate.IsRooted known) node)
    (given : Everywhere (ResolvedOr store fun _ => True) node)
    (decision : Decision search node result)
    (backed : WiresBacked store node) :
    WiresBacked store result := by
  intro id bound found unresolved package wire held
  obtain ⟨earlier, old, evolution⟩ :=
    exists_evolution scheduled decision found
  have host : bound.host = earlier.generation := evolution.generation
  rw [host] at unresolved
  rcases evolution.find?_wirings held with heldBefore | new
  · cases earlier with
    | unresolved installed => cases heldBefore
    | resolved wired =>
        have wasResolved := given old
        change (store.state wired.generation).isResolved = true at wasResolved
        change (store.state wired.generation).isResolved = false at unresolved
        rw [wasResolved] at unresolved
        cases unresolved
    | bound before =>
        exact backs_of_decision scheduled decision
          (backed old unresolved heldBefore)
  · obtain ⟨before, _, _, chosen⟩ := new
    exact chosen.backs scheduled decision rooted

/-- Hosts only are resolved or bound. -/
def IsHost : Candidate → Prop
  | .unresolved _ => True
  | .resolved wired => wired.generation.isFragment = false
  | .bound bound => bound.host.isFragment = false

theorem isHost_of_evolution
    {draft after : Draft} {earlier candidate : Candidate}
    (evolution : Evolution search draft after earlier candidate)
    (isHost : IsHost earlier) : IsHost candidate := by
  cases evolution with
  | keep => exact isHost
  | @opening _ _ new _ opens taken notFragment _ _ =>
      change new.host.isFragment = false
      rw [taken.host, opens.host]
      exact notFragment
  | @deciding _ new step =>
      change new.host.isFragment = false
      rw [step.host]
      exact isHost

/-- What a bound module has been given: wires that its imports accept and bundles
that its requires ask for, from known hosts. -/
structure Served (search : Search) (known : Generation → Prop)
    (bound : BoundModule) : Prop where
  imports : bound.imports ⊆ bound.demanded
  requires : bound.requires ⊆ bound.requested
  wires : ∀ ⦃package wire⦄, bound.wirings.find? package = some wire →
    search.framework.bootDelegation.covers wire.package = false ∧
      known wire.exporter ∧ wire.exporter.isFragment = false ∧
      ∃ requirement ∈ bound.demanded,
        requirement.package = wire.package ∧
          requirement.accepts wire.declared wire.exporter = true
  required : ∀ provision ∈ bound.required,
    known provision.provider ∧
      provision.provider.id ≠ bound.host.id ∧
      provision.require ∈ bound.requested ∧
      provides provision.require provision.provider = true

theorem Served.of_fresh
    {installed : Generation} {joined : List Generation} {new : BoundModule}
    (taken : (BoundModule.of installed).TakesOn joined new) :
    Served search known new := by
  have fragments : new.fragments = joined := by
    rw [taken.fragments]
    rfl
  refine ⟨?_, ?_, ?_, ?_⟩
  · rw [BoundModule.demanded, taken.host, fragments,
      taken.imports_eq fun _ => rfl]
    exact List.Subset.refl _
  · intro require member
    rw [BoundModule.requested, taken.host, fragments]
    rcases taken.mem_requires member with own | ⟨fragment, listed, needed⟩
    · exact List.mem_flatMap.2 ⟨installed, List.mem_cons_self, own⟩
    · exact List.mem_flatMap.2
        ⟨fragment, List.mem_cons_of_mem _ listed, needed⟩
  · intro package wire found
    rw [taken.wirings] at found
    cases found
  · intro provision member
    rw [taken.required] at member
    cases member

theorem Served.deciding
    {draft after : Draft} {bound new : BoundModule}
    (served : Served search known bound)
    (everywhere : ∀ {id candidate}, draft.candidate? id = some candidate →
      known candidate.generation ∧ IsHost candidate)
    (step : Deciding search draft after bound new) :
    Served search known new := by
  cases step with
  | leaveRequire _ next _ =>
      refine ⟨served.imports, ?_, served.wires, served.required⟩
      exact fun require member =>
        served.requires (next ▸ List.mem_cons_of_mem _ member)
  | leaveImport _ next _ =>
      refine ⟨?_, served.requires, served.wires, served.required⟩
      exact fun requirement member =>
        served.imports (next ▸ List.mem_cons_of_mem _ member)
  | @provide _ _ require _ provider resolving next offered _ _ _ =>
      refine ⟨served.imports, ?_, served.wires, ?_⟩
      · exact fun require member =>
          served.requires (next ▸ List.mem_cons_of_mem _ member)
      · intro provision member
        rcases List.mem_append.1 member with old | new
        · exact served.required provision old
        · rw [List.mem_singleton.1 new]
          obtain ⟨known, other, provided⟩ := mem_requireChoices offered
          obtain ⟨candidate, found, same⟩ :=
            Option.map_eq_some_iff.1 known
          refine ⟨same ▸ (everywhere found).1, ?_,
            served.requires (next ▸ List.mem_cons_self), provided⟩
          intro equality
          obtain ⟨current, isResolving, hit⟩ :=
            Draft.exists_of_resolvingBound? resolving
          have currentId : bound.host.id = current :=
            Draft.id_of_candidate? hit
          refine other ?_
          rw [isResolving, ← currentId]
          exact congrArg some equality.symm
  | @wire _ requirement _ choice resolving next _ undelegated offered _ _ =>
      refine ⟨?_, served.requires, ?_, served.required⟩
      · exact fun requirement member =>
          served.imports (next ▸ List.mem_cons_of_mem _ member)
      · intro package wire found
        change (Table.insert bound.wirings requirement.package _).find?
          package = some wire at found
        rw [Table.find?_insert] at found
        split at found
        · cases found
          obtain ⟨candidate, hit, isExporter, grouped, _, _, _, _, _,
            accepted⟩ := exists_offer_of_mem_wireChoices offered
          obtain ⟨isKnown, isHost⟩ := everywhere hit
          have notFragment : candidate.generation.isFragment = false := by
            cases candidate with
            | unresolved installed => exact notFragment_of_group? grouped
            | resolved wired => exact isHost
            | bound binding => exact isHost
          exact ⟨undelegated, isExporter ▸ isKnown,
            isExporter ▸ notFragment, requirement,
            served.imports (next ▸ List.mem_cons_self), rfl, accepted⟩
        · exact served.wires found

/-- What is known of the candidates of a search for a wiring. -/
structure IsServed (search : Search) (store : Store)
    (known : Generation → Prop) (candidate : Candidate) : Prop where
  isKnown : known candidate.generation
  isHost : IsHost candidate
  served : ResolvedOr store (Served search known) candidate

theorem isServed_of_line
    {node final : Node} (line : search.problem.Line node final)
    (scheduled : Scheduled node)
    (initial : Everywhere (IsServed search store known) node) :
    Everywhere (IsServed search store known) final := by
  refine everywhere_of_line line scheduled initial ?_
  intro position result earlier candidate everywhere evolution holds
  refine ⟨?_, isHost_of_evolution evolution holds.isHost, ?_⟩
  · rw [evolution.generation]
    exact holds.isKnown
  · exact resolvedOr_of_evolution evolution holds.served .of_fresh
      fun step served => served.deciding
        (fun found => ⟨(everywhere found).isKnown, (everywhere found).isHost⟩)
        step

end Search

open Search

/-- When a search has finished, there is a solution for each bound module. -/
theorem Search.Scheduled.exists_solution
    {final : Draft} (scheduled : Scheduled ⟨.finished, final⟩)
    {id : GenerationId} {bound : BoundModule}
    (found : final.candidate? id = some (.bound bound)) :
    ∃ solution ∈ final.solutions, solution.host = bound.host ∧
      solution.fragments = bound.fragments := by
  have listed : bound ∈ final.settled.filterMap final.bound? := by
    refine List.mem_filterMap.2
      ⟨id, scheduled.mem_settled_of_finished found, ?_⟩
    simp [Draft.bound?, found, Candidate.bound?]
  exact ⟨_, List.mem_map_of_mem listed, rfl, rfl⟩

theorem Draft.IsPool.isHost
    {store : Store} {generations : List Generation} {draft : Draft}
    (isPool : draft.IsPool store generations)
    {id : GenerationId} {candidate : Candidate}
    (found : draft.candidate? id = some candidate) :
    IsHost candidate := by
  cases (isPool.given found).2 with
  | unresolved _ => trivial
  | resolved _ notFragment => exact notFragment
  | target _ _ => exact absurd found (isPool.untouched id _)
  | reopened _ _ => exact absurd found (isPool.untouched id _)

theorem Draft.isHost_of_initial
    {store : Store} {generations : List Generation} {target : Generation}
    {draft : Draft}
    (done : Draft.initial store generations target = .ok draft)
    {id : GenerationId} {candidate : Candidate}
    (found : draft.candidate? id = some candidate) :
    IsHost candidate := by
  obtain ⟨middle, made, _, candidates⟩ := candidate?_of_initial done
  rw [candidates] at found
  split at found
  · cases found
    unfold asTarget
    split
    · trivial
    · rename_i isBundle
      exact Bool.eq_false_iff.2 isBundle
  · exact (isPool_of_pool made).isHost found

/-- Nothing but a bundle is reopened for a bundle that alone has its identity. -/
theorem Draft.isHost_of_forDynamicImport
    {store : Store} {generations : List Generation} {host : Generation}
    {imports : List PackageImport} {draft : Draft}
    (isBundle : host.isFragment = false)
    (alone : ∀ generation ∈ generations, generation.id = host.id →
      generation = host)
    (done : Draft.forDynamicImport store generations host imports =
      .ok draft)
    {id : GenerationId} {candidate : Candidate}
    (found : draft.candidate? id = some candidate) :
    IsHost candidate := by
  obtain ⟨middle, reopened, pooled, sameId, origin, same⟩ :=
    exists_of_forDynamicImport done
  have isHost : reopened = host :=
    origin.elim (fun listed => alone reopened listed.1 sameId) (fun here => here)
  rw [same] at found
  change (middle.put _).candidate? id = some candidate at found
  rw [candidate?_put] at found
  split at found
  · cases found
    exact isHost ▸ isBundle
  · exact (isPool_of_pool pooled).isHost found

namespace Resolver

variable {resolver : Resolver} {store : Store} {target : Generation}
  {framework : Framework} {start : Node} {final : Draft}
  {known : Generation → Prop}

/-- Whatever is resolved in a run was so before. -/
theorem Run.resolvedOr_of_line
    (run : resolver.Run store target framework start final)
    {position : Node}
    (line : (resolver.search framework).problem.Line start position) :
    Everywhere (ResolvedOr store fun _ => True) position := by
  have given : Everywhere (ResolvedOr store fun _ => True) start := by
    intro id candidate found
    cases (run.begins.given found).2 with
    | unresolved _ => trivial
    | resolved wasResolved _ => exact wasResolved
    | target _ _ => exact .inr trivial
    | reopened _ _ => exact .inr trivial
  refine everywhere_of_line line run.scheduled given ?_
  intro node next earlier candidate _ evolution holds
  exact resolvedOr_of_evolution evolution holds (fun _ => trivial)
    fun _ _ => trivial

theorem Run.wiresBacked
    (run : resolver.Run store target framework start final)
    (sound : store.IsSound known) (knownTarget : known target)
    (knownTracked : ∀ generation ∈ resolver.tracked, known generation) :
    WiresBacked store ⟨.finished, final⟩ := by
  have rooted := (run.isRooted sound knownTarget knownTracked).1
  refine invariant_of_line run.line run.scheduled ?_ ?_
  · intro id bound found unresolved package wire held
    cases (run.begins.given found).2 with
    | target _ _ => cases held
    | reopened _ wasResolved =>
        change (store.state _).isResolved = false at unresolved
        exact absurd wasResolved (Bool.eq_false_iff.1 unresolved)
  · intro position result before isScheduled decision backed
    exact wiresBacked_of_decision isScheduled
      (isRooted_of_line before run.scheduled rooted)
      (run.resolvedOr_of_line before) decision backed

end Resolver

/-- A wire of a solution leads to a host that may serve it. -/
structure Wire.IsLegitimate (world : World) (delegation : BootDelegation)
    (answer : List Solution) (solution : Solution) (wire : Wire) :
    Prop where
  other : wire.exporter.id ≠ solution.host.id
  tracked : wire.exporter ∈ world.resolver.tracked
  present : world.store.state wire.exporter ≠ .uninstalled
  isHost : wire.exporter.isFragment = false
  unwired : ∀ other ∈ answer, other.host.id = wire.exporter.id →
    ∀ rival ∈ other.wires, rival.package ≠ wire.package
  declared : wire.declared ∈ wire.exporter.manifest.exports ∨
    (∃ other ∈ answer, other.host = wire.exporter ∧
      ∃ fragment ∈ other.fragments,
        wire.declared ∈ fragment.manifest.exports) ∨
    ∃ fragment ∈ world.store.fragments wire.exporter,
      wire.declared ∈ fragment.manifest.exports
  undelegated : delegation.covers wire.package = false
  wanted : ∃ requirement ∈ solution.members.flatMap Generation.imports,
    requirement.package = wire.package ∧
      requirement.accepts wire.declared wire.exporter = true

/-- A required wire of a solution leads to a host that some member asks for. -/
structure RequiredWire.IsLegitimate (world : World) (solution : Solution)
    (required : RequiredWire) : Prop where
  other : required.exporter.id ≠ solution.host.id
  tracked : required.exporter ∈ world.resolver.tracked
  present : world.store.state required.exporter ≠ .uninstalled
  isHost : required.exporter.isFragment = false
  wanted : required.require ∈
    solution.members.flatMap (·.manifest.requires)
  named : required.exporter.symbolicName = required.require.symbolicName
  included : required.require.range.includes required.exporter.version = true

namespace World

variable {world : World} {target : Generation} {framework : Framework}
  {start : Node} {final : Draft}

/-- The candidates of a run in a consistent world are tracked and still
exist. -/
theorem IsConsistent.isServed
    (consistent : world.IsConsistent) (made : target ∈ world.made)
    (installed : world.store.state target = .installed)
    {draft : Draft}
    (begun : Draft.initial world.store
      (world.resolver.canonical world.store) target = .ok draft)
    (run : world.resolver.Run world.store target framework
      ⟨.start, draft⟩ final) :
    Everywhere (IsServed (world.resolver.search framework) world.store
      (· ∈ world.resolver.canonical world.store)) ⟨.finished, final⟩ := by
  refine isServed_of_line run.line run.scheduled ?_
  intro id candidate found
  obtain ⟨origin, given⟩ := run.begins.given found
  refine ⟨?_, Draft.isHost_of_initial begun found, ?_⟩
  · rcases origin with listed | isTarget
    · exact listed
    · rw [isTarget]
      refine List.mem_filter.2
        ⟨consistent.target_tracked made run.tracks, ?_⟩
      simp [installed]
  · cases given with
    | unresolved _ => trivial
    | resolved wasResolved _ => exact wasResolved
    | target _ _ => exact .inr (.of_fresh (.nil _))
    | reopened _ wasResolved => exact .inl wasResolved

/-- No module of an answer has a wire for a package that it serves. -/
theorem unwired_of_wiresAgree
    (rooted : Everywhere (Candidate.IsRooted (· ∈ world.made))
      ⟨.finished, final⟩)
    (hosts : ∀ {id candidate}, final.candidate? id = some candidate →
      IsHost candidate)
    (agree : WiresAgree ⟨.finished, final⟩)
    {id : GenerationId} {bound : BoundModule} {wire : Wire}
    (found : final.candidate? id = some (.bound bound))
    (held : bound.wirings.find? wire.package = some wire)
    {other : Solution} (member : other ∈ final.solutions)
    (isExporter : other.host.id = wire.exporter.id)
    {rival : Wire} (listed : rival ∈ other.wires) :
    rival.package ≠ wire.package := by
  intro samePackage
  obtain ⟨module, otherFound, rfl⟩ :=
    Draft.candidate?_of_mem_solutions member
  have otherRooted := rooted otherFound
  have rivalHeld := otherRooted.keyed.find?_of_mem listed
  have notFragment : module.host.isFragment = false := hosts otherFound
  refine otherRooted.foreign notFragment rivalHeld ?_
  have sameExporter := agree otherFound found rivalHeld
    (samePackage.symm ▸ held)
  exact sameExporter.trans isExporter.symm

/-- The export behind a wire that is backed has been declared by the exporter or
by a fragment that is attached to it. -/
theorem declared_of_backs
    (run : world.resolver.Run world.store target framework start final)
    {wire : Wire} (backs : final.Backs wire) :
    wire.declared ∈ wire.exporter.manifest.exports ∨
      (∃ other ∈ final.solutions, other.host = wire.exporter ∧
        ∃ fragment ∈ other.fragments,
          wire.declared ∈ fragment.manifest.exports) ∨
      ∃ fragment ∈ world.store.fragments wire.exporter,
        wire.declared ∈ fragment.manifest.exports := by
  obtain ⟨candidate, found, isExporter, touched, member, listed, exported⟩ :=
    backs
  rw [isExporter] at listed
  rcases List.mem_cons.1 listed with own | attached
  · exact .inl (own ▸ exported)
  · right
    cases candidate with
    | unresolved installed => exact absurd rfl (touched installed)
    | resolved wired =>
        right
        change member ∈ wired.fragments at attached
        change wired.generation = wire.exporter at isExporter
        rw [eq_of_resolved run.line run.scheduled
          (fun _ _ hit => (run.begins.given hit).2) found,
          isExporter] at attached
        exact ⟨member, attached, exported⟩
    | bound module =>
        left
        obtain ⟨solution, answered, host, fragments⟩ :=
          run.finished.exists_solution found
        exact ⟨solution, answered, host.trans isExporter, member,
          fragments ▸ attached, exported⟩

theorem tracked_of_canonical
    {generation : Generation}
    (listed : generation ∈ world.resolver.canonical world.store) :
    generation ∈ world.resolver.tracked ∧
      world.store.state generation ≠ .uninstalled := by
  have kept := List.mem_filter.1 listed
  exact ⟨kept.1, by simpa using kept.2⟩

theorem required_isLegitimate
    {bound : BoundModule}
    (served : Served (world.resolver.search framework)
      (· ∈ world.resolver.canonical world.store) bound)
    {required : RequiredWire}
    (listed : required ∈ (final.solutionOf bound).required) :
    required.IsLegitimate world (final.solutionOf bound) := by
  obtain ⟨provision, member, rfl⟩ := List.mem_map.1 listed
  obtain ⟨canonical, different, wanted, provided⟩ :=
    served.required provision member
  simp only [provides, Bool.and_eq_true, Bool.not_eq_true',
    decide_eq_true_eq] at provided
  exact {
    other := different
    tracked := (tracked_of_canonical canonical).1
    present := (tracked_of_canonical canonical).2
    isHost := provided.1.1
    wanted := wanted
    named := provided.1.2
    included := provided.2 }

/-- Every provider that an answer names for a module that it resolves is
legitimate. -/
theorem Reachable.providers_legitimate
    (reachable : world.Reachable) (made : target ∈ world.made)
    {answer : List Solution}
    (solved : world.resolver.resolve world.store target = .ok answer) :
    ∃ framework, world.resolver.framework = some framework ∧
      ∀ solution ∈ answer,
        (world.store.state solution.host).isResolved = false →
        (∀ wire ∈ solution.wires, wire.IsLegitimate world
          framework.bootDelegation answer solution) ∧
        ∀ required ∈ solution.required,
          required.IsLegitimate world solution := by
  have consistent := reachable.isConsistent
  obtain ⟨final, result, rfl⟩ := Resolver.exists_of_solutions solved
  obtain ⟨framework, start, installed, begun, run⟩ :=
    Resolver.exists_run_of_attempt result
  have known : ∀ generation ∈ world.resolver.tracked,
      generation ∈ world.made :=
    fun generation member => consistent.tracked member
  have rooted := run.isRooted consistent.sound made known
  have agree := wiresAgree_of_line run.line run.scheduled
    (fun _ _ hit => (rooted.1 hit).keyed)
    run.begins.settled run.begins.queue
  have backed := run.wiresBacked consistent.sound made known
  have served := consistent.isServed made installed begun run
  refine ⟨framework, run.started, ?_⟩
  intro solution member unresolved
  obtain ⟨bound, found, rfl⟩ := Draft.candidate?_of_mem_solutions member
  have given : Served (world.resolver.search framework)
      (· ∈ world.resolver.canonical world.store) bound := by
    rcases (served found).served with wasResolved | given
    · change (world.store.state bound.host).isResolved = false at unresolved
      rw [wasResolved] at unresolved
      cases unresolved
    · exact given
  constructor
  · intro wire listed
    have held := (rooted.2 found).keyed.find?_of_mem listed
    obtain ⟨undelegated, canonical, notFragment, wanted⟩ := given.wires held
    exact {
      other := (rooted.2 found).foreign (served found).isHost held
      tracked := (tracked_of_canonical canonical).1
      present := (tracked_of_canonical canonical).2
      isHost := notFragment
      unwired := fun other answered isExporter rival rivalListed =>
        unwired_of_wiresAgree rooted.2 (fun hit => (served hit).isHost) agree
          found held answered isExporter rivalListed
      declared := declared_of_backs run (backed found unresolved held)
      undelegated := undelegated
      wanted := wanted }
  · exact fun required listed => required_isLegitimate given listed

end World

namespace Sample

/-- A bundle that imports a package. -/
def importer : Manifest :=
  bundle "a" [] [wish "p" 1]

/-- A bundle that exports it. -/
def exporter : Manifest :=
  bundle "y" [offer "p" 1] []

/-- The world of the two. -/
def pair : World :=
  world [importer, exporter]

end Sample

/-- The importer of a package is wired to its exporter, legitimately. -/
theorem World.pair_providers_legitimate :
    ∃ answer, ∃ solution ∈ answer, ∃ wire ∈ solution.wires,
      Sample.pair.resolver.resolve Sample.pair.store
          (Sample.generation 0 Sample.importer) = .ok answer ∧
        wire.exporter = Sample.generation 1 Sample.exporter ∧
        wire.IsLegitimate Sample.pair BootDelegation.none answer
          solution := by
  have solved : Sample.pair.resolver.resolve Sample.pair.store
      (Sample.generation 0 Sample.importer) =
        .ok [
          ⟨Sample.generation 0 Sample.importer, [],
            [⟨"p", Sample.offer "p" 1,
              Sample.generation 1 Sample.exporter⟩], []⟩,
          ⟨Sample.generation 1 Sample.exporter, [], [], []⟩] :=
    Search.eq_ok_of_toOption (by decide +kernel)
  have made : Sample.generation 0 Sample.importer ∈ Sample.pair.made := by
    decide +kernel
  obtain ⟨framework, started, legitimate⟩ :=
    World.Reachable.providers_legitimate (Sample.reachable_world _) made
      solved
  cases started
  exact ⟨_, _, List.mem_cons_self, _, List.mem_cons_self, solved, rfl,
    (legitimate _ List.mem_cons_self (by decide +kernel)).1 _
      List.mem_cons_self⟩

end ModuleWiring
