import ModuleWiring.Proofs.Application
import ModuleWiring.Proofs.Inquiry
import ModuleWiring.Proofs.Partition
import ModuleWiring.Proofs.Requires

/-!
# Wirings that persist

A search binds a resolved module again only if the target joins it as a fragment
or is itself given more wires.  The wiring is extended then: whatever the module
has comes first in its solution, in the same order.
-/

namespace ModuleWiring

open Search

/-! ## Modules that extend a wiring -/

/-- A bound module begins with the fragments, wires and provisions that a resolved
one has. -/
structure BoundModule.Extends (wired : ResolvedModule) (bound : BoundModule) :
    Prop where
  fragments : wired.fragments <+: bound.fragments
  wires : wired.wirings.values <+: bound.wirings.values
  required : wired.required <+: bound.required

namespace BoundModule.Extends

variable {wired : ResolvedModule} {bound new : BoundModule}

theorem takesOn
    {joined : List Generation} (kept : bound.Extends wired)
    (taken : bound.TakesOn joined new) : new.Extends wired := by
  refine ⟨?_, ?_, ?_⟩
  · rw [taken.fragments]
    exact kept.fragments.trans (List.prefix_append _ _)
  · rw [taken.wirings]
    exact kept.wires
  · rw [taken.required]
    exact kept.required

theorem deciding
    {search : Search} {draft after : Draft} (kept : bound.Extends wired)
    (step : Deciding search draft after bound new) : new.Extends wired := by
  cases step with
  | leaveRequire _ _ _ => exact ⟨kept.fragments, kept.wires, kept.required⟩
  | provide _ _ _ _ _ _ =>
      exact ⟨kept.fragments, kept.wires,
        kept.required.trans (List.prefix_append _ _)⟩
  | leaveImport _ _ _ => exact ⟨kept.fragments, kept.wires, kept.required⟩
  | wire _ _ unwired _ _ _ _ =>
      refine ⟨kept.fragments, kept.wires.trans ?_, kept.required⟩
      rw [Table.values_insert unwired]
      exact List.prefix_append _ _

end BoundModule.Extends

/-- Every module that a search binds extends what the store has of a resolved
one. -/
theorem Search.extends_of_line
    {search : Search} {store : Store} {node final : Node}
    (line : search.problem.Line node final) (scheduled : Scheduled node)
    (given : Everywhere (Candidate.IsGiven store) node) :
    Everywhere (StoredOr store fun bound =>
      (store.state bound.host).isResolved = true →
        bound.Extends (.of store bound.host)) final := by
  refine storedOr_of_line line scheduled given ?_ ?_ ?_
  · intro installed joined new begun taken isResolved
    rw [taken.host] at isResolved ⊢
    rcases begun with unresolved | kept
    · exact absurd isResolved (Bool.eq_false_iff.1 unresolved)
    · exact (kept isResolved).takesOn taken
  · intro generation imports joined new _ taken _
    rw [taken.host]
    refine BoundModule.Extends.takesOn ⟨?_, ?_, ?_⟩ taken <;>
      exact List.prefix_rfl
  · intro draft after bound new step kept isResolved
    rw [step.host] at isResolved ⊢
    exact (kept isResolved).deciding step

/-! ## Solutions that extend a wiring -/

/-- What a required wire says apart from the packages that become visible. -/
def RequiredWire.terms (required : RequiredWire) :
    Require × Generation × Bool :=
  (required.require, required.exporter, required.reexport)

/-- The terms of the required wire that a provision becomes. -/
def Provision.terms (provision : Provision) : Require × Generation × Bool :=
  (provision.require, provision.provider, provision.require.isReexport)

theorem Draft.terms_solutionOf (draft : Draft) (bound : BoundModule) :
    (draft.solutionOf bound).required.map RequiredWire.terms =
      bound.required.map Provision.terms := by
  unfold Draft.solutionOf
  rw [List.map_map]
  rfl

theorem ResolvedModule.terms_of
    {store : Store} {generation : Generation}
    (reexports : ∀ required ∈ store.requiredWires generation,
      required.reexport = required.require.isReexport) :
    (ResolvedModule.of store generation).required.map Provision.terms =
      (store.requiredWires generation).map RequiredWire.terms := by
  unfold ResolvedModule.of
  rw [List.map_map]
  refine List.map_congr_left fun required member => ?_
  unfold RequiredWire.terms
  rw [reexports required member]
  rfl

namespace Solution

/-- A solution begins with what the store has of its host: the wires, the fragments,
and the terms of the required wires. -/
structure Extends (solution : Solution) (store : Store) : Prop where
  wires : store.wires solution.host <+: solution.wires
  fragments : store.fragments solution.host <+: solution.fragments
  required : (store.requiredWires solution.host).map RequiredWire.terms <+:
    solution.required.map RequiredWire.terms

/-- A solution has one wire for a package at most, and re-exports what its requires
say. -/
structure IsFormed (solution : Solution) : Prop where
  packages : (solution.wires.map Wire.package).Nodup
  reexports : ∀ required ∈ solution.required,
    required.reexport = required.require.isReexport

theorem IsFormed.restrict
    {solution left : Solution} {present : Generation → Bool}
    (formed : solution.IsFormed)
    (kept : solution.restrict present = some left) : left.IsFormed := by
  unfold Solution.restrict at kept
  split at kept
  · cases kept
    refine ⟨formed.packages.sublist (List.filter_sublist.map _), ?_⟩
    intro required member
    obtain ⟨before, listed, rfl⟩ := List.mem_map.1 member
    exact formed.reexports before (List.mem_filter.1 listed).1
  · cases kept

end Solution

theorem Draft.isFormed_solutionOf
    {draft : Draft} {bound : BoundModule} (keyed : bound.wirings.IsKeyed) :
    (draft.solutionOf bound).IsFormed := by
  refine ⟨keyed.nodup_packages, fun required member => ?_⟩
  obtain ⟨provision, _, rfl⟩ := List.mem_map.1 member
  rfl

namespace World

variable {world : World} {target : Generation} {framework : Framework}
  {start : Node} {final : Draft} {solution : Solution}

theorem Reachable.isFormed
    (reachable : world.Reachable) :
    ∀ solution ∈ world.answers, solution.IsFormed := by
  refine reachable.forall_answers ?_
  intro world target framework start final consistent _ made run solution
    answered
  obtain ⟨bound, found, rfl⟩ := Draft.candidate?_of_mem_solutions answered
  have rooted := (run.isRooted consistent.sound made
    fun _ tracked => consistent.tracked tracked).2
  exact Draft.isFormed_solutionOf (rooted found).keyed

/-- What the store has of a generation is what is left of a solution that has been
answered. -/
theorem Reachable.isFormed_wiring
    (reachable : world.Reachable) {generation : Generation}
    (made : generation ∈ world.made) :
    ((world.store.wires generation).map Wire.package).Nodup ∧
      ∀ required ∈ world.store.requiredWires generation,
        required.reexport = required.require.isReexport := by
  unfold Store.wires Store.requiredWires
  cases wired : world.store.wiring? generation with
  | none =>
      exact ⟨List.nodup_nil, fun _ member => absurd member List.not_mem_nil⟩
  | some left =>
      obtain ⟨solution, answered, _, kept⟩ :=
        reachable.isConsistent.exists_of_wiring? made wired
      have formed := (reachable.isFormed solution answered).restrict kept
      exact ⟨formed.packages, formed.reexports⟩

namespace Inquires

/-- A resolved host keeps its wiring at the beginning of its solution. -/
theorem extends_store
    (inquires : world.Inquires target framework start final)
    (reachable : world.Reachable)
    (answered : solution ∈ final.solutions)
    (isResolved : (world.store.state solution.host).isResolved = true) :
    solution.Extends world.store := by
  obtain ⟨bound, found, rfl⟩ := Draft.candidate?_of_mem_solutions answered
  change (world.store.state bound.host).isResolved = true at isResolved
  have made : bound.host ∈ world.made :=
    inquires.consistent.tracked (inquires.canonical_of_found found).1
  obtain ⟨distinct, reexports⟩ := reachable.isFormed_wiring made
  have kept : bound.Extends (.of world.store bound.host) :=
    Search.extends_of_line inquires.run.line inquires.run.scheduled
      (fun _ _ begun => (inquires.run.begins.given begun).2) found isResolved
  refine ⟨?_, kept.fragments, ?_⟩
  · have wires : (Wirings.ofList (world.store.wires bound.host)).values <+:
        bound.wirings.values := kept.wires
    rw [Wirings.values_ofList distinct] at wires
    exact wires
  · rw [Draft.terms_solutionOf]
    change (world.store.requiredWires bound.host).map _ <+: _
    rw [← ResolvedModule.terms_of reexports]
    exact kept.required.map Provision.terms

/-- What is bound when a search begins is in charge. -/
theorem resolving_of_bound
    (inquires : world.Inquires target framework start final)
    {id : GenerationId} {bound : BoundModule}
    (found : start.draft.candidate? id = some (.bound bound)) :
    start.draft.resolving = some id := by
  have settled := inquires.run.begins.settled
  have queue := inquires.run.begins.queue
  rcases inquires.run.scheduled.placed found with listed | current | listed
  · rw [settled] at listed
    cases listed
  · exact current
  · rw [queue] at listed
    cases listed

/-- A target that is bound when the search begins is the only resolved generation
that is ever bound. -/
theorem anchors
    (inquires : world.Inquires target framework start final)
    {bound : BoundModule} (isTarget : bound.host = target)
    (found : start.draft.candidate? target.id = some (.bound bound)) :
    Anchors world.store target target.id ⟨.finished, final⟩ := by
  refine invariant_of_line inquires.run.line inquires.run.scheduled
    ⟨⟨bound, found, isTarget ▸ List.mem_cons_self⟩, ?_⟩ ?_
  · intro other module hit _
    exact Option.some.inj ((inquires.resolving_of_bound hit).symm.trans
      (inquires.resolving_of_bound found))
  · intro position result before scheduled decision anchors
    refine anchors_of_decision scheduled decision ?_ anchors
    intro other installed hit
    have given := isGiven_of_notBound before inquires.run.scheduled
      (fun _ _ begun => (inquires.run.begins.given begun).2) hit (by simp)
    cases given with
    | unresolved unresolved => exact unresolved

theorem host_eq_of_isResolved
    (inquires : world.Inquires target framework start final)
    {bound : BoundModule} (isTarget : bound.host = target)
    (found : start.draft.candidate? target.id = some (.bound bound))
    (answered : solution ∈ final.solutions)
    (isResolved : (world.store.state solution.host).isResolved = true) :
    solution.host = target := by
  obtain ⟨module, hit, rfl⟩ := Draft.candidate?_of_mem_solutions answered
  have sameId := (inquires.anchors isTarget found).only hit isResolved
  have consistent := inquires.consistent
  exact List.inj_on_of_nodup_map consistent.resolver.distinct
    (inquires.canonical_of_found hit).1
    (consistent.target_tracked inquires.made inquires.run.tracks) sameId

end Inquires

/-- An answer is about resolved generations only where the target joins one as a
fragment, or is given more wires itself.  The solution begins with the wiring
that the generation has. -/
theorem Reachable.resolved_only_extended
    (reachable : world.Reachable) (made : target ∈ world.made) :
    (∀ answer, world.resolver.resolve world.store target = .ok answer →
      ∀ solution ∈ answer,
        (world.store.state solution.host).isResolved = true →
          target.isFragment = true ∧ target ∈ solution.fragments ∧
            solution.Extends world.store) ∧
    ∀ wanted answer,
      world.resolver.resolveDynamic world.store target wanted = .ok answer →
        ∀ solution ∈ answer,
          (world.store.state solution.host).isResolved = true →
            solution.host = target ∧ solution.Extends world.store := by
  constructor
  · intro answer solved solution answered isResolved
    obtain ⟨_, _, final, rfl, solves⟩ :=
      reachable.isConsistent.exists_solves made solved
    rcases solves.installed_or_joined answered with installed | ⟨_, joined⟩
    · rw [installed] at isResolved
      cases isResolved
    · exact ⟨solves.isFragment_of_mem_fragments answered joined, joined,
        solves.inquires.extends_store reachable answered isResolved⟩
  · intro wanted answer solved solution answered isResolved
    obtain ⟨framework, start, final, rfl, _, ⟨bound, found, isTarget, _⟩,
      inquires⟩ :=
        reachable.isConsistent.inquires_resolveDynamic made solved
    exact ⟨inquires.host_eq_of_isResolved isTarget found answered isResolved,
      inquires.extends_store reachable answered isResolved⟩

end World

namespace Sample

/-- A host with an import and a required bundle. -/
def furnished : Manifest :=
  { bundle "h" [] [wish "q" 1] with requires := [Require.of "b"] }

/-- A host that has been resolved with all that it needs and a fragment, before
another fragment and the exporter of what that needs have come. -/
def refurbished : World :=
  (((world [furnished, library, bundle "z" [offer "q" 1] [],
    fragment "f" "h" [] []]).applying
      (generation 0 furnished) fun _ => true).installing
        (id 4, needy)).installing (id 5, exporter)

theorem reachable_refurbished : refurbished.Reachable := by
  refine World.Reachable.installing ?_ (by decide +kernel)
    (by decide +kernel)
  refine World.Reachable.installing ?_ (by decide +kernel)
    (by decide +kernel)
  exact (reachable_world _).applying (by decide +kernel) _

/-- The host with the wire that a dynamic import gives it. -/
def widened : Solution where
  host := generation 0 furnished
  fragments := [generation 3 (fragment "f" "h" [] [])]
  wires :=
    [⟨"q", offer "q" 1, generation 2 (bundle "z" [offer "q" 1] [])⟩,
      ⟨"p", offer "p" 1, generation 5 exporter⟩]
  required := [⟨Require.of "b", generation 1 library, false, []⟩]

/-- The host that the other fragment has joined, with the wire that this needs. -/
def enlarged : Solution :=
  { widened with
    fragments := widened.fragments ++ [generation 4 needy] }

end Sample

/-- The fragment and the dynamic import both extend the wiring of the host. -/
theorem World.refurbished_extended :
    (Sample.refurbished.store.state Sample.enlarged.host).isResolved = true ∧
    Sample.refurbished.resolver.resolve Sample.refurbished.store
        (Sample.generation 4 Sample.needy) =
      .ok [Sample.enlarged, ⟨Sample.generation 5 Sample.exporter, [], [], []⟩] ∧
    Sample.enlarged.Extends Sample.refurbished.store ∧
    Sample.refurbished.resolver.resolveDynamic Sample.refurbished.store
        (Sample.generation 0 Sample.furnished) (Sample.wish "p" 1) =
      .ok [Sample.widened, ⟨Sample.generation 5 Sample.exporter, [], [], []⟩] ∧
    Sample.widened.Extends Sample.refurbished.store := by
  have isResolved : (Sample.refurbished.store.state
      Sample.enlarged.host).isResolved = true := by
    decide +kernel
  have solved : Sample.refurbished.resolver.resolve Sample.refurbished.store
      (Sample.generation 4 Sample.needy) =
        .ok [Sample.enlarged,
          ⟨Sample.generation 5 Sample.exporter, [], [], []⟩] :=
    Search.eq_ok_of_toOption (by decide +kernel)
  have given : Sample.refurbished.resolver.resolveDynamic
      Sample.refurbished.store (Sample.generation 0 Sample.furnished)
        (Sample.wish "p" 1) =
          .ok [Sample.widened,
            ⟨Sample.generation 5 Sample.exporter, [], [], []⟩] :=
    Search.eq_ok_of_toOption (by decide +kernel)
  obtain ⟨joins, -⟩ := Sample.reachable_refurbished.resolved_only_extended
    (show Sample.generation 4 Sample.needy ∈ Sample.refurbished.made by
      decide +kernel)
  obtain ⟨-, widens⟩ := Sample.reachable_refurbished.resolved_only_extended
    (show Sample.generation 0 Sample.furnished ∈ Sample.refurbished.made by
      decide +kernel)
  exact ⟨isResolved, solved,
    (joins _ solved _ List.mem_cons_self isResolved).2.2, given,
    (widens _ _ given _ List.mem_cons_self isResolved).2⟩

end ModuleWiring
