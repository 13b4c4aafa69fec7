import ModuleWiring.Draft.Uses
import ModuleWiring.Proofs.Tables
import ModuleWiring.Resolver.Basic

/-!
# Revised generations

A revision gives generations other imports and requires and leaves them what they
are otherwise.  In a store in which all wirings speak of the revised
generations, everything is as before up to the revision.
-/

namespace ModuleWiring

/-- A generation as another is, but for what it imports and requires. -/
def Generation.Revises (revised generation : Generation) : Prop :=
  ∃ imports requires, revised = { generation with
    manifest := { generation.manifest with
      imports := imports, requires := requires } }

namespace Generation.Revises

variable {revised generation : Generation}

theorem refl (generation : Generation) : generation.Revises generation :=
  ⟨generation.manifest.imports, generation.manifest.requires, rfl⟩

theorem serial (revises : revised.Revises generation) :
    revised.serial = generation.serial := by
  obtain ⟨_, _, rfl⟩ := revises
  rfl

theorem id (revises : revised.Revises generation) :
    revised.id = generation.id := by
  obtain ⟨_, _, rfl⟩ := revises
  rfl

theorem offers (revises : revised.Revises generation) :
    revised.offers = generation.offers := by
  obtain ⟨_, _, rfl⟩ := revises
  rfl

theorem symbolicName (revises : revised.Revises generation) :
    revised.symbolicName = generation.symbolicName := by
  obtain ⟨_, _, rfl⟩ := revises
  rfl

theorem preference (revises : revised.Revises generation) :
    revised.preference = generation.preference := by
  obtain ⟨_, _, rfl⟩ := revises
  rfl

theorem isSingleton (revises : revised.Revises generation) :
    revised.isSingleton = generation.isSingleton := by
  obtain ⟨_, _, rfl⟩ := revises
  rfl

theorem isFragment (revises : revised.Revises generation) :
    revised.isFragment = generation.isFragment := by
  obtain ⟨_, _, rfl⟩ := revises
  rfl

theorem fragmentAttachment (revises : revised.Revises generation) :
    revised.manifest.fragmentAttachment =
      generation.manifest.fragmentAttachment := by
  obtain ⟨_, _, rfl⟩ := revises
  rfl

theorem accepts
    (revises : revised.Revises generation) (requirement : PackageImport)
    (declared : Export) :
    requirement.accepts declared revised =
      requirement.accepts declared generation := by
  obtain ⟨_, _, rfl⟩ := revises
  rfl

theorem provides (revises : revised.Revises generation) (require : Require) :
    Search.provides require revised = Search.provides require generation := by
  obtain ⟨_, _, rfl⟩ := revises
  rfl

theorem isHostOf
    {framework : Framework} {otherHost host : Generation}
    (revises : revised.Revises generation)
    (hostRevises : otherHost.Revises host) :
    framework.isHostOf revised otherHost =
      framework.isHostOf generation host := by
  obtain ⟨_, _, rfl⟩ := revises
  obtain ⟨_, _, rfl⟩ := hostRevises
  rfl

end Generation.Revises

/-- A change of generations in what they import and require. -/
structure Revision where
  change : Generation → Generation
  revises : ∀ generation, (change generation).Revises generation

instance : CoeFun Revision fun _ => Generation → Generation :=
  ⟨Revision.change⟩

namespace Revision

/-- The change of one generation. -/
def of (target revised : Generation) (revises : revised.Revises target) :
    Revision where
  change := fun generation =>
    if generation = target then revised else generation
  revises := by
    intro generation
    split
    · rename_i isTarget
      exact isTarget ▸ revises
    · exact .refl generation

variable (revision : Revision)

/-- The wire to the revised exporter. -/
def wire (wire : Wire) : Wire :=
  { wire with exporter := revision wire.exporter }

def requiredWire (required : RequiredWire) : RequiredWire :=
  { required with
    exporter := revision required.exporter
    wires := required.wires.map revision.wire }

def solution (solution : Solution) : Solution where
  host := revision solution.host
  fragments := solution.fragments.map revision
  wires := solution.wires.map revision.wire
  required := solution.required.map revision.requiredWire

/-- The store in which all wirings speak of the revised generations. -/
def store (store : Store) : Store :=
  { store with
    records := store.records.mapValues fun record =>
      { record with wiring := record.wiring.map revision.solution } }

def offer (offer : Offer) : Offer :=
  { offer with source := offer.source.map revision }

def provision (provision : Provision) : Provision :=
  { provision with provider := revision provision.provider }

def resolved (wired : ResolvedModule) : ResolvedModule where
  generation := revision wired.generation
  fragments := wired.fragments.map revision
  offers := wired.offers.map revision.offer
  wirings := wired.wirings.mapValues revision.wire
  required := wired.required.map revision.provision

theorem flatMap_offers (generations : List Generation) :
    (generations.map revision).flatMap Generation.offers =
      generations.flatMap Generation.offers := by
  rw [List.flatMap_map]
  congr 1
  exact funext fun generation => (revision.revises generation).offers

theorem offer_of_own {offer : Offer} (own : offer.source = none) :
    revision.offer offer = offer := by
  obtain ⟨package, declared, source⟩ := offer
  cases own
  rfl

/-- What a generation exports itself is offered as before. -/
theorem map_offer_offers (generation : Generation) :
    generation.offers.map revision.offer = generation.offers := by
  refine (List.map_congr_left fun offer member => ?_).trans (List.map_id _)
  exact revision.offer_of_own (Draft.mem_exports_of_mem_offers member).2

theorem map_offer_reexport (offers : List Offer) (visible : List Wire) :
    (reexport offers visible).map revision.offer =
      reexport (offers.map revision.offer)
        (visible.map revision.wire) := by
  unfold reexport
  induction visible generalizing offers with
  | nil => rfl
  | cons first later inductionHypothesis =>
      have offered : (offers.map revision.offer).any
          (·.package = first.package) =
            offers.any (·.package = first.package) := by
        rw [List.any_map]
        rfl
      rw [List.map_cons, List.foldl_cons, List.foldl_cons,
        inductionHypothesis]
      congr 1
      change _ = if (offers.map revision.offer).any
        (·.package = first.package) then _ else _
      rw [offered]
      split
      · rfl
      · rw [List.map_append]
        rfl

theorem ofList_map_wire (wires : List Wire) :
    Wirings.ofList (wires.map revision.wire) =
      (Wirings.ofList wires).mapValues revision.wire := by
  have folded : ∀ (rest : List Wire) (table : Wirings),
      ((rest.map revision.wire).map fun wire => (wire.package, wire)).foldl
          (fun table entry => Table.insert table entry.1 entry.2)
          (table.mapValues revision.wire) =
        ((rest.map fun wire => (wire.package, wire)).foldl
          (fun table entry => Table.insert table entry.1 entry.2)
          table).mapValues revision.wire := by
    intro rest
    induction rest with
    | nil => exact fun _ => rfl
    | cons first later inductionHypothesis =>
        intro table
        simp only [List.map_cons, List.foldl_cons]
        rw [← inductionHypothesis, Table.mapValues_insert]
        rfl
  exact folded wires ∅

/-! ## Stores -/

variable (before : Store) (generation : Generation)

theorem find?_records (serial : Nat) :
    (revision.store before).records.find? serial =
      (before.records.find? serial).map fun record =>
        { record with wiring := record.wiring.map revision.solution } :=
  Table.find?_mapValues _ _ _

theorem state_store :
    (revision.store before).state (revision generation) =
      before.state generation := by
  unfold Store.state
  rw [find?_records, (revision.revises generation).serial]
  cases before.records.find? generation.serial <;> rfl

theorem holds_store :
    (revision.store before).holds (revision generation) =
      before.holds generation := by
  unfold Store.holds Table.contains
  rw [find?_records, (revision.revises generation).serial,
    Option.isSome_map]

theorem restrict_solution (solution : Solution) :
    (revision.solution solution).restrict (revision.store before).holds =
      (solution.restrict before.holds).map revision.solution := by
  have kept : ∀ generation, (revision.store before).holds
      (revision.change generation) = before.holds generation :=
    revision.holds_store before
  have wires : ∀ wires : List Wire, (wires.map revision.wire).filter
      (fun wire => (revision.store before).holds wire.exporter) =
        (wires.filter fun wire => before.holds wire.exporter).map
          revision.wire := by
    intro wires
    rw [List.filter_map]
    congr 2
    exact funext fun wire => kept wire.exporter
  unfold Solution.restrict
  change (if (revision.store before).holds
    (revision.change solution.host) then _ else _) = _
  rw [kept]
  split
  · have fragments : (solution.fragments.map revision).filter
        (revision.store before).holds =
          (solution.fragments.filter before.holds).map revision := by
      rw [List.filter_map]
      congr 2
      exact funext kept
    have required : (solution.required.map revision.requiredWire).filter
        (fun required => (revision.store before).holds required.exporter) =
          (solution.required.filter fun required =>
            before.holds required.exporter).map revision.requiredWire := by
      rw [List.filter_map]
      congr 2
      exact funext fun required => kept required.exporter
    simp only [Revision.solution, Option.map_some, fragments, wires,
      required, List.map_map]
    congr 2
    refine List.map_congr_left fun required _ => ?_
    simp [requiredWire, wires]
  · rfl

theorem wiring?_store :
    (revision.store before).wiring? (revision generation) =
      (before.wiring? generation).map revision.solution := by
  unfold Store.wiring?
  rw [find?_records, (revision.revises generation).serial]
  cases before.records.find? generation.serial with
  | none => rfl
  | some record =>
      obtain ⟨state, wiring⟩ := record
      cases wiring with
      | none => rfl
      | some solution => exact revision.restrict_solution before solution

theorem wires_store :
    (revision.store before).wires (revision generation) =
      (before.wires generation).map revision.wire := by
  unfold Store.wires
  rw [wiring?_store]
  cases before.wiring? generation <;> rfl

theorem fragments_store :
    (revision.store before).fragments (revision generation) =
      (before.fragments generation).map revision := by
  unfold Store.fragments
  rw [wiring?_store]
  cases before.wiring? generation <;> rfl

theorem requiredWires_store :
    (revision.store before).requiredWires (revision generation) =
      (before.requiredWires generation).map revision.requiredWire := by
  unfold Store.requiredWires
  rw [wiring?_store]
  cases before.wiring? generation <;> rfl

/-- A revised generation was resolved with the revised wiring. -/
theorem resolvedModule_of_store :
    ResolvedModule.of (revision.store before) (revision generation) =
      revision.resolved (.of before generation) := by
  have reexported : ∀ (required : List RequiredWire) (offers : List Offer),
      ((required.map revision.requiredWire).foldl
        (fun offers required => reexport offers required.wires)
        (offers.map revision.offer)) =
          (required.foldl (fun offers required =>
            reexport offers required.wires) offers).map revision.offer := by
    intro required
    induction required with
    | nil => exact fun _ => rfl
    | cons first later inductionHypothesis =>
        intro offers
        rw [List.map_cons, List.foldl_cons, List.foldl_cons,
          ← inductionHypothesis, map_offer_reexport]
        rfl
  have own : (revision generation).offers ++
      ((before.fragments generation).map revision).flatMap
        Generation.offers =
          (generation.offers ++ (before.fragments generation).flatMap
            Generation.offers).map revision.offer := by
    rw [(revision.revises generation).offers, flatMap_offers,
      List.map_append, map_offer_offers, List.map_flatMap]
    simp only [map_offer_offers]
  unfold ResolvedModule.of resolved
  dsimp only
  rw [fragments_store, requiredWires_store, wires_store, own,
    List.filter_map, reexported, ofList_map_wire, List.map_map, List.map_map]
  rfl

/-! ## Resolvers -/

/-- The resolver that tracks the revised generations. -/
def resolver (resolver : Resolver) : Resolver :=
  { resolver with tracked := resolver.tracked.map revision }

theorem canonical_resolver (before : Resolver) (store : Store) :
    (revision.resolver before).canonical (revision.store store) =
      (before.canonical store).map revision := by
  have present : ∀ generation, (revision.store store).state
      (revision.change generation) = store.state generation :=
    revision.state_store store
  unfold Resolver.canonical
  change (before.tracked.map revision).filter _ = _
  rw [List.filter_map]
  congr 2
  exact funext fun generation => by simp [present]

theorem tracks_resolver (before : Resolver) (generation : Generation) :
    (revision.resolver before).tracks (revision generation) =
      before.tracks generation := by
  have found : (revision.resolver before).find? (revision generation).id =
      (before.find? generation.id).map revision := by
    unfold Resolver.find?
    change (before.tracked.map revision).find? _ = _
    rw [List.find?_map, (revision.revises generation).id]
    congr 2
    exact funext fun other => by
      simp only [Function.comp_apply, (revision.revises other).id]
  unfold Resolver.tracks
  rw [found, Option.any_map]
  congr 1
  exact funext fun other => by
    simp only [(revision.revises _).serial]

end Revision

end ModuleWiring
