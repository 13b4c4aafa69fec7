import ModuleWiring.Draft.Visible

/-!
# Uses constraints

A module that is wired to an export must see the packages that the export uses
as the exporter sees them. `Draft.implied` follows the uses lists to the end,
and `Draft.agrees` tells whether what comes out leaves one exporter for each
package.
-/

namespace ModuleWiring

/-- A package as some generation sees it. -/
structure View where
  owner : Generation
  package : String

namespace Draft

/-- What a generation's view of a package is wired to: its wire for the package
or, where it has none, its own first offer. -/
def target? (draft : Draft) (view : View) : Option Wire :=
  match draft.candidate? view.owner.id with
  | some candidate =>
      match candidate.wirings.find? view.package with
      | some wire => some wire
      | none => (candidate.offer? view.package).map (·.toWire view.owner)
  | none =>
      match (draft.store.wires view.owner).find?
          (·.package = view.package) with
      | some wire => some wire
      | none =>
          (view.owner.offers.find? (·.package = view.package)).map
            (·.toWire view.owner)

def usedViews (wire : Wire) : List View :=
  wire.declared.uses.map fun package => ⟨wire.exporter, package⟩

def nextViews (draft : Draft) (view : View) : List View :=
  match draft.target? view with
  | none => []
  | some wire => usedViews wire

/-- Every wire and every offer of a candidate, and every wire of a solution. -/
def allWires (draft : Draft) : List Wire :=
  (draft.candidates.members.flatMap fun candidate =>
    candidate.wirings.values ++
      candidate.offers.map (·.toWire candidate.generation)) ++
  draft.store.solutions.flatMap Solution.wires

/-- The generations that views can lead to, from a wire on. -/
def owners (draft : Draft) (start : Wire) : List Generation :=
  (start :: draft.allWires).map Wire.exporter

/-- The exports that views can lead to, from a wire on. -/
def reachableExports (draft : Draft) (start : Wire) : List Export :=
  (start :: draft.allWires).map Wire.declared ++
    (draft.owners start).flatMap fun owner => owner.manifest.exports

def usedPackages (draft : Draft) (start : Wire) : List String :=
  (draft.reachableExports start).flatMap Export.uses

theorem mem_allWires_of_candidate {draft : Draft} {candidate : Candidate}
    {wire : Wire} (member : candidate ∈ draft.candidates.members)
    (wired : wire ∈ candidate.wirings.values ++
      candidate.offers.map (·.toWire candidate.generation)) :
    wire ∈ draft.allWires :=
  List.mem_append_left _ (List.mem_flatMap.2 ⟨candidate, member, wired⟩)

theorem mem_exports_of_mem_offers {generation : Generation} {offer : Offer}
    (member : offer ∈ generation.offers) :
    offer.declared ∈ generation.manifest.exports ∧ offer.source = none := by
  obtain ⟨declared, listed, made⟩ := List.mem_flatMap.1 member
  obtain ⟨package, _, rfl⟩ := List.mem_map.1 made
  exact ⟨listed, rfl⟩

theorem target?_reachable {draft : Draft} {start wire : Wire} {view : View}
    (inside : view.owner ∈ draft.owners start)
    (found : draft.target? view = some wire) :
    wire.exporter ∈ draft.owners start ∧
      wire.declared ∈ draft.reachableExports start := by
  have listed : ∀ {other : Wire}, other ∈ draft.allWires →
      other.exporter ∈ draft.owners start ∧
        other.declared ∈ draft.reachableExports start :=
    fun member =>
      ⟨List.mem_map_of_mem (List.mem_cons_of_mem _ member),
        List.mem_append_left _
          (List.mem_map_of_mem (List.mem_cons_of_mem _ member))⟩
  unfold target? at found
  split at found
  · rename_i candidate hit
    have member := mem_of_candidate? hit
    split at found
    · rename_i own ownFound
      cases found
      exact listed (mem_allWires_of_candidate member
        (List.mem_append_left _ (Table.mem_values_of_find? ownFound)))
    · obtain ⟨offer, offered, rfl⟩ := Option.map_eq_some_iff.1 found
      have offerMember : offer ∈ candidate.offers :=
        List.mem_of_find?_eq_some offered
      have known := listed (mem_allWires_of_candidate member
        (List.mem_append_right _
          (List.mem_map_of_mem
            (f := (·.toWire candidate.generation)) offerMember)))
      refine ⟨?_, known.2⟩
      cases source : offer.source with
      | none => simpa [Offer.toWire, Offer.exporter, source] using inside
      | some generation =>
          simpa [Offer.toWire, Offer.exporter, source] using known.1
  · split at found
    · rename_i own ownFound
      cases found
      have member := List.mem_of_find?_eq_some ownFound
      rcases draft.store.wires_sublist view.owner with none | some
      · simp [none] at member
      · obtain ⟨solution, solutionMember, kept⟩ := some
        exact listed (List.mem_append_right _
          (List.mem_flatMap.2
            ⟨solution, solutionMember, kept.subset member⟩))
    · obtain ⟨offer, offered, rfl⟩ := Option.map_eq_some_iff.1 found
      obtain ⟨declared, source⟩ :=
        mem_exports_of_mem_offers (List.mem_of_find?_eq_some offered)
      refine ⟨?_, ?_⟩
      · simpa [Offer.toWire, Offer.exporter, source] using inside
      · exact List.mem_append_right _
          (List.mem_flatMap.2 ⟨view.owner, inside, declared⟩)

theorem mem_usedPackages {draft : Draft} {start wire : Wire} {view : View}
    (reachable : wire.declared ∈ draft.reachableExports start)
    (member : view ∈ usedViews wire) :
    view.owner = wire.exporter ∧
      view.package ∈ draft.usedPackages start := by
  obtain ⟨package, used, rfl⟩ := List.mem_map.1 member
  exact ⟨rfl, List.mem_flatMap.2 ⟨wire.declared, reachable, used⟩⟩

/-- Views with those that follow from them, from a wire on. -/
def usesNetwork (draft : Draft) (start : Wire) :
    Network View (GenerationId × String) where
  key := fun view => (view.owner.id, view.package)
  next := draft.nextViews
  Within := fun view =>
    view.owner ∈ draft.owners start ∧
      view.package ∈ draft.usedPackages start
  within_next := by
    intro view successor inside member
    unfold nextViews at member
    split at member
    · cases member
    · rename_i wire found
      obtain ⟨exporter, declared⟩ := target?_reachable inside.1 found
      obtain ⟨owner, package⟩ := mem_usedPackages declared member
      exact ⟨owner ▸ exporter, package⟩
  keys := fun _ =>
    (draft.owners start).flatMap fun owner =>
      (draft.usedPackages start).map fun package => (owner.id, package)
  key_mem := fun inside =>
    List.mem_flatMap.2 ⟨_, inside.1, List.mem_map_of_mem inside.2⟩
  degree := fun _ => (draft.usedPackages start).length
  length_next := by
    intro view inside
    unfold nextViews
    split
    · simp
    · rename_i wire found
      rw [usedViews, List.length_map]
      exact (sublist_flatMap
        (target?_reachable inside.1 found).2).length_le

/-- A wire and everything that it commits its importer to: the wires that its
export uses, those that their exports use, and so on. -/
def implied (draft : Draft) (start : Wire) : List Wire :=
  start :: ((draft.usesNetwork start).walk
    [(start.exporter.id, start.package)] (usedViews start)
    fun view member => by
      have reachable : start.declared ∈ draft.reachableExports start :=
        List.mem_append_left _ (List.mem_map_of_mem List.mem_cons_self)
      obtain ⟨owner, package⟩ := mem_usedPackages reachable member
      refine ⟨?_, package⟩
      rw [owner]
      exact List.mem_map_of_mem List.mem_cons_self).filterMap draft.target?

/-- Everything that a bound module is committed to by its wires. -/
def accepted (draft : Draft) (bound : BoundModule) : List Wire :=
  bound.wirings.values.flatMap draft.implied

/-- The exporter that wires name for the package of a wire, if they name one, is
the exporter of that wire. -/
def agreesWith (wires : List Wire) (wire : Wire) : Bool :=
  (wires.find? (·.package = wire.package)).all fun first =>
    first.exporter.id = wire.exporter.id

/-- Wires agree with each other and with the wires of all used candidates: each
package has one exporter. -/
def agrees (draft : Draft) (wires : List Wire) : Bool :=
  wires.all (agreesWith wires) &&
    draft.used.members.all fun id =>
      match draft.candidate? id with
      | none => true
      | some candidate => candidate.wirings.values.all (agreesWith wires)

end Draft

end ModuleWiring
