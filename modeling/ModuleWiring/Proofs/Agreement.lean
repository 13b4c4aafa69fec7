import ModuleWiring.Proofs.Persistence

/-!
# One exporter for each package

All wires of an answer for one package lead to exporters of one identity, those
that a module has kept from an earlier wiring included.  They lead to two
generations exactly where such a wire has been kept although its exporter is not
tracked any more, and another generation is tracked under its identity.
-/

namespace ModuleWiring

open Search

namespace World

/-- A module has kept a wire to a generation that is not tracked any more. -/
structure IsStranded (world : World) (solution : Solution) (wire : Wire) :
    Prop where
  kept : wire ∈ world.store.wires solution.host
  untracked : wire.exporter ∉ world.resolver.tracked

variable {world : World} {target : Generation} {framework : Framework}
  {start : Node} {final : Draft} {solution other : Solution}
  {wire theirs : Wire}

namespace Inquires

theorem tracked_of_takesPart
    (inquires : world.Inquires target framework start final)
    {generation : Generation} (takesPart : final.TakesPart generation) :
    generation ∈ world.resolver.tracked := by
  obtain ⟨candidate, found, rfl⟩ := Option.map_eq_some_iff.1 takesPart.1
  exact (inquires.canonical_of_found found).1

/-- Wires that a search has chosen lead to tracked generations. -/
theorem stranded_or_tracked
    (inquires : world.Inquires target framework start final)
    (answered : solution ∈ final.solutions) (listed : wire ∈ solution.wires) :
    world.IsStranded solution wire ∨
      wire.exporter ∈ world.resolver.tracked := by
  by_cases tracked : wire.exporter ∈ world.resolver.tracked
  · exact .inr tracked
  · obtain ⟨bound, found, rfl⟩ := Draft.candidate?_of_mem_solutions answered
    obtain ⟨package, held⟩ := Table.exists_of_mem_values listed
    rcases inquires.run.wiresTakePart found held with kept | takesPart
    · exact .inl ⟨kept, tracked⟩
    · exact absurd (inquires.tracked_of_takesPart takesPart) tracked

/-- Only modules that were resolved before have stranded wires. -/
theorem isResolved_of_stranded
    (inquires : world.Inquires target framework start final)
    (answered : solution ∈ final.solutions) (listed : wire ∈ solution.wires)
    (stranded : world.IsStranded solution wire) :
    (world.store.state solution.host).isResolved = true := by
  obtain ⟨bound, found, rfl⟩ := Draft.candidate?_of_mem_solutions answered
  obtain ⟨package, held⟩ := Table.exists_of_mem_values listed
  apply Bool.of_not_eq_false
  intro unresolved
  have takesPart := inquires.run.needsTakePart found unresolved
    (.inl ⟨package, wire, held, rfl⟩)
  exact stranded.untracked (inquires.tracked_of_takesPart takesPart)

/-- A search has stranded wires of one module only, and of that just one for a
package. -/
theorem eq_of_stranded
    (inquires : world.Inquires target framework start final)
    {id : GenerationId} (anchors : Anchors world.store target id
      ⟨.finished, final⟩)
    (answered : solution ∈ final.solutions)
    (otherAnswered : other ∈ final.solutions)
    (listed : wire ∈ solution.wires) (theirListed : theirs ∈ other.wires)
    (stranded : world.IsStranded solution wire)
    (theirStranded : world.IsStranded other theirs)
    (samePackage : theirs.package = wire.package) :
    theirs = wire := by
  have isResolved := inquires.isResolved_of_stranded answered listed stranded
  have theirResolved := inquires.isResolved_of_stranded otherAnswered
    theirListed theirStranded
  obtain ⟨bound, found, rfl⟩ := Draft.candidate?_of_mem_solutions answered
  obtain ⟨module, otherFound, rfl⟩ :=
    Draft.candidate?_of_mem_solutions otherAnswered
  have sameId : module.host.id = bound.host.id :=
    (anchors.only otherFound theirResolved).trans
      (anchors.only found isResolved).symm
  change final.candidate? module.host.id = _ at otherFound
  rw [sameId] at otherFound
  cases found.symm.trans otherFound
  have keyed := (inquires.run.leadsTo_met.2.2 found).keyed
  have held := keyed.find?_of_mem listed
  have theirHeld := keyed.find?_of_mem theirListed
  rw [samePackage, held] at theirHeld
  exact (Option.some.inj theirHeld).symm

end Inquires

/-- The target is bound in the end, or it is a fragment of what is. -/
theorem IsConsistent.exists_anchored
    (consistent : world.IsConsistent) (made : target ∈ world.made)
    {answer : List Solution}
    (answers : world.resolver.Answers world.store target answer) :
    ∃ framework start final id, final.solutions = answer ∧
      world.Inquires target framework start final ∧
        Anchors world.store target id ⟨.finished, final⟩ := by
  cases answers with
  | resolve solved =>
      obtain ⟨framework, draft, final, same, solves⟩ :=
        consistent.exists_solves made solved
      obtain ⟨id, anchors⟩ := solves.exists_anchor
      exact ⟨framework, _, final, id, same, solves.inquires, anchors⟩
  | dynamic wanted solved =>
      obtain ⟨framework, start, final, same, _, ⟨bound, found, isTarget, _⟩,
        inquires⟩ := consistent.inquires_resolveDynamic made solved
      exact ⟨framework, start, final, target.id, same, inquires,
        inquires.anchors isTarget found⟩

/-- Any two wires of an answer for one package lead to exporters of one identity.
They are two generations exactly if one wire is stranded and the other leads to
the successor of its exporter. -/
theorem Reachable.one_exporter_unless_stranded
    (reachable : world.Reachable) (made : target ∈ world.made)
    {answer : List Solution}
    (answers : world.resolver.Answers world.store target answer)
    (answered : solution ∈ answer) (otherAnswered : other ∈ answer)
    (listed : wire ∈ solution.wires) (theirListed : theirs ∈ other.wires)
    (samePackage : theirs.package = wire.package) :
    theirs.exporter.id = wire.exporter.id ∧
      (theirs.exporter ≠ wire.exporter ↔
        world.IsStranded solution wire ∧
            theirs.exporter ∈ world.resolver.tracked ∨
          world.IsStranded other theirs ∧
            wire.exporter ∈ world.resolver.tracked) := by
  have consistent := reachable.isConsistent
  obtain ⟨framework, start, final, id, rfl, inquires, anchors⟩ :=
    consistent.exists_anchored made answers
  have sameId := inquires.run.exporter_eq answered otherAnswered listed
    theirListed samePackage
  refine ⟨sameId, ?_, ?_⟩
  · intro different
    rcases inquires.stranded_or_tracked answered listed with
      stranded | tracked
    · rcases inquires.stranded_or_tracked otherAnswered theirListed with
        theirStranded | theirTracked
      · have same := inquires.eq_of_stranded anchors answered otherAnswered
          listed theirListed stranded theirStranded samePackage
        exact absurd (congrArg Wire.exporter same) different
      · exact .inl ⟨stranded, theirTracked⟩
    · rcases inquires.stranded_or_tracked otherAnswered theirListed with
        theirStranded | theirTracked
      · exact .inr ⟨theirStranded, tracked⟩
      · exact absurd (List.inj_on_of_nodup_map consistent.resolver.distinct
          theirTracked tracked sameId) different
  · rintro (⟨stranded, tracked⟩ | ⟨stranded, tracked⟩) same
    · exact stranded.untracked (same ▸ tracked)
    · exact stranded.untracked (same ▸ tracked)

end World

namespace Sample

/-- The world in which the importer of the older version has been wired, and its
fragment has come after that. -/
def carried : World :=
  ((((pair.applying (generation 0 importer) fun _ => true).installing
    (id 2, rival)).applying (generation 2 rival) fun _ => true).installing
      (id 3, careless)).installing (id 4, joining)

theorem reachable_carried : carried.Reachable := by
  refine World.Reachable.installing ?_ (by decide +kernel)
    (by decide +kernel)
  refine World.Reachable.installing ?_ (by decide +kernel)
    (by decide +kernel)
  refine World.Reachable.applying ?_ (by decide +kernel) _
  refine World.Reachable.installing ?_ (by decide +kernel)
    (by decide +kernel)
  exact (reachable_world _).applying (by decide +kernel) _

/-- The wire that the host keeps, and the one that it is given. -/
def keptWire : Wire :=
  ⟨"p", offer "p" 1, generation 1 exporter⟩

def addedWire : Wire :=
  ⟨"s", offer "s" 1 ["p"], generation 3 careless⟩

/-- The host that the fragment has joined. -/
def joinedHost : Solution :=
  ⟨generation 0 importer, [generation 4 joining], [keptWire, addedWire], []⟩

end Sample

namespace World

/-- The host is opened again for the fragment and keeps its wire.  The bundle that
takes any version keeps to its exporter as well, and not to the newer one. -/
theorem carried_one_exporter :
    ∃ other, Sample.carried.resolver.Answers Sample.carried.store
          (Sample.generation 4 Sample.joining) [Sample.joinedHost, other] ∧
      Sample.joinedHost.host ≠ other.host ∧
      Sample.keptWire ∈ Sample.carried.store.wires Sample.joinedHost.host ∧
      ∃ theirs ∈ other.wires, theirs.package = Sample.keptWire.package ∧
        theirs.exporter = Sample.keptWire.exporter := by
  let other : Solution :=
    ⟨Sample.generation 3 Sample.careless, [], [Sample.keptWire], []⟩
  have solved : Sample.carried.resolver.resolve Sample.carried.store
      (Sample.generation 4 Sample.joining) =
        .ok [Sample.joinedHost, other] :=
    Search.eq_ok_of_toOption (by decide +kernel)
  have tracked : Sample.keptWire.exporter ∈
      Sample.carried.resolver.tracked := by
    decide +kernel
  obtain ⟨_, agree⟩ := Sample.reachable_carried.one_exporter_unless_stranded
    (by decide +kernel) (.resolve solved) List.mem_cons_self
    (by simp : other ∈ [Sample.joinedHost, other])
    (List.mem_cons_self : Sample.keptWire ∈ _)
    (List.mem_cons_self : Sample.keptWire ∈ _) rfl
  refine ⟨other, .resolve solved, by decide +kernel, by decide +kernel,
    Sample.keptWire, List.mem_cons_self, rfl, ?_⟩
  apply of_not_not
  intro different
  rcases agree.1 different with ⟨stranded, _⟩ | ⟨stranded, _⟩
  · exact stranded.untracked tracked
  · exact stranded.untracked tracked

/-- The host keeps its wire although its exporter has been replaced.  The bundle that
takes any version is wired to the successor. -/
theorem replaced_two_exporters :
    Sample.replaced.Reachable ∧
      ∃ answer, Sample.replaced.resolver.Answers Sample.replaced.store
          (Sample.generation 4 Sample.joining) answer ∧
        Sample.joinedHost ∈ answer ∧ ∃ other ∈ answer,
          ∃ theirs ∈ other.wires,
            theirs.package = Sample.keptWire.package ∧
              theirs.exporter ≠ Sample.keptWire.exporter := by
  let successor : Generation := ⟨2, Sample.id 1, Sample.rival⟩
  let theirs : Wire := ⟨"p", Sample.offer "p" 2, successor⟩
  let other : Solution :=
    ⟨Sample.generation 3 Sample.careless, [], [theirs], []⟩
  have solved : Sample.replaced.resolver.resolve Sample.replaced.store
      (Sample.generation 4 Sample.joining) =
        .ok [Sample.joinedHost, other, ⟨successor, [], [], []⟩] :=
    Search.eq_ok_of_toOption (by decide +kernel)
  exact ⟨Sample.reachable_replaced, _, .resolve solved, List.mem_cons_self,
    other, List.mem_cons_of_mem _ List.mem_cons_self, theirs,
    List.mem_cons_self, rfl, by decide +kernel⟩

end World

end ModuleWiring
