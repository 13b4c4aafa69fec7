import ModuleWiring.Proofs.Schedule
import ModuleWiring.Proofs.Tables
import ModuleWiring.Proofs.Uses

/-!
# Plans

A plan is a complete wiring that no search has been asked for.  A search follows
a plan as long as it binds bundles of the plan only and wires them as the plan
does.
-/

namespace ModuleWiring

/-- Some bundles, and the wire that each of them has for a package. -/
structure Plan where
  hosts : List Generation
  wire? : Generation → String → Option Wire

/-- The wire to the first export of its own that a generation has for a
package. -/
def Generation.ownWire? (generation : Generation) (package : String) :
    Option Wire :=
  (generation.offers.find? (·.package = package)).map (·.toWire generation)

/-- Whether one of its own exports meets an import of a generation. -/
def Generation.serves (generation : Generation)
    (requirement : PackageImport) : Bool :=
  generation.manifest.exports.any (requirement.accepts · generation)

/-- Whether the first of its own exports for the package does so. -/
def Generation.servesFirst (generation : Generation)
    (requirement : PackageImport) : Bool :=
  (generation.ownWire? requirement.package).any fun wire =>
    requirement.accepts wire.declared generation

/-- A bundle that is installed and asks for packages of other bundles only. -/
structure Generation.IsPlain (framework : Framework) (store : Store)
    (generation : Generation) : Prop where
  installed : store.state generation = .installed
  notFragment : generation.isFragment = false
  notSingleton : generation.isSingleton = false
  requires : generation.manifest.requires = []
  undelegated : ∀ requirement ∈ generation.imports,
    framework.bootDelegation.covers requirement.package = false

instance (framework : Framework) (store : Store) (generation : Generation) :
    Decidable (generation.IsPlain framework store) :=
  decidable_of_iff
    (store.state generation = .installed ∧
      generation.isFragment = false ∧ generation.isSingleton = false ∧
      generation.manifest.requires = [] ∧
      ∀ requirement ∈ generation.imports,
        framework.bootDelegation.covers requirement.package = false)
    ⟨fun ⟨installed, notFragment, notSingleton, requires, undelegated⟩ =>
        ⟨installed, notFragment, notSingleton, requires, undelegated⟩,
      fun plain => ⟨plain.installed, plain.notFragment, plain.notSingleton,
        plain.requires, plain.undelegated⟩⟩

namespace Plan

/-- What a package stands for at its owner: the wire of the owner or, where it
has none, the owner's own export. -/
def sees (plan : Plan) (view : View) : List Wire :=
  ((plan.wire? view.owner view.package).or
    (view.owner.ownWire? view.package)).toList

/-- What a package may be taken for while the owner is still to be wired: the
wire that it will have, and its own export as well. -/
def maySee (plan : Plan) (view : View) : List Wire :=
  (plan.wire? view.owner view.package).toList ++
    (view.owner.ownWire? view.package).toList

theorem mem_maySee {plan : Plan} {view : View} {wire : Wire} :
    wire ∈ plan.maySee view ↔
      plan.wire? view.owner view.package = some wire ∨
        view.owner.ownWire? view.package = some wire := by
  simp [maySee]

/-- Uses lists lead from one wire to another. -/
inductive Reaches (sees : View → List Wire) (start : Wire) : Wire → Prop where
  | refl : Reaches sees start start
  | step {wire next : Wire} {view : View} :
      Reaches sees start wire → view ∈ Draft.usedViews wire →
        next ∈ sees view → Reaches sees start next

/-- Nothing leads out of a list of wires that is closed under uses lists. -/
theorem Reaches.mem_of_closed
    {sees : View → List Wire} {wires : List Wire} {start wire : Wire}
    (closed : ∀ wire ∈ wires, ∀ view ∈ Draft.usedViews wire,
      sees view ⊆ wires)
    (reaches : Reaches sees start wire) (member : start ∈ wires) :
    wire ∈ wires := by
  induction reaches with
  | refl => exact member
  | step _ used seen inductionHypothesis =>
      exact closed _ inductionHypothesis _ used seen

/-- A plan meets every import and keeps to one exporter for a package, given
what used packages stand for and which imports a bundle serves itself.  A wire
leads to another bundle of the plan that does not wire the package. -/
structure IsConsistent (plan : Plan) (sees : View → List Wire)
    (serves : Generation → PackageImport → Bool) : Prop where
  provided : ∀ {host package wire}, host ∈ plan.hosts →
    plan.wire? host package = some wire →
      wire.package = package ∧ wire.exporter ∈ plan.hosts ∧
        wire.exporter ≠ host ∧
        wire.declared ∈ wire.exporter.manifest.exports ∧
        ∃ requirement ∈ host.imports, requirement.package = package ∧
          requirement.accepts wire.declared wire.exporter = true
  satisfied : ∀ {host requirement}, host ∈ plan.hosts →
    requirement ∈ host.imports →
      (∃ wire, plan.wire? host requirement.package = some wire ∧
        requirement.accepts wire.declared wire.exporter = true) ∨
      requirement.isOptional = true ∨
      plan.wire? host requirement.package = none ∧
        serves host requirement = true
  unwired : ∀ {host package wire}, host ∈ plan.hosts →
    plan.wire? host package = some wire →
      plan.wire? wire.exporter package = none
  agreed : ∀ {host other package wire theirs}, host ∈ plan.hosts →
    other ∈ plan.hosts → plan.wire? host package = some wire →
      plan.wire? other package = some theirs →
        theirs.exporter = wire.exporter
  uses : ∀ {host other package wire reached theirs}, host ∈ plan.hosts →
    other ∈ plan.hosts → plan.wire? host package = some wire →
      Reaches sees wire reached →
        plan.wire? other reached.package = some theirs →
          theirs.exporter = reached.exporter
  single : ∀ {host first second wire other left right},
    host ∈ plan.hosts → plan.wire? host first = some wire →
      plan.wire? host second = some other → Reaches sees wire left →
        Reaches sees other right → left.package = right.package →
          left.exporter = right.exporter

/-- The bundles of the plan are plain ones of distinct identities, and the index
knows what they export. -/
structure IsPlain (plan : Plan) (search : Search) (store : Store) :
    Prop where
  plain : ∀ host ∈ plan.hosts, host.IsPlain search.framework store
  distinct : ∀ host ∈ plan.hosts, ∀ other ∈ plan.hosts,
    host.id = other.id → host = other
  indexed : ∀ host ∈ plan.hosts, ∀ declared ∈ host.manifest.exports,
    ∀ package ∈ declared.packages,
      host.id ∈ search.index.exporters package

/-- A bound module is wired as the plan says, as far as it is wired. -/
structure Keeps (plan : Plan) (bound : BoundModule) : Prop where
  host : bound.host ∈ plan.hosts
  requires : bound.requires = []
  imports : bound.imports ⊆ bound.host.imports
  keyed : bound.wirings.IsKeyed
  wirings : ∀ {package wire}, bound.wirings.find? package = some wire →
    plan.wire? bound.host package = some wire
  offers : bound.offers = bound.host.offers.filter fun offer =>
    (bound.wirings.find? offer.package).isNone

/-- All candidates are bundles, none of them was resolved before, and the bound
ones keep to the plan. -/
inductive Fits (plan : Plan) (draft : Draft) : Candidate → Prop where
  | unresolved {installed : Generation} :
      installed.isFragment = false →
      (installed ∈ plan.hosts →
        draft.unused.contains installed.id = true) →
      Fits plan draft (.unresolved installed)
  | bound {bound : BoundModule} :
      plan.Keeps bound → Fits plan draft (.bound bound)

/-- A draft follows a plan. -/
structure Follows (plan : Plan) (draft : Draft) : Prop where
  planned : ∀ host ∈ plan.hosts, ∃ candidate,
    draft.candidate? host.id = some candidate ∧
      candidate.generation = host
  fits : ∀ {id candidate}, draft.candidate? id = some candidate →
    plan.Fits draft candidate

variable {plan : Plan} {search : Search} {store : Store} {draft : Draft}

theorem keeps_of
    {installed : Generation} (isPlain : plan.IsPlain search store)
    (member : installed ∈ plan.hosts) :
    plan.Keeps (.of installed) where
  host := member
  requires := (isPlain.plain installed member).requires
  imports := List.Subset.refl _
  keyed := Wirings.isKeyed_empty
  wirings := fun found => by cases found
  offers := (List.filter_eq_self.2 fun _ _ => rfl).symm

/-- The module goes on without a wire for its next import. -/
theorem Keeps.leaveImport
    {bound : BoundModule} {requirement : PackageImport}
    {rest : List PackageImport} (keeps : plan.Keeps bound)
    (next : bound.imports = requirement :: rest) :
    plan.Keeps { bound with imports := rest } where
  host := keeps.host
  requires := keeps.requires
  imports := fun _ member => keeps.imports (next ▸ List.mem_cons_of_mem _ member)
  keyed := keeps.keyed
  wirings := keeps.wirings
  offers := keeps.offers

/-- The module goes on with the wire that the plan has for its next import. -/
theorem Keeps.wire
    {bound : BoundModule} {requirement : PackageImport}
    {rest : List PackageImport} {wire : Wire} (keeps : plan.Keeps bound)
    (next : bound.imports = requirement :: rest)
    (planned : plan.wire? bound.host wire.package = some wire) :
    plan.Keeps { bound with
      imports := rest
      wirings := bound.wirings.insert wire.package wire
      offers := bound.offers.filter (·.package ≠ wire.package) } where
  host := keeps.host
  requires := keeps.requires
  imports := fun _ member => keeps.imports (next ▸ List.mem_cons_of_mem _ member)
  keyed := keeps.keyed.insert wire
  wirings := by
    intro package other found
    change (Table.insert bound.wirings wire.package wire).find? package =
      some other at found
    rw [Table.find?_insert] at found
    split at found
    · rename_i same
      cases found
      rw [← same]
      exact planned
    · exact keeps.wirings found
  offers := by
    change bound.offers.filter _ = BoundModule.unwired (Table.insert
      bound.wirings wire.package wire) bound.host.offers
    rw [BoundModule.unwired_insert, keeps.offers]
    rfl

/-- A package that is not wired stands for the module's own export. -/
theorem Keeps.offer?_eq
    {bound : BoundModule} {package : String} (keeps : plan.Keeps bound)
    (unwired : bound.wirings.find? package = none) :
    bound.offers.find? (·.package = package) =
      bound.host.offers.find? (·.package = package) := by
  rw [keeps.offers]
  exact BoundModule.find?_unwired unwired bound.host.offers

namespace Follows

/-- The candidate of a bundle of the plan. -/
theorem candidate?_eq
    (follows : plan.Follows draft) {host : Generation}
    (member : host ∈ plan.hosts) :
    (draft.candidate? host.id = some (.unresolved host) ∧
      draft.unused.contains host.id = true) ∨
    ∃ bound, draft.candidate? host.id = some (.bound bound) ∧
      bound.host = host ∧ plan.Keeps bound := by
  obtain ⟨candidate, found, isHost⟩ := follows.planned host member
  cases follows.fits found with
  | unresolved _ unused =>
      cases isHost
      exact .inl ⟨found, unused member⟩
  | bound keeps => exact .inr ⟨_, found, isHost, keeps⟩

theorem planned_of_inUse
    (follows : plan.Follows draft) {wire : Wire}
    (inUse : draft.InUse wire) :
    ∃ host ∈ plan.hosts, plan.wire? host wire.package = some wire := by
  obtain ⟨id, candidate, _, found, member⟩ := inUse
  cases follows.fits found with
  | unresolved _ _ => cases member
  | bound keeps =>
      exact ⟨_, keeps.host, keeps.wirings (keeps.keyed.find?_of_mem member)⟩

/-- What a draft takes a package of the plan for. -/
theorem maySee_of_target?
    (follows : plan.Follows draft) {view : View} {wire : Wire}
    (member : view.owner ∈ plan.hosts)
    (found : draft.target? view = some wire) :
    wire ∈ plan.maySee view := by
  unfold Draft.target? at found
  rcases follows.candidate?_eq member with
    ⟨here, _⟩ | ⟨bound, here, isHost, keeps⟩
  · rw [here] at found
    exact mem_maySee.2 (.inr found)
  · rw [here] at found
    dsimp only at found
    split at found
    · rename_i planned
      cases found
      exact mem_maySee.2 (.inl (isHost ▸ keeps.wirings planned))
    · rename_i unwired
      refine mem_maySee.2 (.inr ?_)
      rw [← isHost] at found ⊢
      rw [Candidate.offer?] at found
      change (bound.offers.find? _).map _ = some wire at found
      rw [keeps.offer?_eq unwired] at found
      exact found

end Follows

/-- What uses lists reach from a bundle of the plan stays within the plan. -/
theorem IsConsistent.exporter_mem
    {serves : Generation → PackageImport → Bool}
    (consistent : plan.IsConsistent plan.maySee serves)
    {view : View} {wire : Wire} (member : view.owner ∈ plan.hosts)
    (sees : wire ∈ plan.maySee view) :
    wire.exporter ∈ plan.hosts := by
  rcases mem_maySee.1 sees with planned | own
  · exact (consistent.provided member planned).2.1
  · obtain ⟨offer, found, rfl⟩ := Option.map_eq_some_iff.1 own
    obtain ⟨_, source⟩ :=
      Draft.mem_exports_of_mem_offers (List.mem_of_find?_eq_some found)
    simpa [Offer.toWire, Offer.exporter, source] using member

/-- Everything that a wire commits to in a draft is reached in the plan. -/
theorem Follows.reaches_of_mem_implied
    {serves : Generation → PackageImport → Bool}
    (follows : plan.Follows draft)
    (consistent : plan.IsConsistent plan.maySee serves)
    {start wire : Wire} (member : start.exporter ∈ plan.hosts)
    (implied : wire ∈ draft.implied start) :
    Reaches plan.maySee start wire := by
  have both := Draft.forall_mem_implied
    (fun wire => Reaches plan.maySee start wire ∧
      wire.exporter ∈ plan.hosts) ⟨.refl, member⟩ ?_ wire implied
  · exact both.1
  · rintro before view next ⟨reaches, planned⟩ used found _ _
    have owner : view.owner ∈ plan.hosts :=
      (Draft.mem_usedViews.1 used).1 ▸ planned
    have sees := follows.maySee_of_target? owner found
    exact ⟨.step reaches used sees, consistent.exporter_mem owner sees⟩

end Plan

end ModuleWiring
