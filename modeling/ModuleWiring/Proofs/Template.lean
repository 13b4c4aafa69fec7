import ModuleWiring.Proofs.Attachment
import ModuleWiring.Proofs.Reordering
import ModuleWiring.Proofs.Visibility

/-!
# Finished wirings as templates

A search that has bound some modules and wired them leaves a draft that another
search may go by, if only imports have been reordered in between.  The other
search binds the same modules with the same fragments, gives them the same
providers for what they have to require, and wires them likewise as far as it
has come.
-/

namespace ModuleWiring

namespace BoundModule

/-- The first export of its own that a module has for a package. -/
def ownOffer? (bound : BoundModule) (package : String) : Option Offer :=
  bound.ownOffers.find? (·.package = package)

/-- The provisions for the mandatory requires of a module. -/
def needed (bound : BoundModule) : List Provision :=
  bound.required.filter fun provision => !provision.require.isOptional

theorem mem_needed
    {bound : BoundModule} {provision : Provision} :
    provision ∈ bound.needed ↔ provision ∈ bound.required ∧
      provision.require.isOptional = false := by
  rw [needed, List.mem_filter, Bool.not_eq_true']

/-- The generations that a module is wired to, and those that it has to
require. -/
def partners (bound : BoundModule) : List Generation :=
  bound.wirings.values.map Wire.exporter ++
    bound.needed.map Provision.provider

/-- A module offers what it exports and has no wire for, and after that nothing but
copies of some kind. -/
def OffersOwn (Copy : Offer → Prop) (bound : BoundModule) : Prop :=
  ∃ copies, bound.offers = unwired bound.wirings bound.ownOffers ++ copies ∧
    ∀ copy ∈ copies, Copy copy

namespace OffersOwn

variable {Copy : Offer → Prop} {bound : BoundModule} {package : String}
  {offer : Offer}

theorem of_takesOn
    {installed : Generation} {joined : List Generation}
    (taken : (BoundModule.of installed).TakesOn joined bound) :
    bound.OffersOwn Copy := by
  have none : ∀ package, bound.wirings.find? package = none := by
    rw [taken.wirings]
    exact fun _ => rfl
  refine ⟨[], ?_, fun _ member => by cases member⟩
  rw [unwired_of_forall none, List.append_nil]
  exact taken.offers_eq_ownOffers

theorem addProvision
    {provision : Provision} {visible : List Wire}
    (own : bound.OffersOwn Copy)
    (copied : provision.require.isReexport = true → ∀ wire ∈ visible,
      Copy ⟨wire.package, wire.declared, some wire.exporter⟩) :
    (bound.addProvision provision visible).OffersOwn Copy := by
  obtain ⟨copies, offers, allowed⟩ := own
  obtain ⟨added, same, listed⟩ :=
    bound.exists_offers_addProvision provision visible
  refine ⟨copies ++ added, ?_, ?_⟩
  · rw [same, offers, List.append_assoc]
    rfl
  · intro copy member
    rcases List.mem_append.1 member with old | new
    · exact allowed copy old
    · obtain ⟨reexported, wire, isVisible, rfl⟩ := listed copy new
      exact copied reexported wire isVisible

theorem wire
    {wire : Wire} (own : bound.OffersOwn Copy) (rest : List PackageImport) :
    BoundModule.OffersOwn Copy { bound with
      imports := rest
      wirings := bound.wirings.insert package wire
      offers := bound.offers.filter (·.package ≠ package) } := by
  obtain ⟨copies, offers, allowed⟩ := own
  refine ⟨copies.filter (·.package ≠ package), ?_,
    fun copy member => allowed copy (List.mem_filter.1 member).1⟩
  change bound.offers.filter _ =
    unwired (Table.insert bound.wirings package wire) bound.ownOffers ++ _
  rw [unwired_insert, offers, List.filter_append]

/-- A package that is not wired stands for the module's own export, if there is
one. -/
theorem find?_offers
    (own : bound.OffersOwn Copy)
    (none : bound.wirings.find? package = none)
    (exported : bound.ownOffer? package = some offer) :
    bound.offers.find? (·.package = package) = some offer := by
  obtain ⟨copies, offers, _⟩ := own
  have first := (find?_unwired none bound.ownOffers).trans exported
  rw [offers, List.find?_append, first]
  rfl

/-- Otherwise it stands for a copy. -/
theorem own_or_copy
    (own : bound.OffersOwn Copy)
    (none : bound.wirings.find? package = none)
    (found : bound.offers.find? (·.package = package) = some offer) :
    bound.ownOffer? package = some offer ∨ Copy offer := by
  obtain ⟨copies, offers, allowed⟩ := own
  rw [offers, List.find?_append, find?_unwired none,
    Option.or_eq_some_iff] at found
  rcases found with exported | ⟨_, copied⟩
  · exact .inl exported
  · exact .inr (allowed offer (List.mem_of_find?_eq_some copied))

end OffersOwn

end BoundModule

namespace Draft

/-- The modules that a draft binds. -/
def modules (draft : Draft) : List BoundModule :=
  draft.candidates.members.filterMap Candidate.bound?

theorem mem_modules
    {draft : Draft} {bound : BoundModule} :
    bound ∈ draft.modules ↔
      draft.candidate? bound.host.id = some (.bound bound) := by
  constructor
  · intro member
    obtain ⟨candidate, present, isBound⟩ := List.mem_filterMap.1 member
    cases candidate with
    | unresolved installed => cases isBound
    | resolved wired => cases isBound
    | bound binding =>
        cases isBound
        exact Roster.find?_of_mem present
  · intro found
    exact List.mem_filterMap.2 ⟨_, mem_of_candidate? found, rfl⟩

theorem mem_modules_of_candidate?
    {draft : Draft} {id : GenerationId} {bound : BoundModule}
    (found : draft.candidate? id = some (.bound bound)) :
    bound ∈ draft.modules := by
  have same : bound.host.id = id := id_of_candidate? found
  exact mem_modules.2 (same ▸ found)

/-- What a bundle offers of its own, and has offered while it had no wires. -/
def everOffered (draft : Draft) (bundle : Generation) : List Wire :=
  match draft.bound? bundle.id with
  | some bound => bound.ownOffers.map (·.toWire bundle)
  | none => draft.offeredBy bundle

theorem mem_everOffered_of_own
    {draft : Draft} {bundle : Generation} {bound : BoundModule} {offer : Offer}
    (found : draft.candidate? bundle.id = some (.bound bound))
    (offered : offer ∈ bound.ownOffers) :
    offer.toWire bundle ∈ draft.everOffered bundle := by
  have isBound : draft.bound? bundle.id = some bound := by
    simp [bound?, found, Candidate.bound?]
  unfold everOffered
  rw [isBound]
  exact List.mem_map_of_mem offered

/-- What is not bound offers now what it has always offered. -/
theorem everOffered_eq
    {draft : Draft} {bundle : Generation}
    (notBound : ∀ bound,
      draft.candidate? bundle.id ≠ some (.bound bound)) :
    draft.everOffered bundle = draft.offeredBy bundle := by
  unfold everOffered
  cases found : draft.bound? bundle.id with
  | none => rfl
  | some bound => exact absurd (candidate?_of_bound? found) (notBound bound)

/-- A wire that may be visible through a provider at some time. -/
def MayShow (draft : Draft) (provider : Generation) (wire : Wire) : Prop :=
  ∃ bundle, draft.Reaches provider bundle ∧ wire ∈ draft.everOffered bundle

/-- A wire of which a module may offer a copy, as it has to re-export a bundle
that shows it. -/
def MayCopy (draft : Draft) (bound : BoundModule) (wire : Wire) : Prop :=
  ∃ provision ∈ bound.needed, provision.require.isReexport = true ∧
    draft.MayShow provision.provider wire

/-- A module that may offer a copy re-exports a bundle that shows the wire. -/
theorem MayCopy.mayShow
    {draft : Draft} {bundle : Generation} {bound : BoundModule} {wire : Wire}
    (copies : draft.MayCopy bound wire)
    (here : draft.candidate? bundle.id = some (.bound bound)) :
    draft.MayShow bundle wire := by
  obtain ⟨provision, needed, reexported, other, reached, offered⟩ := copies
  refine ⟨other, .head ?_ reached, offered⟩
  unfold reexportedBy
  rw [here]
  exact List.mem_map_of_mem (List.mem_filter.2
    ⟨(BoundModule.mem_needed.1 needed).1, reexported⟩)

/-- What a package may be taken for at its owner: what it stands for in the
draft, the own export of a module even if that has a wire for the package, and
what the module may offer a copy of. -/
inductive MaySee (draft : Draft) (view : View) : Wire → Prop where
  | target {wire : Wire} :
      draft.target? view = some wire → MaySee draft view wire
  | own {bound : BoundModule} {offer : Offer} :
      draft.candidate? view.owner.id = some (.bound bound) →
      bound.ownOffer? view.package = some offer →
      MaySee draft view (offer.toWire view.owner)
  | copy {bound : BoundModule} {wire : Wire} :
      draft.candidate? view.owner.id = some (.bound bound) →
      draft.MayCopy bound wire → wire.package = view.package →
      MaySee draft view wire

/-- A wire leads to what a package may be taken for that its export uses. -/
def Leads (draft : Draft) (wire next : Wire) : Prop :=
  ∃ view ∈ usedViews wire, draft.MaySee view next

/-- Uses lists lead from one wire to another. -/
def Entails (draft : Draft) : Wire → Wire → Prop :=
  Relation.ReflTransGen draft.Leads

/-- The wires of the modules that a draft binds, and those of the generations that
they are wired to or have to require. -/
def standing (draft : Draft) : List Wire :=
  draft.modules.flatMap fun bound =>
    bound.wirings.values ++ bound.partners.flatMap fun partner =>
      ((draft.candidate? partner.id).map (·.wirings.values)).getD []

/-- Following uses lists from some wires leads to one exporter for a package
only, the one that the standing wires for the package name. -/
structure AgreesFrom (draft : Draft) (Starts : Wire → Prop) : Prop where
  single : ∀ {start other left right : Wire}, Starts start → Starts other →
    draft.Entails start left → draft.Entails other right →
      left.package = right.package → left.exporter.id = right.exporter.id
  standing : ∀ {start reached : Wire}, Starts start →
    draft.Entails start reached → ∀ theirs ∈ draft.standing,
      theirs.package = reached.package →
        theirs.exporter.id = reached.exporter.id

/-- There is one exporter for a package from the wires of a module on, and from
what may be visible through a bundle that it has to require. -/
structure IsUnanimous (draft : Draft) : Prop where
  wired : ∀ bound ∈ draft.modules,
    draft.AgreesFrom (· ∈ bound.wirings.values)
  provided : ∀ bound ∈ draft.modules, ∀ provision ∈ bound.needed,
    draft.AgreesFrom (draft.MayShow provision.provider)

/-- A wire to an export that its exporter offers from the beginning. -/
inductive Provides (search : Search) (draft : Draft) (wire : Wire) :
    Candidate → Prop where
  | resolved {wired : ResolvedModule} :
      ⟨wire.package, wire.declared, none⟩ ∈ wired.offers →
      search.mayExport (.resolved wired) wire.package = true →
      Provides search draft wire (.resolved wired)
  | bound {exporting : BoundModule} :
      ⟨wire.package, wire.declared, none⟩ ∈ exporting.host.offers →
      (search.index.exporters wire.package).contains exporting.host.id =
        true →
      exporting.wirings.find? wire.package = none →
      Provides search draft wire (.bound exporting)

/-- A module is bound so that another search may bind it likewise. -/
structure IsRepeatable (search : Search) (draft : Draft)
    (bound : BoundModule) : Prop where
  notFragment : bound.host.isFragment = false
  suits : search.Suits bound
  attached : ∀ fragment ∈ bound.fragments,
    draft.hostOf? fragment.id = some bound.host.id ∧
      draft.candidate? fragment.id = some (.unresolved fragment) ∧
        fragment.isFragment = true
  requested : ∀ require ∈ bound.requested, require.isOptional = false →
    ∃ provision ∈ bound.required, provision.require = require
  required : ∀ provision ∈ bound.required,
    provision.provider.id ≠ bound.host.id ∧
      Search.provides provision.require provision.provider = true ∧
      ∃ candidate, draft.candidate? provision.provider.id = some candidate ∧
        candidate.generation = provision.provider ∧
          ∀ installed, candidate ≠ .unresolved installed
  satisfied : ∀ requirement ∈ bound.demanded,
    requirement.isOptional = false →
      search.framework.bootDelegation.covers requirement.package = false →
        (∃ wire, bound.wirings.find? requirement.package = some wire ∧
          requirement.accepts wire.declared wire.exporter = true) ∨
        bound.wirings.find? requirement.package = none ∧
          ∃ offer, bound.ownOffer? requirement.package = some offer ∧
            requirement.accepts offer.declared bound.host = true
  provided : ∀ {package wire}, bound.wirings.find? package = some wire →
    wire.package = package ∧ wire.exporter.id ≠ bound.host.id ∧
      search.framework.bootDelegation.covers package = false ∧
      ∃ candidate, draft.candidate? wire.exporter.id = some candidate ∧
        candidate.generation = wire.exporter ∧
          draft.Provides search wire candidate

/-- Another search may go by a draft. -/
structure IsTemplate (search : Search) (draft : Draft) : Prop where
  repeatable : ∀ {id bound}, draft.candidate? id = some (.bound bound) →
    draft.IsRepeatable search bound
  unanimous : draft.IsUnanimous

end Draft

namespace Search

variable {search : Search}

theorem Suits.reorder
    {bound new : BoundModule} (suits : search.Suits bound)
    (reordering : Reordering) (host : new.host = reordering bound.host)
    (fragments : new.fragments = bound.fragments.map reordering) :
    search.Suits new where
  sorted := by
    rw [fragments, List.pairwise_map]
    refine suits.sorted.imp fun {left right} precedes => ?_
    unfold Policy.Precedes at precedes ⊢
    rw [(reordering.reorders left).preference,
      (reordering.reorders right).preference]
    exact precedes
  hosted := by
    rw [host, fragments]
    intro fragment member
    obtain ⟨original, listed, rfl⟩ := List.mem_map.1 member
    rw [(reordering.reorders original).isHostOf (reordering.reorders _)]
    exact suits.hosted original listed
  attachable := by
    rw [host, fragments, (reordering.reorders _).fragmentAttachment]
    intro some
    exact suits.attachable fun none => some (by rw [none, List.map_nil])
  distinct := by
    unfold DistinctNames
    rw [fragments, List.map_map]
    have same : Generation.symbolicName ∘ reordering.change =
        Generation.symbolicName :=
      funext fun generation => (reordering.reorders generation).symbolicName
    rw [same]
    exact suits.distinct

end Search

/-! ## Modules that are bound likewise -/

/-- The same wire, perhaps to a reordered exporter. -/
structure Wire.Mirrors (wire original : Wire) : Prop where
  package : wire.package = original.package
  declared : wire.declared = original.declared
  exporter : wire.exporter.Reorders original.exporter

theorem Reordering.mirrors_wire (reordering : Reordering) (wire : Wire) :
    (reordering.wire wire).Mirrors wire :=
  ⟨rfl, rfl, reordering.reorders wire.exporter⟩

/-- A copy of what a bundle shows that the module has to re-export. -/
def Draft.AllowsCopy (draft : Draft) (bound : BoundModule) (offer : Offer) :
    Prop :=
  ∃ wire original : Wire, draft.MayCopy bound original ∧
    wire.Mirrors original ∧
      offer = ⟨wire.package, wire.declared, some wire.exporter⟩

/-- A module is bound with the fragments of another, or none yet.  It has providers
and wires like that, as far as it has any. -/
structure BoundModule.Keeps (template : Draft) (reordering : Reordering)
    (bound new : BoundModule) : Prop where
  host : new.host = reordering bound.host
  fragments : new.fragments = [] ∨
    new.fragments = bound.fragments.map reordering
  imports : new.imports ⊆ new.demanded
  requires : new.requires ⊆ new.requested
  keyed : new.wirings.IsKeyed
  wirings : ∀ {package wire}, new.wirings.find? package = some wire →
    ∃ original, bound.wirings.find? package = some original ∧
      wire = reordering.wire original
  required : ∀ provision ∈ new.required, ∃ original ∈ bound.needed,
    provision = reordering.provision original
  offers : new.OffersOwn (template.AllowsCopy bound)

namespace BoundModule

variable {template : Draft} {reordering : Reordering}
  {bound new : BoundModule}

theorem keeps_of
    (template : Draft) (reordering : Reordering) (bound : BoundModule) :
    bound.Keeps template reordering (.of (reordering bound.host)) where
  host := rfl
  fragments := .inl rfl
  imports := by
    change (reordering bound.host).imports ⊆
      [reordering bound.host].flatMap Generation.imports
    simp
  requires := by
    change (reordering bound.host).manifest.requires ⊆
      [reordering bound.host].flatMap (·.manifest.requires)
    simp
  keyed := Wirings.isKeyed_empty
  wirings := fun found => by cases found
  required := fun _ member => by cases member
  offers := .of_takesOn (.nil _)

namespace Keeps

/-- The module has taken on the fragments of the other. -/
theorem of_takesOn
    (taken : (BoundModule.of (reordering bound.host)).TakesOn
      (bound.fragments.map reordering) new) :
    bound.Keeps template reordering new where
  host := taken.host
  fragments := .inr taken.fragments
  imports := by
    have imports := taken.imports_eq fun _ => rfl
    unfold demanded
    rw [imports, taken.host, taken.fragments]
    exact List.Subset.refl _
  requires := by
    intro require member
    unfold requested
    rw [taken.host, taken.fragments, List.flatMap_cons]
    rcases taken.mem_requires member with own | ⟨fragment, listed, asked⟩
    · exact List.mem_append_left _ own
    · exact List.mem_append_right _ (List.mem_flatMap.2
        ⟨fragment, listed, asked⟩)
  keyed := taken.wirings ▸ Wirings.isKeyed_empty
  wirings := by
    intro package wire found
    rw [taken.wirings] at found
    cases found
  required := by
    intro provision member
    rw [taken.required] at member
    cases member
  offers := .of_takesOn taken

/-- The module requires what the other does, once it has its fragments. -/
theorem requested_eq
    (keeps : bound.Keeps template reordering new)
    (joined : new.fragments = bound.fragments.map reordering) :
    new.requested = bound.requested := by
  have same : (fun generation : Generation =>
      (reordering.change generation).manifest.requires) =
        fun generation => generation.manifest.requires :=
    funext fun generation => (reordering.reorders generation).requires
  unfold requested
  rw [keeps.host, joined, List.flatMap_cons, List.flatMap_cons,
    (reordering.reorders bound.host).requires, List.flatMap_map, same]

/-- It imports what the other does. -/
theorem mem_demanded
    {requirement : PackageImport}
    (keeps : bound.Keeps template reordering new)
    (joined : new.fragments = bound.fragments.map reordering) :
    requirement ∈ new.demanded ↔ requirement ∈ bound.demanded := by
  unfold demanded
  rw [keeps.host, joined, ← List.map_cons, List.flatMap_map]
  simp only [List.mem_flatMap, (reordering.reorders _).mem_imports]

theorem leaveRequire
    {rest : List Require} {require : Require}
    (keeps : bound.Keeps template reordering new)
    (next : new.requires = require :: rest) :
    bound.Keeps template reordering { new with requires := rest } :=
  { keeps with
    requires := fun _ member =>
      keeps.requires (next ▸ List.mem_cons_of_mem _ member) }

/-- The module has the provider for its next require that the other has. -/
theorem provide
    {rest : List Require} {original : Provision} {visible : List Wire}
    (keeps : bound.Keeps template reordering new)
    (next : new.requires = original.require :: rest)
    (needed : original ∈ bound.needed)
    (shown : ∀ wire ∈ visible, ∃ theirs,
      template.MayShow original.provider theirs ∧ wire.Mirrors theirs) :
    bound.Keeps template reordering
      ({ new with requires := rest }.addProvision
        (reordering.provision original) visible) where
  host := keeps.host
  fragments := keeps.fragments
  imports := keeps.imports
  requires := fun _ member =>
    keeps.requires (next ▸ List.mem_cons_of_mem _ member)
  keyed := keeps.keyed
  wirings := keeps.wirings
  required := by
    intro provision member
    rcases List.mem_append.1 member with old | isNew
    · exact keeps.required provision old
    · exact ⟨original, needed, List.mem_singleton.1 isNew⟩
  offers := by
    have offers : BoundModule.OffersOwn (template.AllowsCopy bound)
      { new with requires := rest } := keeps.offers
    refine offers.addProvision fun reexported wire visibly => ?_
    obtain ⟨theirs, shows, mirrors⟩ := shown wire visibly
    exact ⟨wire, theirs, ⟨original, needed, reexported, shows⟩, mirrors, rfl⟩

theorem leaveImport
    {requirement : PackageImport} {rest : List PackageImport}
    (keeps : bound.Keeps template reordering new)
    (next : new.imports = requirement :: rest) :
    bound.Keeps template reordering { new with imports := rest } :=
  { keeps with
    imports := fun _ member =>
      keeps.imports (next ▸ List.mem_cons_of_mem _ member) }

/-- The module is wired for its next import as the other is. -/
theorem wire
    {requirement : PackageImport} {rest : List PackageImport}
    {original : Wire} (keeps : bound.Keeps template reordering new)
    (next : new.imports = requirement :: rest)
    (held : bound.wirings.find? original.package = some original) :
    bound.Keeps template reordering { new with
      imports := rest
      wirings := new.wirings.insert original.package
        (reordering.wire original)
      offers := new.offers.filter (·.package ≠ original.package) } where
  host := keeps.host
  fragments := keeps.fragments
  imports := fun _ member =>
    keeps.imports (next ▸ List.mem_cons_of_mem _ member)
  requires := keeps.requires
  keyed := keeps.keyed.insert (reordering.wire original)
  wirings := by
    intro package wire found
    change (Table.insert new.wirings original.package
      (reordering.wire original)).find? package = some wire at found
    rw [Table.find?_insert] at found
    split at found
    · rename_i same
      cases found
      exact ⟨original, same ▸ held, rfl⟩
    · exact keeps.wirings found
  required := keeps.required
  offers := keeps.offers.wire rest

/-- The module exports what the other does, once it has its fragments. -/
theorem ownOffer?_of_joined
    (keeps : bound.Keeps template reordering new)
    (joined : new.fragments = bound.fragments.map reordering)
    (package : String) :
    new.ownOffer? package = bound.ownOffer? package := by
  have offers := reordering.flatMap_offers (bound.host :: bound.fragments)
  unfold ownOffer? ownOffers
  rw [keeps.host, joined, ← List.map_cons, offers]

/-- What the module exports, the other exports as well. -/
theorem exists_ownOffers_eq
    (keeps : bound.Keeps template reordering new) :
    ∃ more, bound.ownOffers = new.ownOffers ++ more := by
  unfold ownOffers
  rcases keeps.fragments with alone | joined
  · rw [keeps.host, alone, List.flatMap_cons, List.flatMap_cons,
      (reordering.reorders bound.host).offers, List.flatMap_nil,
      List.append_nil]
    exact ⟨_, rfl⟩
  · have offers := reordering.flatMap_offers (bound.host :: bound.fragments)
    rw [keeps.host, joined, ← List.map_cons, offers]
    exact ⟨[], (List.append_nil _).symm⟩

/-- What the module exports first for a package, the other does as well. -/
theorem ownOffer?_eq
    {package : String} {offer : Offer}
    (keeps : bound.Keeps template reordering new)
    (found : new.ownOffer? package = some offer) :
    bound.ownOffer? package = some offer := by
  obtain ⟨more, offers⟩ := keeps.exists_ownOffers_eq
  unfold ownOffer? at found ⊢
  rw [offers, List.find?_append, found]
  rfl

end Keeps

end BoundModule

end ModuleWiring
