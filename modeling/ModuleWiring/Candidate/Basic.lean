import ModuleWiring.Candidate.Incompatible
import ModuleWiring.Candidate.Matching
import ModuleWiring.Store

/-!
# Candidates

A candidate is a generation as a search sees it: untouched, resolved before, or
being bound by the search itself.
-/

namespace ModuleWiring

/-- A package that a candidate offers. A re-exported one has a source other than
the candidate. -/
structure Offer where
  package : String
  declared : Export
  source : Option Generation
  deriving DecidableEq, Repr

/-- The generation that really exports an offer of `owner`. -/
def Offer.exporter (offer : Offer) (owner : Generation) : Generation :=
  offer.source.getD owner

def Offer.toWire (offer : Offer) (owner : Generation) : Wire :=
  ⟨offer.package, offer.declared, offer.exporter owner⟩

/-- A required bundle and the generation chosen for it. -/
structure Provision where
  require : Require
  provider : Generation
  deriving DecidableEq, Repr

def Generation.offers (generation : Generation) : List Offer :=
  generation.manifest.exports.flatMap fun declared =>
    declared.packages.map fun package => ⟨package, declared, none⟩

/-- Offer re-exported packages as well; those offered already stay as they
are. -/
def reexport (offers : List Offer) (visible : List Wire) : List Offer :=
  visible.foldl (fun offers wire =>
    if offers.any (·.package = wire.package) then
      offers
    else
      offers ++ [⟨wire.package, wire.declared, some wire.exporter⟩]) offers

abbrev Wirings : Type :=
  Table String Wire

def Wirings.ofList (wires : List Wire) : Wirings :=
  Table.ofList (wires.map fun wire => (wire.package, wire))

/-- A generation that was resolved before the search. -/
structure ResolvedModule where
  generation : Generation
  fragments : List Generation
  offers : List Offer
  wirings : Wirings
  required : List Provision

/-- A resolved generation with the wiring that the store has for it. -/
def ResolvedModule.of (store : Store) (generation : Generation) :
    ResolvedModule :=
  let fragments := store.fragments generation
  let requiredWires := store.requiredWires generation
  let own := generation.offers ++ fragments.flatMap Generation.offers
  { generation := generation
    fragments := fragments
    offers :=
      (requiredWires.filter (·.reexport)).foldl
        (fun offers required => reexport offers required.wires) own
    wirings := Wirings.ofList (store.wires generation)
    required :=
      requiredWires.map fun required =>
        ⟨required.require, required.exporter⟩ }

/-- A host that the search binds, with its fragments. Imports and requires wait
to be decided; wirings and provisions record the decisions. -/
structure BoundModule where
  host : Generation
  fragments : List Generation
  imports : List PackageImport
  requires : List Require
  offers : List Offer
  wirings : Wirings
  required : List Provision

namespace BoundModule

/-- A host of which nothing has been decided. -/
def of (host : Generation) : BoundModule where
  host := host
  fragments := []
  imports := host.imports
  requires := host.manifest.requires
  offers := host.offers
  wirings := ∅
  required := []

/-- A resolved host that is bound again and keeps its wiring. -/
def reopen (resolved : ResolvedModule) : BoundModule where
  host := resolved.generation
  fragments := resolved.fragments
  imports := []
  requires := []
  offers := resolved.offers
  wirings := resolved.wirings
  required := resolved.required

/-- The imports of a fragment that the host still has to decide. One that is
wired already has to accept the wire. -/
def pendingImports (bound : BoundModule) (fragment : Generation) :
    List PackageImport → Except Incompatible (List PackageImport)
  | [] => .ok []
  | requirement :: rest =>
      match bound.wirings.find? requirement.package with
      | none => do
          return requirement :: (← bound.pendingImports fragment rest)
      | some wire =>
          if requirement.accepts wire.declared wire.exporter then
            bound.pendingImports fragment rest
          else
            .error (.fragmentAttachment fragment.id bound.host.id
              (.unsatisfiedImport requirement.package wire.exporter))

/-- The requires of a fragment that the host has not decided. -/
def pendingRequires (bound : BoundModule) (fragment : Generation) :
    List Require :=
  fragment.manifest.requires.filter fun require =>
    !bound.required.any (·.require.symbolicName = require.symbolicName)

/-- Take on a fragment with what it needs and offers. -/
def attach (bound : BoundModule) (fragment : Generation) :
    Except Incompatible BoundModule := do
  if bound.fragments.any (·.symbolicName = fragment.symbolicName) then
    throw (.fragmentAttachment fragment.id bound.host.id
      (.sameName fragment.symbolicName))
  let imports ← bound.pendingImports fragment fragment.imports
  return { bound with
    fragments := bound.fragments ++ [fragment]
    imports := bound.imports ++ imports
    requires := bound.requires ++ bound.pendingRequires fragment
    offers := bound.offers ++ fragment.offers }

/-- Wire a package. There is one wire for a package at most, and it takes the
place of the host's own offers. -/
def addWiring (bound : BoundModule) (wire : Wire) :
    Except Incompatible BoundModule :=
  if bound.wirings.contains wire.package then
    .error (.duplicateWiring bound.host.id wire.package)
  else
    .ok { bound with
      wirings := bound.wirings.insert wire.package wire
      offers := bound.offers.filter (·.package ≠ wire.package) }

/-- Provide a required bundle. What is visible through it is offered as well if
it is re-exported. -/
def addProvision (bound : BoundModule) (provision : Provision)
    (visible : List Wire) : BoundModule :=
  { bound with
    offers :=
      if provision.require.isReexport then
        reexport bound.offers visible
      else
        bound.offers
    required := bound.required ++ [provision] }

end BoundModule

/-- A generation as a search sees it. -/
inductive Candidate where
  | unresolved (installed : Generation)
  | resolved (wired : ResolvedModule)
  | bound (binding : BoundModule)

namespace Candidate

def generation : Candidate → Generation
  | .unresolved installed => installed
  | .resolved wired => wired.generation
  | .bound binding => binding.host

def id (candidate : Candidate) : GenerationId :=
  candidate.generation.id

def offers : Candidate → List Offer
  | .unresolved installed => installed.offers
  | .resolved wired => wired.offers
  | .bound binding => binding.offers

/-- The first offer of a package. -/
def offer? (candidate : Candidate) (package : String) : Option Offer :=
  candidate.offers.find? (·.package = package)

def wirings : Candidate → Wirings
  | .unresolved _ => ∅
  | .resolved wired => wired.wirings
  | .bound binding => binding.wirings

def required : Candidate → List Provision
  | .unresolved _ => []
  | .resolved wired => wired.required
  | .bound binding => binding.required

def fragments : Candidate → List Generation
  | .unresolved _ => []
  | .resolved wired => wired.fragments
  | .bound binding => binding.fragments

/-- The module that a candidate binds. -/
def bound? : Candidate → Option BoundModule
  | .bound binding => some binding
  | _ => none

/-- Candidates stand for the same generation if their identities agree, however
far their wiring has come. -/
def same (left right : Candidate) : Bool :=
  left.id = right.id

end Candidate

def Wire.samePackage (left right : Wire) : Bool :=
  left.package = right.package

end ModuleWiring
