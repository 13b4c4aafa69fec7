import ModuleWiring.Draft.Transition
import ModuleWiring.Draft.Uses
import ModuleWiring.Policy
import ModuleWiring.Resolver.Framework
import ModuleWiring.Resolver.PackageIndex
import ModuleWiring.Subsets

/-!
# What a search may choose from

The providers of an import, the providers of a require, the hosts of a fragment
and the fragments of a host, each in the order in which they are tried.
-/

namespace ModuleWiring

/-- What a search is told besides its draft. -/
structure Search where
  framework : Framework
  policy : Policy
  index : PackageIndex

/-- The groups of exporters, in the order in which they are tried. -/
inductive ExporterGroup where
  | settled
  | idle
  | unresolved
  | inProgress
  deriving DecidableEq, Repr

/-- An export that could meet an import, and the generation that offers it. -/
structure WireChoice where
  exporter : Generation
  declared : Export
  deriving DecidableEq, Repr

/-- What decides the order in which exports are tried. -/
def WireChoice.preference (choice : WireChoice) : Version × GenerationId :=
  (choice.declared.version, choice.exporter.id)

namespace Search

/-- Whether a candidate is worth looking at for a package: the index knows what
is exported by the manifests of hosts, not what fragments add. -/
def mayExport (search : Search) (candidate : Candidate) (package : String) :
    Bool :=
  !candidate.fragments.isEmpty ||
    (search.index.exporters package).contains candidate.id

/-- The group that a candidate belongs to as an exporter, if it may be one. The
candidate that is being decided is none, nor is a fragment or what is not free
to be bound. -/
def group? (draft : Draft) (candidate : Candidate) : Option ExporterGroup :=
  if draft.resolving = some candidate.id then
    none
  else
    match candidate with
    | .resolved _ =>
        if draft.used.contains candidate.id then some .settled
        else some .idle
    | .bound _ =>
        if draft.isSettled candidate.id then some .settled
        else some .inProgress
    | .unresolved installed =>
        if installed.isFragment || !draft.unused.contains candidate.id then
          none
        else
          some .unresolved

/-- The exports of a candidate's own that meet a requirement. What it re-exports
is offered by the source. -/
def choicesOf (requirement : PackageImport) (candidate : Candidate) :
    List WireChoice :=
  (candidate.offers.filter fun offer =>
    offer.source.isNone && offer.package = requirement.package &&
      requirement.accepts offer.declared candidate.generation).map
        fun offer => ⟨candidate.generation, offer.declared⟩

def groupChoices (search : Search) (draft : Draft)
    (requirement : PackageImport) (group : ExporterGroup) :
    List WireChoice :=
  search.policy.sort WireChoice.preference
    ((draft.candidates.members.filter fun candidate =>
      group? draft candidate = some group &&
        search.mayExport candidate requirement.package).flatMap
          (choicesOf requirement))

/-- The exports that could meet an import: first those of settled candidates,
then of idle ones, of unresolved ones, and of those in progress. -/
def wireChoices (search : Search) (draft : Draft)
    (requirement : PackageImport) : List WireChoice :=
  [.settled, .idle, .unresolved, .inProgress].flatMap
    (search.groupChoices draft requirement)

/-- A generation that could be the required bundle. -/
def provides (require : Require) (generation : Generation) : Bool :=
  !generation.isFragment && generation.symbolicName = require.symbolicName &&
    require.range.includes generation.version

/-- The generations among some that could meet a require. -/
def providersAmong (search : Search) (draft : Draft) (require : Require)
    (ids : IdSet) : List Generation :=
  search.policy.sort Generation.preference
    ((ids.members.filterMap draft.generation?).filter fun generation =>
      draft.resolving ≠ some generation.id && provides require generation)

/-- The generations that could meet a require, those in use first. -/
def requireChoices (search : Search) (draft : Draft) (require : Require) :
    List Generation :=
  search.providersAmong draft require draft.used ++
    search.providersAmong draft require draft.unused

/-- Candidates of one stage of resolution, as hosts. -/
def hostsAmong (search : Search) (draft : Draft) (fragment : Generation)
    (stage : Candidate → Bool) : List Generation :=
  search.policy.sort Generation.preference
    (((draft.candidates.members.filter stage).map
      Candidate.generation).filter (search.framework.isHostOf fragment))

def isResolved : Candidate → Bool
  | .resolved _ => true
  | _ => false

def isBound : Candidate → Bool
  | .bound _ => true
  | _ => false

def isUnresolved : Candidate → Bool
  | .unresolved _ => true
  | _ => false

/-- The hosts that a fragment could attach to: resolved ones first, then bound
ones, then unresolved ones. -/
def hostChoices (search : Search) (draft : Draft) (fragment : Generation) :
    List Generation :=
  [isResolved, isBound, isUnresolved].flatMap
    (search.hostsAmong draft fragment)

/-- Whether a candidate is a fragment that no host has claimed. -/
def isFreeFragment (draft : Draft) (candidate : Candidate) : Bool :=
  isUnresolved candidate && candidate.generation.isFragment &&
    draft.unused.contains candidate.id &&
    !draft.attached.contains candidate.id

def fragmentChoices (search : Search) (draft : Draft) (host : Generation) :
    List Generation :=
  search.policy.sort Generation.preference
    (((draft.candidates.members.filter (isFreeFragment draft)).map
      Candidate.generation).filter fun fragment =>
        search.framework.isHostOf fragment host)

/-- Whether the next import may be left without a wire since the module offers
the package itself: its first offer has to meet the import. -/
def isSelfServed (bound : BoundModule) (requirement : PackageImport) : Bool :=
  match bound.offers.find? (·.package = requirement.package) with
  | none => false
  | some offer =>
      requirement.accepts offer.declared (offer.exporter bound.host)

/-- Whether an export may meet the next import of a bound module: what follows
from it must agree with what the module and the others are committed to. -/
def isWireConsistent (draft : Draft) (bound : BoundModule)
    (package : String) (choice : WireChoice) : Bool :=
  draft.agrees
    (draft.implied ⟨package, choice.declared, choice.exporter⟩ ++
      draft.accepted bound)

/-- Whether a provider may meet the next require: what follows from the packages
that become visible must agree with what the module and the others are committed
to. -/
def isRequireConsistent (draft : Draft) (provider : Generation) : Bool :=
  let accepted :=
    match draft.resolvingBound? with
    | none => []
    | some bound => draft.accepted bound
  draft.agrees
    (accepted ++ (draft.visible provider).flatMap draft.implied)

end Search

end ModuleWiring
