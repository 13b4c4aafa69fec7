import ModuleWiring.Generation.Id
import ModuleWiring.Manifest.Basic

/-!
# Generations

A generation is one installed incarnation of a module. Two installations may
bear the same identity one after the other; their serial numbers tell them
apart.
-/

namespace ModuleWiring

/-- Where a generation is in its life. -/
inductive State where
  | installed
  | resolved
  | starting
  | active
  | stopping
  | uninstalled
  deriving DecidableEq, Repr, Inhabited

namespace State

/-- Whether a generation in this state carries a wiring. -/
def isResolved : State → Bool
  | .resolved | .starting | .active | .stopping => true
  | .installed | .uninstalled => false

def name : State → String
  | .installed => "Installed"
  | .resolved => "Resolved"
  | .starting => "Starting"
  | .active => "Active"
  | .stopping => "Stopping"
  | .uninstalled => "Uninstalled"

end State

/-- What a generation is to the others. -/
inductive Kind where
  | bundle
  | fragment
  | frameworkExtension
  deriving DecidableEq, Repr

/-- An installed incarnation of a module. -/
structure Generation where
  serial : Nat
  id : GenerationId
  manifest : Manifest
  deriving DecidableEq, Repr

namespace Generation

def symbolicName (generation : Generation) : String :=
  generation.manifest.symbolicName

def version (generation : Generation) : Version :=
  generation.manifest.version

/-- Whether only one generation of this name may be used at a time. -/
def isSingleton (generation : Generation) : Bool :=
  generation.manifest.singleton

/-- The kind that the manifest makes of the module. -/
def kind (generation : Generation) : Kind :=
  match generation.manifest.fragmentHost with
  | none => .bundle
  | some host =>
      match host.extensionKind with
      | none => .fragment
      | some _ => .frameworkExtension

/-- Fragments and framework extensions attach to a host. -/
def isFragment (generation : Generation) : Bool :=
  generation.kind ≠ .bundle

/-- What decides the order in which generations are tried. -/
def preference (generation : Generation) : Version × GenerationId :=
  (generation.version, generation.id)

def label (generation : Generation) : String :=
  generation.symbolicName ++ " " ++ generation.version.render

def render (generation : Generation) : String :=
  generation.symbolicName ++ "_" ++ generation.version.render ++ " [" ++
    generation.id.render ++ "]"

instance : ToString Generation :=
  ⟨render⟩

end Generation

end ModuleWiring
