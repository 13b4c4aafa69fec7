import ModuleWiring.Manifest.Clause
import ModuleWiring.Manifest.Directive

/-!
# Exported packages
-/

namespace ModuleWiring

/-- Packages that a module exports together, under the same attributes. Names
are listed once each. -/
structure Export where
  packages : List String
  version : Version
  uses : List String
  mandatory : List String
  parameters : Parameters
  deriving DecidableEq, Repr

namespace Export

def of (packages : List String) (version : Version) : Export :=
  ⟨packages.eraseDups, version, [], [], Parameters.none⟩

def withUses (declared : Export) (uses : List String) : Export :=
  { declared with uses := (declared.uses ++ uses).eraseDups }

def withAttribute (declared : Export) (key value : String) : Export :=
  { declared with
    parameters := declared.parameters.withAttribute key value }

/-- Give the export an attribute that importers have to name. -/
def withMandatory (declared : Export) (key value : String) : Export :=
  { declared.withAttribute key value with
    mandatory := (declared.mandatory ++ [key]).eraseDups }

def exportsPackage (declared : Export) (package : String) : Bool :=
  declared.packages.contains package

def directiveList (parameters : Parameters) (key : String) : List String :=
  match parameters.directive? key with
  | none => []
  | some text => (Text.listed text).eraseDups

/-- The bundle is known from the manifest, so an export may not name it. -/
def refuseReserved (package : String) (parameters : Parameters) :
    List String → Except ManifestError Unit
  | [] => .ok ()
  | key :: keys =>
      if (parameters.attribute? key).isSome then
        .error (.reservedAttribute package key)
      else
        refuseReserved package parameters keys

/-- Read an export from a clause. -/
def ofClause (clause : Clause) : Except ManifestError Export := do
  let first := clause.paths.headD ""
  refuseReserved first clause.parameters
    [Key.bundleSymbolicName, Key.bundleVersion]
  let version ←
    match ← clause.parameters.packageVersion? first with
    | none => pure Version.zero
    | some text => ManifestError.ofVersion (Version.parse text)
  return {
    packages := clause.paths.eraseDups
    version := version
    uses := directiveList clause.parameters Key.uses
    mandatory := directiveList clause.parameters Key.mandatory
    parameters := clause.parameters }

def parse (text : String) : Except ManifestError (List Export) := do
  (← Clause.parseHeader "Export-Package" text).mapM ofClause

end Export

end ModuleWiring
