import ModuleWiring.Manifest.Clause
import ModuleWiring.Manifest.Directive

/-!
# Required bundles
-/

namespace ModuleWiring

/-- A bundle that a module requires as a whole. -/
structure Require where
  symbolicName : String
  range : VersionRange
  resolution : Resolution
  visibility : Visibility
  parameters : Parameters
  deriving DecidableEq, Repr

namespace Require

def of (symbolicName : String) : Require :=
  ⟨symbolicName, VersionRange.everything, .mandatory, .concealed,
    Parameters.none⟩

def isOptional (wanted : Require) : Bool :=
  wanted.resolution = .optional

/-- Whether the packages of the bundle are passed on. -/
def isReexport (wanted : Require) : Bool :=
  wanted.visibility = .reexport

/-- Read the requirements of a clause, one for each bundle that it names. -/
def ofClause (clause : Clause) : Except ManifestError (List Require) := do
  let range ← clause.parameters.range? Key.bundleVersion
  let resolution ←
    Resolution.ofDirective (clause.parameters.directive? Key.resolution)
  let visibility ←
    Visibility.ofDirective (clause.parameters.directive? Key.visibility)
  return clause.paths.map fun name =>
    ⟨name, range.getD VersionRange.everything, resolution, visibility,
      clause.parameters⟩

def parse (text : String) : Except ManifestError (List Require) := do
  let requires ←
    (← Clause.parseHeader "Require-Bundle" text).mapM ofClause
  return requires.flatten

end Require

end ModuleWiring
