import ModuleWiring.Manifest.Clause
import ModuleWiring.Manifest.Directive

/-!
# Imported packages
-/

namespace ModuleWiring

/-- Packages that a module imports together, under the same conditions. Names
are listed once each. -/
structure Import where
  packages : List String
  range : VersionRange
  bundle : Option String
  bundleRange : Option VersionRange
  resolution : Resolution
  parameters : Parameters
  deriving DecidableEq, Repr

namespace Import

/-- A mandatory import of any version from any bundle. -/
def of (packages : List String) : Import :=
  ⟨packages.eraseDups, VersionRange.everything, none, none, .mandatory,
    Parameters.none⟩

def withAttribute (wanted : Import) (key value : String) : Import :=
  { wanted with parameters := wanted.parameters.withAttribute key value }

/-- The same import, but one that may stay unmet. -/
def asOptional (wanted : Import) : Import :=
  { wanted with resolution := .optional }

def isOptional (wanted : Import) : Bool :=
  wanted.resolution = .optional

/-- Read an import from a clause. -/
def ofClause (clause : Clause) : Except ManifestError Import := do
  let first := clause.paths.headD ""
  let range ←
    match ← clause.parameters.packageVersion? first with
    | none => pure VersionRange.everything
    | some text => ManifestError.ofVersion (VersionRange.parse text)
  let bundleRange ← clause.parameters.range? Key.bundleVersion
  let resolution ←
    Resolution.ofDirective (clause.parameters.directive? Key.resolution)
  return {
    packages := clause.paths.eraseDups
    range := range
    bundle := clause.parameters.attribute? Key.bundleSymbolicName
    bundleRange := bundleRange
    resolution := resolution
    parameters := clause.parameters }

/-- The first name that occurs a second time. -/
def repeated? : List String → List String → Option String
  | _, [] => none
  | seen, name :: names =>
      if name ∈ seen then some name else repeated? (name :: seen) names

/-- Read the value of an `Import-Package` header. No two clauses import the same
package. -/
def parse (text : String) : Except ManifestError (List Import) := do
  let imports ← (← Clause.parseHeader "Import-Package" text).mapM ofClause
  match repeated? [] (imports.flatMap Import.packages) with
  | some package => throw (.duplicateImport package)
  | none => return imports

/-- Read the value of a `DynamicImport-Package` header, where names may end in
`*` and may be repeated. -/
def parseDynamic (text : String) : Except ManifestError (List Import) := do
  (← Clause.parseHeader "DynamicImport-Package" text).mapM ofClause

end Import

end ModuleWiring
