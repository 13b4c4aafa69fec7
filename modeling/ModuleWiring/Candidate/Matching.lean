import ModuleWiring.Generation.Basic

/-!
# Imports met by exports
-/

namespace ModuleWiring

/-- One package of an import: a requirement that one wire can meet. -/
structure PackageImport where
  package : String
  wanted : Import
  deriving DecidableEq, Repr

namespace PackageImport

def isOptional (requirement : PackageImport) : Bool :=
  requirement.wanted.isOptional

/-- The bundle that exports the package is one that the import allows. -/
def acceptsBundle
    (requirement : PackageImport) (exporter : Generation) : Bool :=
  requirement.wanted.bundle.all (· = exporter.symbolicName) &&
    requirement.wanted.bundleRange.all (·.includes exporter.version)

/-- An attribute of the import agrees with the export if that has it too, unless
it is matched by rules of its own. -/
def acceptsAttribute (declared : Export) (wanted : String × String) :
    Bool :=
  Key.unmatched.contains wanted.1 ||
    (declared.parameters.attribute? wanted.1).all (· = wanted.2)

/-- An attribute that the export insists on is given by both sides, and
alike. -/
def namesMandatory
    (wanted : Import) (declared : Export) (key : String) : Bool :=
  match wanted.parameters.attribute? key,
      declared.parameters.attribute? key with
  | some imported, some exported => imported = exported
  | _, _ => false

/-- Whether an export of a bundle meets the requirement. -/
def accepts (requirement : PackageImport)
    (declared : Export) (exporter : Generation) : Bool :=
  declared.exportsPackage requirement.package &&
    requirement.wanted.range.includes declared.version &&
    requirement.acceptsBundle exporter &&
    requirement.wanted.parameters.attributes.entries.all
      (acceptsAttribute declared) &&
    declared.mandatory.all (namesMandatory requirement.wanted declared)

end PackageImport

/-- The requirements of an import, one for each package. -/
def Import.requirements (wanted : Import) : List PackageImport :=
  wanted.packages.map fun package => ⟨package, wanted⟩

/-- The requirements that the manifest of a generation lists. -/
def Generation.imports (generation : Generation) : List PackageImport :=
  generation.manifest.imports.flatMap Import.requirements

end ModuleWiring
