import ModuleWiring.Candidate.Matching
import ModuleWiring.Resolver.PackageIndex

/-!
# Expansion of dynamic imports

A name that ends in `*` stands for the indexed packages that start with what is
before the `*`. Such packages are imported if that is possible; a package named
in full is imported under the conditions of the clause.
-/

namespace ModuleWiring

/-- The packages that a name stands for, and whether it is a wildcard. -/
def PackageIndex.expandName (index : PackageIndex) (name : String) :
    List String × Bool :=
  if name.toList.getLast? = some '*' then
    (index.keys.filter fun package =>
      name.toList.dropLast.isPrefixOf package.toList, true)
  else
    ([name], false)

/-- Add requirements for packages that have none yet. -/
def addRequirements (wanted : Import) (requirements : List PackageImport)
    (packages : List String) : List PackageImport :=
  packages.foldl (fun requirements package =>
    if requirements.any (·.package = package) then requirements
    else requirements ++ [⟨package, wanted⟩]) requirements

/-- Add the requirements of one name of a dynamic import. -/
def Import.expandName (wanted : Import) (index : PackageIndex)
    (requirements : List PackageImport) (name : String) :
    List PackageImport :=
  let (packages, isWildcard) := index.expandName name
  addRequirements (if isWildcard then wanted.asOptional else wanted)
    requirements packages

/-- The requirements of a dynamic import, one for each package. -/
def Import.expand (wanted : Import) (index : PackageIndex) :
    List PackageImport :=
  wanted.packages.foldl (wanted.expandName index) []

end ModuleWiring
