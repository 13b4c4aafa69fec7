import ModuleWiring.Generation.Basic

/-!
# The index of exported packages
-/

namespace ModuleWiring

/-- The generations that export each package by their own manifests. Packages
are in the order in which they came up. -/
abbrev PackageIndex : Type :=
  Table String (List GenerationId)

namespace PackageIndex

def exporters (index : PackageIndex) (package : String) :
    List GenerationId :=
  (index.find? package).getD []

def addPackage (id : GenerationId) (index : PackageIndex)
    (package : String) : PackageIndex :=
  if (index.exporters package).contains id then
    index
  else
    index.insert package (index.exporters package ++ [id])

/-- Note all packages that a generation exports. -/
def add (index : PackageIndex) (generation : Generation) : PackageIndex :=
  (generation.manifest.exports.flatMap Export.packages).foldl
    (addPackage generation.id) index

/-- Forget an exporter, and the packages that nobody exports any more. -/
def remove (index : PackageIndex) (id : GenerationId) : PackageIndex :=
  (index.mapValues (·.filter (· ≠ id))).filter (!·.2.isEmpty)

end PackageIndex

end ModuleWiring
