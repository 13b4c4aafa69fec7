import ModuleWiring.Generation.Basic

/-!
# Solutions

A solution says how one host is wired: which fragments it takes on, which
generation serves each of its packages, and which bundles it requires.
-/

namespace ModuleWiring

/-- A package, the export that offers it, and the generation behind it. -/
structure Wire where
  package : String
  declared : Export
  exporter : Generation
  deriving DecidableEq, Repr

/-- A required bundle with the packages that become visible through it. -/
structure RequiredWire where
  require : Require
  exporter : Generation
  reexport : Bool
  wires : List Wire
  deriving DecidableEq, Repr

/-- The wiring of one host. -/
structure Solution where
  host : Generation
  fragments : List Generation
  wires : List Wire
  required : List RequiredWire
  deriving DecidableEq, Repr

namespace Solution

def wire? (solution : Solution) (package : String) : Option Wire :=
  solution.wires.find? fun wire => wire.package = package

def requiredWire? (solution : Solution) (symbolicName : String) :
    Option RequiredWire :=
  solution.required.find? fun wire =>
    wire.exporter.symbolicName = symbolicName

def members (solution : Solution) : List Generation :=
  solution.host :: solution.fragments

/-- Every generation that the solution speaks of. -/
def mentioned (solution : Solution) : List Generation :=
  solution.members ++ solution.wires.map Wire.exporter ++
    solution.required.flatMap fun required =>
      required.exporter :: required.wires.map Wire.exporter

/-- What is left of a solution when only some generations are still there;
nothing if the host is gone. -/
def restrict (solution : Solution) (present : Generation → Bool) :
    Option Solution :=
  if present solution.host then
    some {
      host := solution.host
      fragments := solution.fragments.filter present
      wires := solution.wires.filter fun wire => present wire.exporter
      required :=
        (solution.required.filter fun required =>
          present required.exporter).map fun required =>
            { required with
              wires := required.wires.filter fun wire =>
                present wire.exporter } }
  else
    none

theorem wires_sublist_of_restrict {solution left : Solution}
    {present : Generation → Bool}
    (kept : solution.restrict present = some left) :
    left.wires.Sublist solution.wires := by
  unfold restrict at kept
  split at kept
  · cases kept
    exact List.filter_sublist
  · cases kept

theorem required_exporters_sublist_of_restrict {solution left : Solution}
    {present : Generation → Bool}
    (kept : solution.restrict present = some left) :
    (left.required.map RequiredWire.exporter).Sublist
      (solution.required.map RequiredWire.exporter) := by
  unfold restrict at kept
  split at kept
  · cases kept
    rw [List.map_map]
    exact List.filter_sublist.map RequiredWire.exporter
  · cases kept

end Solution

end ModuleWiring
