import ModuleWiring.Text.Blank

/-!
# Boot delegation

The packages that the host runtime serves itself, so that they are never wired.
-/

namespace ModuleWiring

/-- Packages served by the host runtime: all of them, some by name, and those
below a stem that ends in a dot. -/
structure BootDelegation where
  everything : Bool
  exact : List String
  stems : List String
  deriving DecidableEq, Repr

namespace BootDelegation

def none : BootDelegation :=
  ⟨false, [], []⟩

instance : Inhabited BootDelegation :=
  ⟨none⟩

/-- Add an entry: `*` for everything, `stem.*` for the packages below `stem`,
or the name of a package. Blank entries and other names that end in `*` say
nothing. -/
def add (delegation : BootDelegation) (entry : String) : BootDelegation :=
  let text := Text.trim entry.toList
  if text = [] then
    delegation
  else if text = ['*'] then
    { delegation with everything := true }
  else if text.getLast? = some '*' then
    if text.dropLast.getLast? = some '.' then
      { delegation with
        stems := delegation.stems ++ [String.ofList text.dropLast] }
    else
      delegation
  else
    { delegation with
      exact := (delegation.exact ++ [String.ofList text]).eraseDups }

/-- The delegation that a list of entries describes. -/
def ofEntries (entries : List String) : BootDelegation :=
  entries.foldl add none

def startsWith (text start : String) : Bool :=
  start.toList.isPrefixOf text.toList

def covers (delegation : BootDelegation) (package : String) : Bool :=
  delegation.everything || delegation.exact.contains package ||
    delegation.stems.any (startsWith package)

def isEmpty (delegation : BootDelegation) : Bool :=
  !delegation.everything && delegation.exact.isEmpty &&
    delegation.stems.isEmpty

end BootDelegation

end ModuleWiring
