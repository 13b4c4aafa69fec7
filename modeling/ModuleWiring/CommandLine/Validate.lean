import ModuleWiring.CommandLine.Report
import ModuleWiring.Universe.Basic

/-!
# Validating a universe

Every manifest is read on its own. Singletons that are listed twice are pointed
out, but are no error.
-/

namespace ModuleWiring

namespace Manifest

/-- A count with a name, unless it is zero. -/
def counted (name : String) (count : Nat) : String :=
  if count = 0 then "" else ", " ++ count.repr ++ " " ++ name

/-- The host that a manifest names, if it is that of a fragment. -/
def hostSummary (manifest : Manifest) : String :=
  match manifest.fragmentHost with
  | none => ""
  | some host => " fragment of " ++ host.host ++ " " ++ host.range.render

def summary (manifest : Manifest) (bundle : Nat) : String :=
  manifest.symbolicName ++ " " ++ manifest.version.render ++ " [" ++
    bundle.repr ++ "]" ++ manifest.hostSummary ++
    counted "exports" manifest.exports.length ++
    counted "imports" manifest.imports.length ++
    counted "requires" manifest.requires.length ++
    counted "dynamic imports" manifest.dynamicImports.length

end Manifest

/-- What has been found out about the entries so far: the lines to write, the
number of invalid manifests, and which bundle last took each singleton name. -/
structure Validation where
  lines : List Line
  errors : Nat
  singletons : Table String Nat

namespace Validation

def start : Validation :=
  ⟨[], 0, ∅⟩

def write (validation : Validation) (line : Line) : Validation :=
  { validation with lines := validation.lines ++ [line] }

def reject (validation : Validation) (bundle : Nat) (error : ManifestError) :
    Validation :=
  { validation with errors := validation.errors + 1 }.write <|
    .complaint ("✗ bundle " ++ bundle.repr ++ ": " ++ error.message)

/-- Note the name of a singleton, and that another bundle has it. -/
def noteSingleton (validation : Validation) (bundle : Nat) (name : String) :
    Validation :=
  let noted := { validation with
    singletons := validation.singletons.insert name bundle }
  match validation.singletons.find? name with
  | none => noted
  | some other =>
      noted.write <| .complaint <|
        "! bundle " ++ bundle.repr ++ ": singleton " ++ name ++
          " is also installed as bundle " ++ other.repr

/-- Validate one entry. Valid ones are summarized unless only problems are
wanted. -/
def addEntry (quiet : Bool) (validation : Validation) (entry : BundleEntry) :
    Validation :=
  let bundle := entry.id.bundle
  match Manifest.ofHeaders entry.headers with
  | .error error => validation.reject bundle error
  | .ok manifest =>
      let noted :=
        if manifest.singleton then
          validation.noteSingleton bundle manifest.symbolicName
        else
          validation
      if quiet then
        noted
      else
        noted.write (.output ("✓ " ++ manifest.summary bundle))

/-- Validate entries in order. -/
def ofEntries (quiet : Bool) (entries : List BundleEntry) : Validation :=
  entries.foldl (addEntry quiet) start

/-- Add the line that sums up the validation of a number of entries. -/
def close (validation : Validation) (quiet : Bool) (count : Nat) :
    Validation :=
  if validation.errors = 0 then
    if quiet then
      validation
    else
      validation.write (.output (count.repr ++ " manifests are valid"))
  else
    validation.write <| .complaint <|
      validation.errors.repr ++ " of " ++ count.repr ++
        " manifests are invalid"

end Validation

end ModuleWiring
