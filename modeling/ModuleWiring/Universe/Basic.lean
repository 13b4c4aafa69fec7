import ModuleWiring.Json.Reader
import ModuleWiring.Store
import ModuleWiring.Universe.Selector

/-!
# Universes

A universe lists the bundles that are installed, each with its identity and its
headers.
-/

namespace ModuleWiring

/-- A bundle as a universe lists it. -/
structure BundleEntry where
  id : GenerationId
  headers : Table String String
  deriving DecidableEq, Repr

namespace BundleEntry

def fieldNames : List String :=
  ["id", "generation", "headers"]

/-- The bundle of an entry, a number of 64 bits. -/
def bundle? (value : Json) : Option Nat :=
  value.naturalBelow? UInt64.size

/-- The generation of an entry, a number of 32 bits; zero if it is left out. -/
def generation? : Option Json → Option Nat
  | none => some 0
  | some value => value.naturalBelow? UInt32.size

def ofJson? (value : Json) : Option BundleEntry :=
  match value.fields? fieldNames with
  | some [some bundle, generation, some headers] => do
      return ⟨⟨← bundle? bundle, ← generation? generation⟩,
        ← Manifest.headersOfJson? headers⟩
  | _ => none

/-- Read the entries of a universe from a JSON text. -/
def parseAll? (text : String) : Option (List BundleEntry) := do
  match (← Json.parse? text).fields? ["bundles"] with
  | some [some (.array items)] => items.mapM ofJson?
  | _ => none

end BundleEntry

/-- Why a text is no universe. -/
inductive UniverseError where
  | malformed
  | repeatedId (id : GenerationId)
  | invalidManifest (bundle : Nat) (cause : ManifestError)
  deriving DecidableEq, Repr

/-- The wording of an error and of what caused it. What is wrong with a text that
is not even a list of entries is not put into words. -/
def UniverseError.messages : UniverseError → List String
  | .malformed => []
  | .repeatedId id => ["Duplicate bundle id " ++ id.render]
  | .invalidManifest bundle cause =>
      ["Invalid manifest for bundle " ++ bundle.repr, cause.message]

/-- Installed generations, in the order in which they are listed. -/
structure Universe where
  store : Store
  generations : List Generation

namespace Universe

def empty : Universe :=
  ⟨Store.empty, []⟩

/-- Install the bundle of an entry, whose identity has to be new. -/
def install (listed : Universe) (entry : BundleEntry) :
    Except UniverseError Universe :=
  if listed.generations.any (·.id = entry.id) then
    .error (.repeatedId entry.id)
  else
    match Manifest.ofHeaders entry.headers with
    | .error cause => .error (.invalidManifest entry.id.bundle cause)
    | .ok manifest =>
        let (generation, store) := listed.store.install entry.id manifest
        .ok ⟨store, listed.generations ++ [generation]⟩

/-- Install bundles in order, up to the first that cannot be installed. -/
def ofEntries (entries : List BundleEntry) : Except UniverseError Universe :=
  entries.foldlM install empty

def parse (text : String) : Except UniverseError Universe :=
  match BundleEntry.parseAll? text with
  | none => .error .malformed
  | some entries => ofEntries entries

/-- The generations that a selector means, in the order of the universe. -/
def select (listed : Universe) (selector : Selector) : List Generation :=
  listed.generations.filter fun generation =>
    generation.symbolicName = selector.symbolicName &&
      selector.range.includes generation.version

end Universe

end ModuleWiring
