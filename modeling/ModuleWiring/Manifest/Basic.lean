import ModuleWiring.Manifest.Export
import ModuleWiring.Manifest.FragmentHost
import ModuleWiring.Manifest.Import
import ModuleWiring.Manifest.Require

/-!
# Manifests

What the headers of a module say about its identity, what it offers and what it
needs.
-/

namespace ModuleWiring

/-- The description of a module. -/
structure Manifest where
  symbolicName : String
  version : Version
  singleton : Bool
  fragmentAttachment : FragmentAttachment
  exports : List Export
  imports : List Import
  requires : List Require
  dynamicImports : List Import
  fragmentHost : Option FragmentHost
  deriving DecidableEq, Repr

namespace Manifest

/-- A module that offers nothing and needs nothing. -/
def of (symbolicName : String) (version : Version) : Manifest :=
  ⟨symbolicName, version, false, .always, [], [], [], [], none⟩

/-- Names of headers are the same if they differ in the case of ASCII letters
only. -/
def sameHeader (left right : String) : Bool :=
  left.toList.map Char.toLower = right.toList.map Char.toLower

def header? (headers : Table String String) (name : String) :
    Option String :=
  (headers.entries.find? fun entry => sameHeader entry.1 name).map Prod.snd

def unlessBlank (value : String) : Option String :=
  if (Text.trim value.toList).isEmpty then none else some value

def nameHeader : String :=
  "Bundle-SymbolicName"

/-- The one symbolic name of the module and its parameters. -/
def identity (headers : Table String String) :
    Except ManifestError (String × Parameters) := do
  match (header? headers nameHeader).bind unlessBlank with
  | none => throw (.missingHeader nameHeader)
  | some value =>
      match ← Clause.parseHeader nameHeader value with
      | [⟨[name], parameters⟩] => return (name, parameters)
      | _ => throw (.invalidHeader nameHeader .notOneSymbolicName)

/-- The entries of a header that may be left out. -/
def entries
    {α : Type} (headers : Table String String) (name : String)
    (parse : String → Except ManifestError (List α)) :
    Except ManifestError (List α) :=
  match header? headers name with
  | none => .ok []
  | some value => parse value

def ofHeaders (headers : Table String String) :
    Except ManifestError Manifest := do
  let (symbolicName, parameters) ← identity headers
  let singleton ← singletonOfDirective (parameters.directive? Key.singleton)
  let version ←
    match (header? headers "Bundle-Version").bind unlessBlank with
    | none => pure Version.zero
    | some text => ManifestError.ofVersion (Version.parse text)
  let fragmentAttachment ←
    FragmentAttachment.ofDirective
      (parameters.directive? Key.fragmentAttachment)
  let exports ← entries headers "Export-Package" Export.parse
  let imports ← entries headers "Import-Package" Import.parse
  let requires ← entries headers "Require-Bundle" Require.parse
  let dynamicImports ←
    entries headers "DynamicImport-Package" Import.parseDynamic
  let fragmentHost ←
    match header? headers FragmentHost.header with
    | none => pure none
    | some text => some <$> FragmentHost.parse text
  return {
    symbolicName, version, singleton, fragmentAttachment, exports, imports,
    requires, dynamicImports, fragmentHost }

/-- The headers that an object of texts lists. -/
def headersOfJson? (value : Json) : Option (Table String String) :=
  value.textMembers?.map Table.ofList

end Manifest

end ModuleWiring
