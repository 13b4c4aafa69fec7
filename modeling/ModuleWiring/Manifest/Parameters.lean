import ModuleWiring.Json.Basic
import ModuleWiring.Table

/-!
# Parameters of a clause

A clause of a header carries attributes, written `key=value`, and directives,
written `key:=value`.
-/

namespace ModuleWiring

/-- The attributes and directives of a clause. -/
structure Parameters where
  attributes : Table String String
  directives : Table String String
  deriving DecidableEq, Repr

namespace Parameters

def none : Parameters :=
  ⟨∅, ∅⟩

instance : Inhabited Parameters :=
  ⟨none⟩

def attribute? (parameters : Parameters) (key : String) : Option String :=
  parameters.attributes.find? key

def directive? (parameters : Parameters) (key : String) : Option String :=
  parameters.directives.find? key

def withAttribute
    (parameters : Parameters) (key value : String) : Parameters :=
  ⟨parameters.attributes.insert key value, parameters.directives⟩

def withDirective
    (parameters : Parameters) (key value : String) : Parameters :=
  ⟨parameters.attributes, parameters.directives.insert key value⟩

/-- A table of texts as a record, unless it is empty. -/
def member (name : String) (table : Table String String) :
    List (String × Json) :=
  if table.isEmpty then
    []
  else
    [(name, .record (table.entries.map fun (key, value) =>
      (key, .text value)))]

/-- Parameters as a record; empty tables are left out. -/
def toJson (parameters : Parameters) : Json :=
  .record (member "attributes" parameters.attributes ++
    member "directives" parameters.directives)

/-- A table of texts from a record; one that is left out is empty. -/
def table? : Option Json → Option (Table String String)
  | .none => some ∅
  | some value => value.textMembers?.map Table.ofList

/-- Read parameters back from a record. -/
def ofJson? (value : Json) : Option Parameters :=
  match value.fields? ["attributes", "directives"] with
  | some [attributes, directives] => do
      return ⟨← table? attributes, ← table? directives⟩
  | _ => .none

end Parameters

end ModuleWiring
