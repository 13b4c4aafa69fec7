/-!
# JSON values

A value as a JSON text spells it: numbers keep their spelling, objects keep
their members in order and with repetitions.
-/

namespace ModuleWiring

/-- The text of a string literal; `none` where its escapes spell half of a
surrogate pair, which is no text. -/
abbrev JsonText : Type :=
  Option String

/-- A JSON value. -/
inductive Json where
  | null
  | bool (value : Bool)
  | number (literal : String)
  | string (text : JsonText)
  | array (items : List Json)
  | object (members : List (JsonText × Json))
  deriving Inhabited, Repr

namespace Json

def text (value : String) : Json :=
  .string (some value)

def texts (values : List String) : Json :=
  .array (values.map text)

def natural (value : Nat) : Json :=
  .number value.repr

/-- The object with these members, in this order. -/
def record (members : List (String × Json)) : Json :=
  .object (members.map fun member => (some member.1, member.2))

def text? : Json → Option String
  | .string text => text
  | _ => none

def bool? : Json → Option Bool
  | .bool value => some value
  | _ => none

/-- The natural number that a value spells, without sign, fraction or
exponent. -/
def natural? : Json → Option Nat
  | .number literal =>
      if literal.toList.all Char.isDigit then
        some (Nat.ofDigitChars 10 literal.toList 0)
      else
        none
  | _ => none

/-- The natural number below `limit` that a value spells. -/
def naturalBelow? (limit : Nat) (value : Json) : Option Nat :=
  (natural? value).filter (· < limit)

def texts? : Json → Option (List String)
  | .array items => items.mapM text?
  | _ => none

/-- The members of an object whose values are all strings. -/
def textMembers? : Json → Option (List (String × String))
  | .object members =>
      members.mapM fun member => do
        return (← member.1, ← text? member.2)
  | _ => none

/-- The values of a record's fields, in the order of `fields`, each `none` where
it is left out. An object gives them by name, a field at most once; an array
gives them by position. -/
def fields? (fields : List String) : Json → Option (List (Option Json))
  | .object members => do
      let names ← members.mapM Prod.fst
      if fields.all fun field => names.count field ≤ 1 then
        return fields.map fun field =>
          (members.find? fun member => member.1 = some field).map Prod.snd
      else
        none
  | .array items =>
      if items.length ≤ fields.length then
        some (items.map some ++
          List.replicate (fields.length - items.length) none)
      else
        none
  | _ => none

end Json

end ModuleWiring
