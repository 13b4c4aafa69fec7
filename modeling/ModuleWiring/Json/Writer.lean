import ModuleWiring.Json.Basic

/-!
# Writing JSON

A value on one line without blanks, or spread over lines with two spaces for
each level of nesting.
-/

namespace ModuleWiring.Json

def hexDigit (value : Nat) : Char :=
  Nat.digitChar (value % 16)

/-- A character as a string literal spells it: quotes, backslashes and control
characters are escaped, all else stands for itself. -/
def escape (c : Char) : List Char :=
  if c = '"' then ['\\', '"']
  else if c = '\\' then ['\\', '\\']
  else if c = '\x08' then ['\\', 'b']
  else if c = '\x0c' then ['\\', 'f']
  else if c = '\n' then ['\\', 'n']
  else if c = '\r' then ['\\', 'r']
  else if c = '\t' then ['\\', 't']
  else if c.toNat < 0x20 then
    ['\\', 'u', '0', '0', hexDigit (c.toNat / 16), hexDigit c.toNat]
  else [c]

def quoted (text : String) : String :=
  "\"" ++ String.ofList (text.toList.flatMap escape) ++ "\""

/-- The literal of a string value; what is no text is written as null. -/
def literal : JsonText → String
  | some text => quoted text
  | none => "null"

mutual

/-- A value on one line, without blanks. -/
def compact : Json → String
  | .null => "null"
  | .bool true => "true"
  | .bool false => "false"
  | .number digits => digits
  | .string text => literal text
  | .array items => "[" ++ ",".intercalate (compactItems items) ++ "]"
  | .object members =>
      "\x7b" ++ ",".intercalate (compactMembers members) ++ "\x7d"

def compactItems : List Json → List String
  | [] => []
  | item :: items => compact item :: compactItems items

def compactMembers : List (JsonText × Json) → List String
  | [] => []
  | (key, value) :: members =>
      (literal key ++ ":" ++ compact value) :: compactMembers members

end

/-- The start of a line at a level of nesting. -/
def newLine (level : Nat) : String :=
  String.ofList ('\n' :: List.replicate (2 * level) ' ')

/-- The contents of brackets, one entry a line; nothing between them stays on
the line. -/
def spread (left right : String) (level : Nat) (entries : List String) :
    String :=
  if entries.isEmpty then
    left ++ right
  else
    left ++ newLine (level + 1) ++
      (("," ++ newLine (level + 1)).intercalate entries) ++
        newLine level ++ right

mutual

/-- A value over several lines, from a level of nesting on. -/
def indented (level : Nat) : Json → String
  | .null => "null"
  | .bool true => "true"
  | .bool false => "false"
  | .number digits => digits
  | .string text => literal text
  | .array items => spread "[" "]" level (indentedItems (level + 1) items)
  | .object members =>
      spread "\x7b" "\x7d" level (indentedMembers (level + 1) members)

def indentedItems (level : Nat) : List Json → List String
  | [] => []
  | item :: items => indented level item :: indentedItems level items

def indentedMembers (level : Nat) : List (JsonText × Json) → List String
  | [] => []
  | (key, value) :: members =>
      (literal key ++ ": " ++ indented level value) ::
        indentedMembers level members

end

def pretty (value : Json) : String :=
  indented 0 value

end ModuleWiring.Json
