import ModuleWiring.VersionRange.Parser

/-!
# Selectors of bundles

A selector names bundles by `NAME`, or by `NAME@RANGE` where only some versions
are meant.
-/

namespace ModuleWiring

/-- The bundles of a name whose version lies in a range. -/
structure Selector where
  symbolicName : String
  range : VersionRange
  deriving DecidableEq, Repr

/-- Why a text is no selector. -/
inductive SelectorError where
  | invalidRange (text : String) (cause : VersionError)
  | missingName (text : String)
  deriving DecidableEq, Repr

/-- The wording of an error and of what caused it. -/
def SelectorError.messages : SelectorError → List String
  | .invalidRange text cause =>
      ["Invalid version range in \"" ++ text ++ "\"", cause.message]
  | .missingName text => ["Missing symbolic name in \"" ++ text ++ "\""]

namespace Selector

/-- The text before the first `@`, and the text after it if there is one. -/
def cut : List Char → List Char × Option (List Char)
  | [] => ([], none)
  | '@' :: rest => ([], some rest)
  | c :: rest =>
      let (name, range) := cut rest
      (c :: name, range)

/-- Read a selector. A fault in the range is reported before a missing name. -/
def parse (text : String) : Except SelectorError Selector := do
  let (name, rangeText) := cut text.toList
  let range ←
    match rangeText with
    | none => pure VersionRange.everything
    | some written =>
        (VersionRange.parse (String.ofList written)).mapError
          (.invalidRange text)
  if (Text.trim name).isEmpty then
    throw (.missingName text)
  return ⟨String.ofList (Text.trim name), range⟩

end Selector

end ModuleWiring
