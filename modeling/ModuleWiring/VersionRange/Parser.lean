import ModuleWiring.Version.Parser
import ModuleWiring.VersionRange.Basic

/-!
# Reading ranges of versions

A bare version stands for everything from it on; otherwise two versions stand
between brackets, a square one for a bound that belongs to the range and a
round one for a bound that does not.
-/

namespace ModuleWiring.VersionRange

/-- Whether an opening bracket takes the bound in; `none` for any other
character. -/
def opening? : Char → Option Bool
  | '[' => some true
  | '(' => some false
  | _ => none

def closing? : Char → Option Bool
  | ']' => some true
  | ')' => some false
  | _ => none

/-- The text before the last character, and whether that character closes a
range with its bound or without. -/
def closed? (text : List Char) : Option (List Char × Bool) :=
  match text.getLast? with
  | none => none
  | some last => (closing? last).map fun inclusive => (text.dropLast, inclusive)

/-- The two bounds between the brackets, as written. -/
def bounds? (body : List Char) : Except RangeFault (String × String) :=
  match Text.splitOn ',' body with
  | [low, high] => .ok (String.ofList low, String.ofList high)
  | _ :: _ :: _ :: _ => .error .tooManyBounds
  | _ => .error .noComma

/-- Read a range. Errors carry the whole text as it was given, but for a bound
that is no version: those name the bound. -/
def parse (text : String) : Except VersionError VersionRange := do
  match Text.trim text.toList with
  | [] => throw (.invalidRange text .empty)
  | first :: rest =>
      match opening? first with
      | none => return atLeast (← Version.parse (Text.trimmed text))
      | some lowInclusive =>
          match closed? rest with
          | none => throw (.invalidRange text .noClosingBracket)
          | some (body, highInclusive) =>
              match bounds? body with
              | .error fault => throw (.invalidRange text fault)
              | .ok (lowText, highText) =>
                  let low ← Version.parse lowText
                  let high ← Version.parse highText
                  if high < low then
                    throw (.invertedRange text)
                  return ⟨low, some high, lowInclusive, highInclusive⟩

end ModuleWiring.VersionRange
