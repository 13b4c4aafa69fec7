import ModuleWiring.Text.Listed
import ModuleWiring.Version.Basic
import ModuleWiring.Version.Error

/-!
# Reading versions

A version text is one, two or three numbers joined by dots, or three numbers
and a qualifier. Blanks around the whole are skipped.
-/

namespace ModuleWiring.Version

/-- The number that a run of decimal digits spells, if it fits 64 bits. -/
def number? (digits : List Char) : Option UInt64 :=
  if digits ≠ [] ∧ digits.all Char.isDigit then
    let value := Nat.ofDigitChars 10 digits 0
    if fits : value < UInt64.size then
      some (UInt64.ofNatLT value fits)
    else
      none
  else
    none

/-- Qualifiers are spelt in ASCII letters and digits, `_` and `-`. -/
def isQualifierChar (c : Char) : Bool :=
  c.isAlphanum || c = '_' || c = '-'

/-- A qualifier is a non-empty run of qualifier characters. -/
def qualifier? (text : List Char) : Option String :=
  if text ≠ [] ∧ text.all isQualifierChar then
    some (String.ofList text)
  else
    none

/-- The version that a list of dot separated parts spells. Numbers that are
left out are zero. -/
def ofParts? : List (List Char) → Option Version
  | [major] => do
      return ⟨← number? major, 0, 0, ""⟩
  | [major, minor] => do
      return ⟨← number? major, ← number? minor, 0, ""⟩
  | [major, minor, micro] => do
      return ⟨← number? major, ← number? minor, ← number? micro, ""⟩
  | [major, minor, micro, qualifier] => do
      return ⟨← number? major, ← number? minor, ← number? micro,
        ← qualifier? qualifier⟩
  | _ => none

/-- Read a version. The error carries the text as it was given. -/
def parse (text : String) : Except VersionError Version :=
  match ofParts? (Text.splitOn '.' (Text.trim text.toList)) with
  | some version => .ok version
  | none => .error (.invalidVersion text)

end ModuleWiring.Version
