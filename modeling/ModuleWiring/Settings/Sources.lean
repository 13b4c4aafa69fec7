import ModuleWiring.Json.Reader
import ModuleWiring.Settings.Basic
import ModuleWiring.Table
import ModuleWiring.Text.Listed

/-!
# Sources of settings

Settings come from a file and from the environment, which wins over the file.
-/

namespace ModuleWiring

/-- What is found under the path of a file. -/
inductive FileText where
  | missing
  | unreadable
  | content (text : String)
  deriving DecidableEq, Repr

/-- Why the settings cannot be established. -/
inductive SettingsError where
  | unreadable (path : String)
  | malformed (path : String)
  | invalidPreferLowest (value : String)
  deriving DecidableEq, Repr

/-- The variables of the environment with their values. -/
abbrev Environment : Type :=
  Table String String

namespace Environment

def bootDelegation : String :=
  "BUNDLEWIRE_BOOT_DELEGATION"

def systemBundle : String :=
  "BUNDLEWIRE_SYSTEM_BUNDLE"

def preferLowest : String :=
  "BUNDLEWIRE_PREFER_LOWEST"

def names : List String :=
  [bootDelegation, systemBundle, preferLowest]

/-- The value of a variable. An empty value counts as none. -/
def value? (environment : Environment) (name : String) : Option String :=
  (environment.find? name).filter (· ≠ "")

end Environment

/-- The wording of an error, without the path that it is about. -/
def SettingsError.summary : SettingsError → String
  | .unreadable _ => "Configuration error: Failed to read"
  | .malformed _ => "Configuration error: Failed to parse"
  | .invalidPreferLowest value =>
      "Configuration error: Invalid " ++ Environment.preferLowest ++
        " value \"" ++ value ++ "\""

def SettingsError.message : SettingsError → String
  | .unreadable path => (SettingsError.unreadable path).summary ++ " " ++ path
  | .malformed path => (SettingsError.malformed path).summary ++ " " ++ path
  | error => error.summary

namespace Overlay

/-- The overlay of a file. A file that does not exist changes nothing. -/
def ofFile (path : String) : FileText → Except SettingsError Overlay
  | .missing => .ok empty
  | .unreadable => .error (.unreadable path)
  | .content text =>
      match (Json.parse? text).bind ofJson? with
      | some overlay => .ok overlay
      | none => .error (.malformed path)

/-- The truth value of a word in any case, with blanks around it. -/
def switch? (text : String) : Option Bool :=
  let word := String.ofList ((Text.trim text.toList).map Char.toLower)
  if word ∈ ["1", "true", "yes", "on"] then some true
  else if word ∈ ["0", "false", "no", "off"] then some false
  else none

/-- The overlay of the environment. -/
def ofEnvironment (environment : Environment) :
    Except SettingsError Overlay := do
  let preferLowest ←
    match environment.value? Environment.preferLowest with
    | none => pure none
    | some text =>
        match switch? text with
        | some lowest => pure (some lowest)
        | none => throw (.invalidPreferLowest text)
  return {
    bootDelegation :=
      (environment.value? Environment.bootDelegation).map Text.listed
    systemBundle := environment.value? Environment.systemBundle
    preferLowest := preferLowest }

end Overlay

/-- The standard settings under those of a file, where there is one, and those
of the environment. -/
def Settings.build
    (file : Option (String × FileText)) (environment : Environment) :
    Except SettingsError Settings := do
  let filed ←
    match file with
    | none => pure Overlay.empty
    | some (path, text) => Overlay.ofFile path text
  let overlay ← Overlay.ofEnvironment environment
  return (Settings.standard.overlay filed).overlay overlay

end ModuleWiring
