import ModuleWiring.Json.Basic
import ModuleWiring.Settings.BootDelegation

/-!
# Settings

The settings of a resolver, and overlays that replace some of them.
-/

namespace ModuleWiring

/-- What a resolver has to be told: the boot delegation, the name of the
framework's own module, and whether low versions are tried first. -/
structure Settings where
  bootDelegation : List String
  systemBundle : String
  preferLowest : Bool
  deriving DecidableEq, Repr

/-- The settings without any configuration. -/
def Settings.standard : Settings :=
  ⟨["java.*"], "system.bundle", false⟩

instance : Inhabited Settings :=
  ⟨Settings.standard⟩

/-- Settings from one source; a value that is left out changes nothing. -/
structure Overlay where
  bootDelegation : Option (List String)
  systemBundle : Option String
  preferLowest : Option Bool
  deriving DecidableEq, Repr

namespace Overlay

def empty : Overlay :=
  ⟨none, none, none⟩

instance : Inhabited Overlay :=
  ⟨empty⟩

def fieldNames : List String :=
  ["boot-delegation", "system-bundle", "prefer-lowest"]

/-- A value that may be left out or null; any other has to be readable. -/
def optional? {α : Type} (read : Json → Option α) :
    Option Json → Option (Option α)
  | none | some .null => some none
  | some value => some <$> read value

/-- Read an overlay from the record in a file. -/
def ofJson? (value : Json) : Option Overlay :=
  match value.fields? fieldNames with
  | some [bootDelegation, systemBundle, preferLowest] => do
      return ⟨← optional? Json.texts? bootDelegation,
        ← optional? Json.text? systemBundle,
        ← optional? Json.bool? preferLowest⟩
  | _ => none

/-- An overlay as a record; what is left out stays out. -/
def toJson (overlay : Overlay) : Json :=
  .record <|
    (overlay.bootDelegation.toList.map fun entries =>
      ("boot-delegation", .texts entries)) ++
    (overlay.systemBundle.toList.map fun name =>
      ("system-bundle", .text name)) ++
    (overlay.preferLowest.toList.map fun lowest =>
      ("prefer-lowest", .bool lowest))

end Overlay

/-- Replace the settings that an overlay names. -/
def Settings.overlay (settings : Settings) (overlay : Overlay) : Settings where
  bootDelegation := overlay.bootDelegation.getD settings.bootDelegation
  systemBundle := overlay.systemBundle.getD settings.systemBundle
  preferLowest := overlay.preferLowest.getD settings.preferLowest

end ModuleWiring
