import ModuleWiring.Manifest.Clause
import ModuleWiring.Manifest.Directive

/-!
# Hosts of fragments
-/

namespace ModuleWiring

/-- The host that a fragment asks for. A fragment with an extension kind belongs
to the framework itself. -/
structure FragmentHost where
  host : String
  range : VersionRange
  extensionKind : Option ExtensionKind
  deriving DecidableEq, Repr

namespace FragmentHost

def header : String :=
  "Fragment-Host"

/-- Read the host from the one clause of the header. -/
def ofClause (clause : Clause) : Except ManifestError FragmentHost := do
  match clause.paths with
  | [host] =>
      let range ← clause.parameters.range? Key.bundleVersion
      let extensionKind ←
        match clause.parameters.directive? Key.extensionKind with
        | none => pure none
        | some text => some <$> ExtensionKind.ofDirective text
      return ⟨host, range.getD VersionRange.everything, extensionKind⟩
  | _ => throw (.invalidHeader header .severalHosts)

def parse (text : String) : Except ManifestError FragmentHost := do
  match ← Clause.parseHeader header text with
  | [] => throw (.invalidHeader header .noHost)
  | [clause] => ofClause clause
  | _ => throw (.invalidHeader header .severalHosts)

end FragmentHost

end ModuleWiring
