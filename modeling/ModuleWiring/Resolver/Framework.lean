import ModuleWiring.Generation.Basic
import ModuleWiring.Settings.Basic

/-!
# The framework around a resolver
-/

namespace ModuleWiring

/-- What a resolver has to know about the framework that it runs in. -/
structure Framework where
  systemBundle : String
  bootDelegation : BootDelegation
  deriving DecidableEq, Repr

namespace Framework

def ofSettings (settings : Settings) : Framework :=
  ⟨settings.systemBundle, BootDelegation.ofEntries settings.bootDelegation⟩

/-- The name under which fragments may address the framework's own module,
whatever its name. -/
def systemBundleAlias : String :=
  "system.bundle"

/-- Whether a generation is the framework's own module. -/
def isSystemBundle (framework : Framework) (generation : Generation) : Bool :=
  generation.symbolicName = framework.systemBundle

/-- Whether a generation is a host that a fragment asks for. Extensions of the
framework go to its own module only. -/
def isHostOf
    (framework : Framework) (fragment host : Generation) : Bool :=
  match fragment.manifest.fragmentHost with
  | none => false
  | some wanted =>
      !host.isFragment && wanted.range.includes host.version &&
        (fragment.kind ≠ .frameworkExtension ||
          framework.isSystemBundle host) &&
        (wanted.host = host.symbolicName ||
          wanted.host = systemBundleAlias && framework.isSystemBundle host)

end Framework

end ModuleWiring
