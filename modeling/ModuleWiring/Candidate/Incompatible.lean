import ModuleWiring.Generation.Basic

/-!
# Combinations that never work
-/

namespace ModuleWiring

/-- Why a fragment cannot attach to a host. -/
inductive AttachmentFault where
  | sameName (symbolicName : String)
  | unsatisfiedImport (package : String) (exporter : Generation)
  | refused
  | refusedOnceResolved
  deriving DecidableEq, Repr

def AttachmentFault.message : AttachmentFault → String
  | .sameName symbolicName =>
      "another " ++ symbolicName ++ " fragment is already attached"
  | .unsatisfiedImport package exporter =>
      "import of " ++ package ++
        " is not satisfied by the host's wiring to " ++ exporter.render
  | .refused => "host does not accept fragments"
  | .refusedOnceResolved => "host only accepts fragments while it resolves"

/-- Why some generations can never be wired together. -/
inductive Incompatible where
  | singletonConflict (symbolicName : String)
      (existing conflicting : GenerationId)
  | fragmentAttachment (fragment host : GenerationId)
      (fault : AttachmentFault)
  | duplicateWiring (host : GenerationId) (package : String)
  deriving DecidableEq, Repr

def Incompatible.message : Incompatible → String
  | .singletonConflict symbolicName existing conflicting =>
      "Singleton " ++ symbolicName ++ " is already provided by " ++
        existing.render ++ ", cannot also use " ++ conflicting.render
  | .fragmentAttachment fragment host fault =>
      "Fragment " ++ fragment.render ++ " cannot attach to " ++ host.render ++
        ": " ++ fault.message
  | .duplicateWiring host package =>
      host.render ++ " already has a wiring for package " ++ package

end ModuleWiring
