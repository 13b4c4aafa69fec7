/-!
# What is wrong with a version text
-/

namespace ModuleWiring

/-- What keeps a bracketed text from being a range of versions. -/
inductive RangeFault where
  | empty
  | noClosingBracket
  | noComma
  | tooManyBounds
  deriving DecidableEq, Repr

def RangeFault.message : RangeFault → String
  | .empty => "empty range"
  | .noClosingBracket => "missing closing bracket"
  | .noComma => "expected two comma separated bounds"
  | .tooManyBounds => "too many bounds"

/-- Why a text is no version, or no range of versions. -/
inductive VersionError where
  | invalidVersion (text : String)
  | invalidRange (text : String) (fault : RangeFault)
  | invertedRange (text : String)
  deriving DecidableEq, Repr

def VersionError.message : VersionError → String
  | .invalidVersion text => "Invalid version string \"" ++ text ++ "\""
  | .invalidRange text fault =>
      "Invalid version range \"" ++ text ++ "\": " ++ fault.message
  | .invertedRange text =>
      "Version range \"" ++ text ++
        "\" has a lower bound above its upper bound"

end ModuleWiring
