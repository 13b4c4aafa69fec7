import ModuleWiring.Version.Error

/-!
# What is wrong with a manifest
-/

namespace ModuleWiring

/-- What is malformed about the value of a header. -/
inductive HeaderFault where
  | openQuote (text : String)
  | emptyElement (clause : String)
  | pathAfterParameter (path : String)
  | parameterName (part : String)
  | repeatedParameter (name : String)
  | noPath (clause : String)
  | notOneSymbolicName
  | noHost
  | severalHosts
  deriving DecidableEq, Repr

def HeaderFault.message : HeaderFault → String
  | .openQuote text => "unterminated quote in \"" ++ text ++ "\""
  | .emptyElement clause => "empty element in clause \"" ++ clause ++ "\""
  | .pathAfterParameter path => "path \"" ++ path ++ "\" follows a parameter"
  | .parameterName part => "invalid parameter name in \"" ++ part ++ "\""
  | .repeatedParameter name => "duplicate parameter \"" ++ name ++ "\""
  | .noPath clause => "clause \"" ++ clause ++ "\" names no path"
  | .notOneSymbolicName => "expected exactly one symbolic name"
  | .noHost => "no host named"
  | .severalHosts => "a fragment has exactly one host"

/-- Why a manifest cannot be read. -/
inductive ManifestError where
  | missingHeader (header : String)
  | invalidHeader (header : String) (fault : HeaderFault)
  | invalidDirective (directive value : String)
  | versionMismatch (package version legacy : String)
  | reservedAttribute (package key : String)
  | duplicateImport (package : String)
  | version (error : VersionError)
  deriving DecidableEq, Repr

def ManifestError.message : ManifestError → String
  | .missingHeader header => "Missing required header " ++ header
  | .invalidHeader header fault =>
      "Malformed " ++ header ++ " header: " ++ fault.message
  | .invalidDirective directive value =>
      "Invalid value \"" ++ value ++ "\" for directive " ++ directive
  | .versionMismatch package declared legacy =>
      "Package " ++ package ++ " declares version " ++ declared ++
        " but specification-version " ++ legacy
  | .reservedAttribute package key =>
      "Export of " ++ package ++ " may not specify the " ++ key ++
        " attribute"
  | .duplicateImport package =>
      "Package " ++ package ++ " is imported more than once"
  | .version error => error.message

/-- An error in a version or range, seen as an error of the manifest. -/
def ManifestError.ofVersion {α : Type} (result : Except VersionError α) :
    Except ManifestError α :=
  result.mapError .version

end ModuleWiring
