import ModuleWiring.CommandLine.Arguments
import ModuleWiring.CommandLine.Resolve
import ModuleWiring.CommandLine.Validate
import ModuleWiring.Json.Writer
import ModuleWiring.Settings.Sources

/-!
# Running the program

What the program writes and the code that it ends with, for its arguments, the
files that they name and the environment.
-/

namespace ModuleWiring

/-- The files that the program may read, by their paths. -/
abbrev Files : Type :=
  Table String FileText

def Files.text (files : Files) (path : String) : FileText :=
  (files.find? path).getD .missing

/-- What a run of the program comes to. -/
structure Transcript where
  code : UInt8
  lines : List Line
  deriving DecidableEq, Repr

namespace Transcript

/-- The run that arguments end which ask for nothing that the program does. -/
def misused : Transcript :=
  ⟨2, []⟩

def codeOf (success : Bool) : UInt8 :=
  if success then 0 else 1

/-- The run that an error ends: its wording, and then that of each cause. -/
def aborted (message : String) (causes : List String) : Transcript :=
  ⟨1, .complaint ("Error: " ++ message) ::
    causes.map fun cause => .complaint ("  Caused by: " ++ cause)⟩

def unreadable (path : String) : Transcript :=
  aborted ("Failed to read " ++ path) []

/-- The run that ends since a file is no universe. -/
def invalid (path : String) (error : UniverseError) : Transcript :=
  aborted ("Invalid universe file " ++ path) error.messages

def ofReport (asJson : Bool) (report : Report) : Transcript where
  code := codeOf report.failed.isEmpty
  lines := if asJson then [.output report.toJson.pretty] else report.lines

def ofValidation (validation : Validation) : Transcript :=
  ⟨codeOf (validation.errors = 0), validation.lines⟩

end Transcript

namespace ResolveRequest

def paths (request : ResolveRequest) : List String :=
  request.settingsPath.toList ++ [request.path]

/-- Resolve the targets of a request in a universe. -/
def runWithin (request : ResolveRequest) (settings : Settings)
    (listed : Universe) : Transcript :=
  match listed.targets request.selectors with
  | .error selector =>
      .aborted ("No bundle matches " ++ selector.symbolicName ++ "@" ++
        selector.range.render) []
  | .ok targets =>
      match listed.resolver settings with
      | .error error => .aborted error.message []
      | .ok resolver =>
          .ofReport request.asJson (listed.resolveAll resolver targets)

def run (request : ResolveRequest) (files : Files)
    (environment : Environment) : Transcript :=
  let settingsFile :=
    request.settingsPath.map fun path => (path, files.text path)
  let environment := if request.useEnvironment then environment else ∅
  match Settings.build settingsFile environment with
  | .error error =>
      .aborted "Failed to load resolver configuration" [error.message]
  | .ok settings =>
      match files.text request.path with
      | .content text =>
          match Universe.parse text with
          | .error error => .invalid request.path error
          | .ok listed => request.runWithin settings listed
      | _ => .unreadable request.path

end ResolveRequest

namespace ValidateRequest

def run (request : ValidateRequest) (files : Files) : Transcript :=
  match files.text request.path with
  | .content text =>
      match BundleEntry.parseAll? text with
      | none => .invalid request.path .malformed
      | some entries =>
          .ofValidation <|
            (Validation.ofEntries request.quiet entries).close request.quiet
              entries.length
  | _ => .unreadable request.path

end ValidateRequest

namespace Command

def paths : Command → List String
  | .resolve request => request.paths
  | .validate request => [request.path]

def run (command : Command) (files : Files) (environment : Environment) :
    Transcript :=
  match command with
  | .resolve request => request.run files environment
  | .validate request => request.run files

end Command

end ModuleWiring
