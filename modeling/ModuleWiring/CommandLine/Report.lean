import ModuleWiring.Json.Basic
import ModuleWiring.Resolver.Error
import ModuleWiring.Solution

/-!
# Reports on a resolution

What the program tells of the modules that were resolved and of those that could
not be, as JSON or as lines of text.
-/

namespace ModuleWiring

/-- A line that the program writes, to its output or among its complaints. -/
inductive Line where
  | output (text : String)
  | complaint (text : String)
  deriving DecidableEq, Repr

/-- A field of a record that is left out if it would be empty. -/
def unlessEmpty (name : String) (items : List Json) : List (String × Json) :=
  if items.isEmpty then [] else [(name, .array items)]

def Wire.toJson (wire : Wire) : Json :=
  .record [
    ("package", .text wire.package),
    ("version", .text wire.declared.version.render),
    ("exporter", .text wire.exporter.label)]

def Wire.line (wire : Wire) : String :=
  "    " ++ wire.package ++ " " ++ wire.declared.version.render ++ " -> " ++
    wire.exporter.label

def RequiredWire.toJson (required : RequiredWire) : Json :=
  .record [
    ("bundle", .text required.exporter.label),
    ("reexport", .bool required.reexport),
    ("packages", .texts (required.wires.map Wire.package))]

def RequiredWire.line (required : RequiredWire) : String :=
  "    requires " ++ required.exporter.label ++
    if required.reexport then " (reexport)" else ""

namespace Solution

def toJson (solution : Solution) : Json :=
  .record <|
    [("id", .text solution.host.id.render),
      ("name", .text solution.host.symbolicName),
      ("version", .text solution.host.version.render)] ++
    unlessEmpty "fragments"
      (solution.fragments.map fun fragment => .text fragment.label) ++
    unlessEmpty "wires" (solution.wires.map Wire.toJson) ++
    unlessEmpty "required" (solution.required.map RequiredWire.toJson)

/-- A solution as lines of text: the host, its fragments, the bundles that it
requires and the packages that it imports. -/
def lines (solution : Solution) : List String :=
  ["✓ " ++ solution.host.label ++ " [" ++ solution.host.id.render ++ "]"] ++
    solution.fragments.map (fun fragment => "    fragment " ++ fragment.label) ++
    solution.required.map RequiredWire.line ++
    solution.wires.map Wire.line

end Solution

/-- A generation that could not be resolved. -/
structure Failure where
  target : Generation
  error : ResolverError
  deriving DecidableEq, Repr

namespace Failure

def toJson (failure : Failure) : Json :=
  .record [
    ("id", .text failure.target.id.render),
    ("name", .text failure.target.symbolicName),
    ("error", .text failure.error.message)]

def line (failure : Failure) : String :=
  "✗ " ++ failure.target.symbolicName ++ " [" ++ failure.target.id.render ++
    "]: " ++ failure.error.message

end Failure

/-- What was resolved, and what was not. -/
structure Report where
  resolved : List Solution
  failed : List Failure
  deriving DecidableEq, Repr

namespace Report

def empty : Report :=
  ⟨[], []⟩

/-- Add the solutions that resolved a generation. -/
def succeed (report : Report) (solutions : List Solution) : Report :=
  { report with resolved := report.resolved ++ solutions }

def fail (report : Report) (failure : Failure) : Report :=
  { report with failed := report.failed ++ [failure] }

def toJson (report : Report) : Json :=
  .record [
    ("resolved", .array (report.resolved.map Solution.toJson)),
    ("failed", .array (report.failed.map Failure.toJson))]

/-- A report as lines of text. Failures are complaints. -/
def lines (report : Report) : List Line :=
  (report.resolved.flatMap Solution.lines).map .output ++
    report.failed.map (fun failure => .complaint failure.line) ++
    if report.resolved.isEmpty && report.failed.isEmpty then
      [.output "Nothing to resolve"]
    else
      []

end Report

end ModuleWiring
