import ModuleWiring.CommandLine.Report
import ModuleWiring.Resolver.Basic
import ModuleWiring.Universe.Basic

/-!
# Resolving a universe

The targets are resolved one after the other. Each solution is applied before
the next target is looked at, which it may have resolved already.
-/

namespace ModuleWiring.Universe

/-- Add generations that are not in a list yet. -/
def addNew (targets : List Generation) (more : List Generation) :
    List Generation :=
  more.foldl (fun targets generation =>
    if targets.any (·.serial = generation.serial) then targets
    else targets ++ [generation]) targets

/-- Add the generations that a selector means; it has to mean some. -/
def addSelected (listed : Universe) (targets : List Generation)
    (selector : Selector) : Except Selector (List Generation) :=
  match listed.select selector with
  | [] => .error selector
  | selected => .ok (addNew targets selected)

/-- The generations to resolve: those that are selected, or all if nothing is
said. A selector that means none is the error. -/
def targets (listed : Universe) (selectors : List Selector) :
    Except Selector (List Generation) :=
  if selectors.isEmpty then
    .ok listed.generations
  else
    selectors.foldlM listed.addSelected []

/-- A resolver that is started under the settings and tracks the universe. -/
def resolver (listed : Universe) (settings : Settings) :
    Except ResolverError Resolver := do
  let resolver ←
    (Resolver.ofSettings settings).start (Framework.ofSettings settings)
  listed.generations.foldlM Resolver.add resolver

/-- Resolve a target, unless it is resolved already. -/
def resolveTarget (resolver : Resolver) (progress : Store × Report)
    (target : Generation) : Store × Report :=
  let (store, report) := progress
  if store.state target = .installed then
    match resolver.resolve store target with
    | .ok solutions =>
        (store.applyAll solutions, report.succeed solutions)
    | .error error => (store, report.fail ⟨target, error⟩)
  else
    progress

/-- Resolve targets in order. -/
def resolveAll (listed : Universe) (resolver : Resolver)
    (targets : List Generation) : Report :=
  (targets.foldl (resolveTarget resolver) (listed.store, Report.empty)).2

end ModuleWiring.Universe
