import ModuleWiring.Resolver.DynamicImport
import ModuleWiring.Resolver.Error
import ModuleWiring.Search.Basic

/-!
# The resolver

A resolver tracks installed generations and answers how to wire one of them, and
how to wire more packages to one that is resolved. Nothing changes until its
solutions are applied to the store.
-/

namespace ModuleWiring

/-- A resolver, which tracks generations while it is started. -/
structure Resolver where
  policy : Policy
  framework : Option Framework
  tracked : List Generation
  index : PackageIndex

/-- What an attempt to resolve came to: the completed draft, or why there is
none, and the number of decisions attempted if there was a search. -/
structure Attempt where
  result : Except ResolverError Draft
  steps : Option Nat

namespace Attempt

/-- An attempt that was refused before any search. -/
def refused (error : ResolverError) : Attempt :=
  ⟨.error error, none⟩

/-- The attempt that a search was, for the wiring of a target. -/
def ofOutcome (target : Generation) (outcome : Outcome Draft) : Attempt where
  result :=
    match outcome.found with
    | none => .error (.noSolution target)
    | some draft => .ok draft
  steps := some outcome.steps

/-- The solutions of an attempt. -/
def solutions (attempt : Attempt) : Except ResolverError (List Solution) :=
  attempt.result.map Draft.solutions

end Attempt

namespace Resolver

def create (policy : Policy) : Resolver :=
  ⟨policy, none, [], ∅⟩

def ofSettings (settings : Settings) : Resolver :=
  create ⟨settings.preferLowest⟩

def isStarted (resolver : Resolver) : Bool :=
  resolver.framework.isSome

def started (resolver : Resolver) : Except ResolverError Framework :=
  match resolver.framework with
  | none => .error (.illegalState .notStarted)
  | some framework => .ok framework

def find? (resolver : Resolver) (id : GenerationId) : Option Generation :=
  resolver.tracked.find? (·.id = id)

end Resolver

/-- A call that may change what a resolver tracks. -/
inductive Upkeep where
  | start (framework : Framework)
  | stop
  | add (generation : Generation)
  | remove (generation : Generation)

namespace Upkeep

/-- What a call answers, and how it leaves a resolver that it changes in place,
one field after the other. A generation is indexed before it is tracked, and it
is given up before it is known whether it was tracked at all. -/
def inPlace (resolver : Resolver) :
    Upkeep → Except ResolverError Unit × Resolver
  | start framework =>
      if resolver.isStarted then
        (.error (.illegalState .alreadyStarted), resolver)
      else
        (.ok (), { resolver with framework := some framework })
  | stop =>
      match resolver.started with
      | .error fault => (.error fault, resolver)
      | .ok _ => (.ok (), Resolver.create resolver.policy)
  | add generation =>
      match resolver.started with
      | .error fault => (.error fault, resolver)
      | .ok _ =>
          if (resolver.find? generation.id).isSome then
            (.error (.illegalState (.alreadyTracked generation.id)), resolver)
          else
            let resolver := { resolver with
              index := resolver.index.add generation }
            (.ok (), { resolver with
              tracked := resolver.tracked ++ [generation] })
  | remove generation =>
      match resolver.started with
      | .error fault => (.error fault, resolver)
      | .ok _ =>
          let known := resolver.find? generation.id
          let resolver := { resolver with
            tracked := resolver.tracked.filter (·.id ≠ generation.id) }
          if known.isNone then
            (.error (.unknownGeneration generation.id), resolver)
          else
            (.ok (), { resolver with
              index := resolver.index.remove generation.id })

/-- What a call makes of a resolver if it succeeds. -/
def perform (resolver : Resolver) (call : Upkeep) :
    Except ResolverError Resolver :=
  match call.inPlace resolver with
  | (.error fault, _) => .error fault
  | (.ok (), next) => .ok next

end Upkeep

namespace Resolver

/-- Start a resolver within a framework. -/
def start (resolver : Resolver) (framework : Framework) :
    Except ResolverError Resolver :=
  (Upkeep.start framework).perform resolver

/-- Stop a resolver, which forgets all that it tracked. -/
def stop (resolver : Resolver) : Except ResolverError Resolver :=
  Upkeep.stop.perform resolver

/-- Track a generation whose identity is new. -/
def add (resolver : Resolver) (generation : Generation) :
    Except ResolverError Resolver :=
  (Upkeep.add generation).perform resolver

/-- Stop to track whatever bears the identity of a generation. What is wired to
it keeps its wires. -/
def remove (resolver : Resolver) (generation : Generation) :
    Except ResolverError Resolver :=
  (Upkeep.remove generation).perform resolver

/-- The tracked generations that export a package by their own manifests. -/
def exporters (resolver : Resolver) (package : String) : List Generation :=
  (resolver.index.exporters package).filterMap resolver.find?

/-- Whether a generation is tracked itself, and not another installation under
its identity. -/
def tracks (resolver : Resolver) (generation : Generation) : Bool :=
  (resolver.find? generation.id).any (·.serial = generation.serial)

/-- The framework of a resolver that is started and tracks a generation. -/
def frameworkFor (resolver : Resolver) (generation : Generation) :
    Except ResolverError Framework := do
  let framework ← resolver.started
  if resolver.tracks generation then
    return framework
  else
    throw (.unknownGeneration generation.id)

/-- The generations that a wiring may use: all but the uninstalled ones. -/
def canonical (resolver : Resolver) (store : Store) : List Generation :=
  resolver.tracked.filter fun generation =>
    store.state generation ≠ .uninstalled

def search (resolver : Resolver) (framework : Framework) : Search :=
  ⟨framework, resolver.policy, resolver.index⟩

/-- The draft that the search for the wiring of an installed generation starts
from. -/
def initialDraft (resolver : Resolver) (store : Store)
    (target : Generation) : Except ResolverError (Search × Draft) := do
  let framework ← resolver.frameworkFor target
  if store.state target ≠ .installed then
    throw (.illegalState (.notInstalled target (store.state target)))
  let draft ←
    (Draft.initial store (resolver.canonical store) target).mapError
      .incompatible
  return (resolver.search framework, draft)

def attempt (resolver : Resolver) (store : Store) (target : Generation) :
    Attempt :=
  match resolver.initialDraft store target with
  | .error error => .refused error
  | .ok (search, draft) => .ofOutcome target (search.run draft)

/-- Wire an installed generation, with all that it needs: one solution for each
module that has to be resolved. -/
def resolve (resolver : Resolver) (store : Store) (target : Generation) :
    Except ResolverError (List Solution) :=
  (resolver.attempt store target).solutions

/-- The draft that the search for the packages of a dynamic import starts
from. -/
def dynamicDraft (resolver : Resolver) (store : Store)
    (target : Generation) (wanted : Import) :
    Except ResolverError (Search × Draft) := do
  let framework ← resolver.frameworkFor target
  if !(store.state target).isResolved then
    throw (.illegalState (.notResolved target))
  let requirements := wanted.expand resolver.index
  if requirements.isEmpty then
    throw (.noSolution target)
  let draft ←
    (Draft.forDynamicImport store (resolver.canonical store) target
      requirements).mapError .incompatible
  return (resolver.search framework, draft)

/-- Search for wires of a resolved generation for the packages of a dynamic
import. -/
def attemptDynamic (resolver : Resolver) (store : Store)
    (target : Generation) (wanted : Import) : Attempt :=
  match resolver.dynamicDraft store target wanted with
  | .error error => .refused error
  | .ok (search, draft) => .ofOutcome target (search.runPending draft)

/-- Wire the packages of a dynamic import to a resolved generation. -/
def resolveDynamic (resolver : Resolver) (store : Store)
    (target : Generation) (wanted : Import) :
    Except ResolverError (List Solution) :=
  (resolver.attemptDynamic store target wanted).solutions

end Resolver

end ModuleWiring
