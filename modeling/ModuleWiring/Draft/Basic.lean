import ModuleWiring.Candidate.Basic
import ModuleWiring.Generation.Roster

/-!
# Drafts

A draft is a wiring that is partly decided. A search makes a new draft with
every decision and never changes an old one.
-/

namespace ModuleWiring

/-- A partly decided wiring over the candidates of a search.

`resolving` is the candidate whose requirements are being decided, `queue` holds
the bound ones that wait for that and `settled` those that are through with it.
Candidates that take part are `used`. Fragments are `attached` to their
hosts. -/
structure Draft where
  store : Store
  candidates : Roster Candidate.id
  resolving : Option GenerationId
  settled : List GenerationId
  queue : List GenerationId
  used : IdSet
  unused : IdSet
  singletons : Table String GenerationId
  attached : Table GenerationId GenerationId

namespace Draft

def empty (store : Store) : Draft :=
  ⟨store, ∅, none, [], [], ∅, ∅, ∅, ∅⟩

def candidate? (draft : Draft) (id : GenerationId) : Option Candidate :=
  draft.candidates.find? id

def generation? (draft : Draft) (id : GenerationId) : Option Generation :=
  (draft.candidate? id).map Candidate.generation

def bound? (draft : Draft) (id : GenerationId) : Option BoundModule :=
  (draft.candidate? id).bind Candidate.bound?

def resolvingBound? (draft : Draft) : Option BoundModule :=
  draft.resolving.bind draft.bound?

/-- Whether all requirements of a bound candidate are decided. -/
def isSettled (draft : Draft) (id : GenerationId) : Bool :=
  draft.settled.contains id

def hostOf? (draft : Draft) (fragment : GenerationId) :
    Option GenerationId :=
  draft.attached.find? fragment

/-- Nothing is being decided and nothing waits for it. -/
def isDone (draft : Draft) : Bool :=
  draft.queue.isEmpty && draft.resolving.isNone

def nextImport? (draft : Draft) : Option PackageImport :=
  draft.resolvingBound?.bind (·.imports.head?)

def nextRequire? (draft : Draft) : Option Require :=
  draft.resolvingBound?.bind (·.requires.head?)

theorem id_of_candidate? {draft : Draft} {id : GenerationId}
    {candidate : Candidate} (found : draft.candidate? id = some candidate) :
    candidate.id = id :=
  Roster.key_of_find? found

theorem mem_of_candidate? {draft : Draft} {id : GenerationId}
    {candidate : Candidate} (found : draft.candidate? id = some candidate) :
    candidate ∈ draft.candidates.members :=
  Roster.mem_of_find? found

theorem candidate?_of_bound? {draft : Draft} {id : GenerationId}
    {bound : BoundModule} (found : draft.bound? id = some bound) :
    draft.candidate? id = some (.bound bound) := by
  obtain ⟨candidate, hit, isBound⟩ := Option.bind_eq_some_iff.1 found
  cases candidate with
  | unresolved installed => cases isBound
  | resolved wired => cases isBound
  | bound binding =>
      cases isBound
      exact hit

end Draft

end ModuleWiring
