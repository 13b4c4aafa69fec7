import ModuleWiring.Search.Choices

/-!
# Positions and moves of a search

A candidate is decided in three phases: first its fragments, or the host of a
fragment, then its requires, and then its imports.
-/

namespace ModuleWiring

/-- What is decided next. -/
inductive Phase where
  | start
  | requires
  | imports
  | finished
  deriving DecidableEq, Repr

/-- A position of a search. -/
structure Node where
  phase : Phase
  draft : Draft

inductive Move where
  | attach (fragment host : GenerationId)
  | bind (host : GenerationId) (fragments : List GenerationId)
  | toRequires
  | provide (provider : Generation)
  | leaveRequire
  | toImports
  | wire (choice : WireChoice)
  | leaveImport
  | settle

namespace Search

/-- The moves that a candidate starts with. A fragment that nobody has claimed
looks for a host, and a host takes on fragments, as many of them as possible. -/
def startMoves (search : Search) (draft : Draft) : Alternatives Move :=
  match draft.resolving with
  | none => .only .toRequires
  | some id =>
      match draft.candidate? id with
      | none => .none
      | some candidate =>
          if candidate.generation.isFragment then
            if isUnresolved candidate && !draft.attached.contains id then
              .ofList <| (search.hostChoices draft candidate.generation).map
                fun host => .attach id host.id
            else
              .none
          else
            (subsets ((search.fragmentChoices draft
              candidate.generation).map Generation.id)).map (.bind id)

def requireMoves (search : Search) (draft : Draft) : List Move :=
  match draft.resolving with
  | none => [.settle]
  | some _ =>
      match draft.nextRequire? with
      | none => [.toImports]
      | some require =>
          (search.requireChoices draft require).map .provide ++
            if require.isOptional then [.leaveRequire] else []

/-- The moves that decide the next import of a bound module. A package that is
wired already or delegated needs no wire. -/
def importChoices (search : Search) (draft : Draft) (bound : BoundModule)
    (requirement : PackageImport) : List Move :=
  match bound.wirings.find? requirement.package with
  | some wire =>
      if requirement.accepts wire.declared wire.exporter ||
          requirement.isOptional then
        [.leaveImport]
      else
        []
  | none =>
      if search.framework.bootDelegation.covers requirement.package then
        [.leaveImport]
      else
        (search.wireChoices draft requirement).map .wire ++
          if isSelfServed bound requirement || requirement.isOptional then
            [.leaveImport]
          else
            []

def importMoves (search : Search) (draft : Draft) : List Move :=
  match draft.resolvingBound? with
  | none => [.settle]
  | some bound =>
      match bound.imports with
      | [] => [.settle]
      | requirement :: _ => search.importChoices draft bound requirement

def moves (search : Search) (node : Node) : Alternatives Move :=
  match node.phase with
  | .start => search.startMoves node.draft
  | .requires => .ofList (search.requireMoves node.draft)
  | .imports => .ofList (search.importMoves node.draft)
  | .finished => .none

def provide? (draft : Draft) (provider : Generation) : Option Draft :=
  if isRequireConsistent draft provider then
    match draft.candidate? provider.id with
    | some (.resolved _) => some (draft.requireResolved provider.id)
    | some (.bound _) => some (draft.requireBound provider.id)
    | some (.unresolved _) =>
        (draft.requireUnresolved provider.id).toOption
    | none => none
  else
    none

def wire? (draft : Draft) (choice : WireChoice) : Option Draft :=
  match draft.resolvingBound? with
  | none => none
  | some bound =>
      match bound.imports with
      | [] => none
      | requirement :: _ =>
          if isWireConsistent draft bound requirement.package choice then
            (draft.wire choice.exporter choice.declared).toOption
          else
            none

/-- Settle the candidate and go on to the next, or finish if there is none. -/
def settle (draft : Draft) : Node :=
  match draft.completeResolving.startNext? with
  | none => ⟨.finished, draft.completeResolving⟩
  | some next => ⟨.start, next⟩

/-- The draft in which a host takes on fragments. -/
def bind? (draft : Draft) (host : GenerationId)
    (fragments : List GenerationId) : Option Draft :=
  if fragments.isEmpty then
    some draft
  else
    (draft.bindFragments host fragments).toOption

/-- The position after a move, if the move is possible. -/
def play? (node : Node) : Move → Option Node
  | .attach fragment host =>
      ((node.draft.attachFragment fragment host).toOption).map
        (⟨.requires, ·⟩)
  | .bind host fragments =>
      (bind? node.draft host fragments).map (⟨.requires, ·⟩)
  | .toRequires => some ⟨.requires, node.draft⟩
  | .provide provider =>
      (provide? node.draft provider).map (⟨.requires, ·⟩)
  | .leaveRequire => some ⟨.requires, node.draft.skipRequire⟩
  | .toImports => some ⟨.imports, node.draft⟩
  | .wire choice => (wire? node.draft choice).map (⟨.imports, ·⟩)
  | .leaveImport => some ⟨.imports, node.draft.skipImport⟩
  | .settle => some (settle node.draft)

/-- A position in which everything has been decided. -/
def goal? (node : Node) : Option Draft :=
  match node.phase with
  | .finished => some node.draft
  | _ => none

/-- Positions with a require or an import to decide count as decisions. -/
def cost (node : Node) : Nat :=
  match node.phase with
  | .requires => if node.draft.nextRequire?.isSome then 1 else 0
  | .imports => if node.draft.nextImport?.isSome then 1 else 0
  | _ => 0

end Search

end ModuleWiring
