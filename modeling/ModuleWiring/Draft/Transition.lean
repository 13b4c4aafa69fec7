import ModuleWiring.Draft.Visible

/-!
# Decisions on a draft

The first draft of a search, and the drafts that its decisions make of another.
-/

namespace ModuleWiring.Draft

/-- Take a name for a singleton, unless another generation has it. -/
def registerSingleton (draft : Draft) (generation : Generation) :
    Except Incompatible Draft :=
  if generation.isSingleton then
    let register := { draft with
      singletons :=
        draft.singletons.insert generation.symbolicName generation.id }
    match draft.singletons.find? generation.symbolicName with
    | none => .ok register
    | some existing =>
        if existing = generation.id then
          .ok register
        else
          .error (.singletonConflict generation.symbolicName existing
            generation.id)
  else
    .ok draft

def put (draft : Draft) (candidate : Candidate) : Draft :=
  { draft with candidates := draft.candidates.insert candidate }

/-- Let a candidate take part that did not. -/
def use (draft : Draft) (id : GenerationId) : Draft :=
  { draft with
    used := draft.used.insert id
    unused := draft.unused.erase id }

/-- Add a generation to those that the search may choose from. Fragments that
are resolved belong to their hosts and are no candidates. -/
def addCandidate (draft : Draft) (generation : Generation) :
    Except Incompatible Draft :=
  let resolved := (draft.store.state generation).isResolved
  if resolved && generation.isFragment then
    .ok draft
  else do
    let draft ← draft.registerSingleton generation
    let candidate :=
      if resolved then
        Candidate.resolved (ResolvedModule.of draft.store generation)
      else
        Candidate.unresolved generation
    return { draft.put candidate with
      unused := draft.unused.insert generation.id }

/-- The draft in which nothing has been decided. -/
def pool (store : Store) (generations : List Generation) :
    Except Incompatible Draft :=
  generations.foldlM addCandidate (empty store)

/-- The draft that a search for the wiring of a generation starts from. A
fragment waits for a host; any other is bound at once. -/
def initial (store : Store) (generations : List Generation)
    (target : Generation) : Except Incompatible Draft := do
  let draft ← pool store generations
  let draft ← draft.registerSingleton target
  if target.isFragment then
    return { draft.put (.unresolved target) with
      unused := draft.unused.erase target.id
      resolving := some target.id }
  else
    return { (draft.put (.bound (BoundModule.of target))).use target.id with
      resolving := some target.id }

/-- The draft that a search for more wires of a resolved generation starts
from. -/
def forDynamicImport (store : Store) (generations : List Generation)
    (host : Generation) (imports : List PackageImport) :
    Except Incompatible Draft := do
  let draft ← pool store generations
  let resolved :=
    match draft.candidate? host.id with
    | some (.resolved wired) => wired
    | _ => ResolvedModule.of store host
  let bound := { BoundModule.reopen resolved with imports := imports }
  return { (draft.put (.bound bound)).use host.id with
    resolving := some host.id }

def changeResolving (draft : Draft) (change : BoundModule → BoundModule) :
    Draft :=
  match draft.resolvingBound? with
  | none => draft
  | some bound => draft.put (.bound (change bound))

def skipRequire (draft : Draft) : Draft :=
  draft.changeResolving fun bound =>
    { bound with requires := bound.requires.tail }

def skipImport (draft : Draft) : Draft :=
  draft.changeResolving fun bound =>
    { bound with imports := bound.imports.tail }

/-- Decide the next require for a provider. -/
def acceptRequire (draft : Draft) (id : GenerationId) : Draft :=
  match draft.generation? id, draft.resolvingBound? with
  | some provider, some bound =>
      match bound.requires with
      | [] => draft
      | require :: rest =>
          let visible :=
            if require.isReexport then draft.visible provider else []
          draft.put (.bound
            ({ bound with requires := rest }.addProvision
              ⟨require, provider⟩ visible))
  | _, _ => draft

/-- Start to bind an unresolved candidate, which waits in the queue then. -/
def enlist (draft : Draft) (id : GenerationId) : Except Incompatible Draft :=
  match draft.candidate? id with
  | some (.unresolved generation) => do
      let draft ← draft.registerSingleton generation
      let draft := (draft.put (.bound (BoundModule.of generation))).use id
      return { draft with queue := draft.queue ++ [id] }
  | _ => .ok draft

/-- Meet the next require by a provider that was resolved before. -/
def requireResolved (draft : Draft) (id : GenerationId) : Draft :=
  (if draft.unused.contains id then draft.use id else draft).acceptRequire id

/-- Meet the next require by a provider that the search has bound. -/
def requireBound (draft : Draft) (id : GenerationId) : Draft :=
  draft.acceptRequire id

/-- Meet the next require by a provider that is not resolved. -/
def requireUnresolved (draft : Draft) (id : GenerationId) :
    Except Incompatible Draft := do
  return (← draft.enlist id).acceptRequire id

/-- Let an exporter take part, binding it if it is not resolved. -/
def engage (draft : Draft) (id : GenerationId) : Except Incompatible Draft :=
  match draft.candidate? id with
  | some (.unresolved _) => draft.enlist id
  | some (.resolved _) =>
      .ok (if draft.unused.contains id then draft.use id else draft)
  | _ => .ok draft

/-- Wire the next import to an export. -/
def wire (draft : Draft) (exporter : Generation) (declared : Export) :
    Except Incompatible Draft := do
  let draft ← draft.engage exporter.id
  match draft.resolvingBound? with
  | none => return draft
  | some bound =>
      match bound.imports with
      | [] => return draft
      | requirement :: rest =>
          let bound ← { bound with imports := rest }.addWiring
            ⟨requirement.package, declared, exporter⟩
          return draft.put (.bound bound)

/-- Check that a host accepts fragments in its present state. -/
def checkAttachment (fragment : GenerationId) (host : Candidate) :
    Except Incompatible Unit :=
  match host.generation.manifest.fragmentAttachment, host with
  | .never, _ =>
      .error (.fragmentAttachment fragment host.id .refused)
  | .resolveTime, .resolved _ =>
      .error (.fragmentAttachment fragment host.id .refusedOnceResolved)
  | _, _ => .ok ()

def claim (draft : Draft) (fragment host : GenerationId) : Draft :=
  { draft with
    unused := draft.unused.erase fragment
    attached := draft.attached.insert fragment host }

/-- Bind a host with a fragment and decide its requirements next. -/
def openHost (draft : Draft) (bound : BoundModule) (id : GenerationId) :
    Draft :=
  { (draft.put (.bound bound)).use id with resolving := some id }

/-- Attach a fragment to a host. A host that is not bound yet is bound and
becomes the next to be decided, and so does one that was through with that. One
that waits in the queue goes on waiting. -/
def attachFragment (draft : Draft) (fragment host : GenerationId) :
    Except Incompatible Draft :=
  match draft.generation? fragment, draft.candidate? host with
  | some generation, some candidate => do
      checkAttachment fragment candidate
      let draft ←
        match candidate with
        | .resolved wired => do
            let bound ← (BoundModule.reopen wired).attach generation
            pure (draft.openHost bound host)
        | .bound binding => do
            let bound ← binding.attach generation
            let draft := draft.put (.bound bound)
            if draft.isSettled host then
              pure { draft with
                settled := draft.settled.filter (· ≠ host)
                resolving := some host }
            else
              pure { draft with resolving := none }
        | .unresolved installed => do
            let draft ← draft.registerSingleton installed
            let bound ← (BoundModule.of installed).attach generation
            pure (draft.openHost bound host)
      return draft.claim fragment host
  | _, _ => .ok draft

/-- Attach fragments one after the other to a host that is being bound. -/
def attachAll (host : Candidate) :
    List GenerationId → Draft → BoundModule →
      Except Incompatible (Draft × BoundModule)
  | [], draft, bound => .ok (draft, bound)
  | fragment :: rest, draft, bound =>
      match draft.generation? fragment with
      | none => attachAll host rest draft bound
      | some generation => do
          checkAttachment fragment host
          let bound ← bound.attach generation
          attachAll host rest (draft.claim fragment host.id) bound

/-- Bind fragments together with their host. -/
def bindFragments (draft : Draft) (host : GenerationId)
    (fragments : List GenerationId) : Except Incompatible Draft :=
  match draft.candidate? host with
  | some (.bound binding) => do
      let (draft, bound) ←
        attachAll (.bound binding) fragments draft binding
      return draft.put (.bound bound)
  | _ => .ok draft

/-- Note that all requirements of the candidate have been decided. -/
def completeResolving (draft : Draft) : Draft :=
  match draft.resolving with
  | none => draft
  | some id =>
      let settled :=
        match draft.bound? id with
        | none => draft.settled
        | some _ =>
            if draft.isSettled id then draft.settled
            else draft.settled ++ [id]
      { draft with resolving := none, settled := settled }

/-- Go on to the first candidate in the queue, if there is one. -/
def startNext? (draft : Draft) : Option Draft :=
  match draft.queue with
  | [] => none
  | id :: rest => some { draft with resolving := some id, queue := rest }

/-- One solution for each settled module, in the order in which they were
settled. -/
def solutions (draft : Draft) : List Solution :=
  (draft.settled.filterMap draft.bound?).map fun bound => {
    host := bound.host
    fragments := bound.fragments
    wires := bound.wirings.values
    required :=
      bound.required.map fun provision => {
        require := provision.require
        exporter := provision.provider
        reexport := provision.require.isReexport
        wires := draft.visible provision.provider } }

end ModuleWiring.Draft
