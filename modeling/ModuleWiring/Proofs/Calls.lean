import ModuleWiring.Proofs.Measure

/-!
# The routines of a search

The search can be told as a few routines that call each other: one for the
candidate that a draft starts with, one each for fragments, hosts, requires and
wires, and one that goes on to the next candidate.  Each of them tries its calls
in order until one gives a draft.  `Tries` says what comes out of that without
assuming that anything does.
-/

namespace ModuleWiring

/-- The routines that a search consists of. -/
inductive Routine where
  | resolve
  | fragment
  | host
  | bundle
  | requires
  | wires
  | advance
  deriving DecidableEq, Repr

/-- A routine is called on a draft. -/
structure Call where
  routine : Routine
  draft : Draft

def Draft.resolvingGeneration? (draft : Draft) : Option Generation :=
  draft.resolving.bind draft.generation?

/-- What is given back without a further call: the draft in which everything has
been decided. -/
def Call.returned? (call : Call) : Option Draft :=
  match call.routine with
  | .advance =>
      if call.draft.completeResolving.isDone then
        some call.draft.completeResolving
      else
        none
  | _ => none

namespace Search

/-- The drafts that moves make from a position, in the order of the moves. -/
def drafts (node : Node) (moves : List Move) : List Draft :=
  moves.filterMap fun move => (play? node move).map Node.draft

/-- The drafts in which the next require of the module in charge is decided. -/
def decideRequire (search : Search) (draft : Draft) : List Draft :=
  drafts ⟨.requires, draft⟩ (search.requireMoves draft)

/-- The drafts in which the next import of the module in charge is decided. -/
def decideImport (search : Search) (draft : Draft) (bound : BoundModule)
    (requirement : PackageImport) : List Draft :=
  drafts ⟨.imports, draft⟩ (search.importChoices draft bound requirement)

/-- The calls that a call makes, in the order in which it tries them. -/
def callees (search : Search) (call : Call) : List Call :=
  let draft := call.draft
  match call.routine with
  | .resolve =>
      match draft.resolving with
      | none => [⟨.bundle, draft⟩]
      | some id =>
          match draft.generation? id with
          | none => []
          | some generation =>
              if generation.isFragment then [⟨.fragment, draft⟩]
              else [⟨.host, draft⟩]
  | .fragment =>
      match draft.resolvingGeneration? with
      | none => []
      | some fragment =>
          (search.hostChoices draft fragment).filterMap fun host =>
            ((draft.attachFragment fragment.id host.id).toOption).map
              (⟨.bundle, ·⟩)
  | .host =>
      match draft.resolvingGeneration? with
      | none => []
      | some host =>
          (subsets ((search.fragmentChoices draft host).map
            Generation.id)).toList.filterMap fun fragments =>
              (bind? draft host.id fragments).map (⟨.bundle, ·⟩)
  | .bundle =>
      if draft.resolving.isNone then [⟨.advance, draft⟩]
      else [⟨.requires, draft⟩]
  | .requires =>
      match draft.nextRequire? with
      | none => [⟨.wires, draft⟩]
      | some _ => (search.decideRequire draft).map (⟨.requires, ·⟩)
  | .wires =>
      match draft.resolvingBound? with
      | none => [⟨.advance, draft⟩]
      | some bound =>
          match bound.imports with
          | [] => [⟨.advance, draft⟩]
          | requirement :: _ =>
              (search.decideImport draft bound requirement).map (⟨.wires, ·⟩)
  | .advance =>
      match draft.completeResolving.startNext? with
      | none => []
      | some next => [⟨.resolve, next⟩]

/-- One call makes another. -/
def Calls (search : Search) (call callee : Call) : Prop :=
  callee ∈ search.callees call

/-- What comes out when calls are tried one after the other until one gives a
draft. -/
inductive Tries (search : Search) : List Call → Option Draft → Prop where
  | exhausted : Tries search [] none
  | returned {call : Call} {rest : List Call} {draft : Draft} :
      call.returned? = some draft →
      Tries search (call :: rest) (some draft)
  | found {call : Call} {rest : List Call} {draft : Draft} :
      call.returned? = none →
      Tries search (search.callees call) (some draft) →
      Tries search (call :: rest) (some draft)
  | back {call : Call} {rest : List Call} {outcome : Option Draft} :
      call.returned? = none →
      Tries search (search.callees call) none →
      Tries search rest outcome →
      Tries search (call :: rest) outcome

/-- What is known of the candidate in charge when a routine is called. -/
inductive IsSound : Call → Prop where
  | resolve {draft : Draft} :
      IsOrderly ⟨.start, draft⟩ → IsSound ⟨.resolve, draft⟩
  | fragment {draft : Draft} {fragment : Generation} :
      IsOrderly ⟨.start, draft⟩ →
      draft.resolvingGeneration? = some fragment →
      fragment.isFragment = true → IsSound ⟨.fragment, draft⟩
  | host {draft : Draft} {host : Generation} :
      IsOrderly ⟨.start, draft⟩ →
      draft.resolvingGeneration? = some host →
      host.isFragment = false → IsSound ⟨.host, draft⟩
  | bundle {draft : Draft} :
      IsOrderly ⟨.requires, draft⟩ → IsSound ⟨.bundle, draft⟩
  | requires {draft : Draft} :
      IsOrderly ⟨.requires, draft⟩ → IsSound ⟨.requires, draft⟩
  | wires {draft : Draft} :
      IsOrderly ⟨.imports, draft⟩ → IsSound ⟨.wires, draft⟩
  | advance {draft : Draft} :
      IsOrderly ⟨.imports, draft⟩ →
      (∀ bound, draft.resolvingBound? = some bound → bound.imports = []) →
      IsSound ⟨.advance, draft⟩

end Search

/-- The order in which the routines hand a draft on to each other. -/
def Routine.rank : Routine → Nat
  | .resolve => 5
  | .fragment => 4
  | .host => 4
  | .bundle => 3
  | .requires => 2
  | .wires => 1
  | .advance => 0

/-- There is less to decide in a call, or it hands the draft on. -/
def Call.Below (callee call : Call) : Prop :=
  callee.draft.measure < call.draft.measure ∨
    callee.draft = call.draft ∧ callee.routine.rank < call.routine.rank

theorem Call.below_of_rank
    {draft : Draft} {next caller : Routine} (handed : next.rank < caller.rank) :
    Call.Below ⟨next, draft⟩ ⟨caller, draft⟩ :=
  .inr ⟨rfl, handed⟩

theorem Call.wellFounded_below : WellFounded Call.Below := by
  have ordered : WellFounded fun left right : Call =>
      toLex (left.draft.measure, left.routine.rank) <
        toLex (right.draft.measure, right.routine.rank) :=
    InvImage.wf (fun call : Call =>
      toLex (call.draft.measure, call.routine.rank)) wellFounded_lt
  refine Subrelation.wf ?_ ordered
  rintro callee call (less | ⟨same, handed⟩)
  · exact Prod.Lex.toLex_lt_toLex.2 (.inl less)
  · exact Prod.Lex.toLex_lt_toLex.2
      (.inr ⟨congrArg Draft.measure same, handed⟩)

theorem Call.Below.trans
    {first second third : Call} (lower : second.Below first)
    (lowest : third.Below second) :
    third.Below first := by
  rcases lower with less | ⟨same, handed⟩ <;>
    rcases lowest with lessAgain | ⟨sameAgain, handedAgain⟩
  · exact .inl (lessAgain.trans less)
  · exact .inl (sameAgain ▸ less)
  · exact .inl (same ▸ lessAgain)
  · exact .inr ⟨sameAgain.trans same, handedAgain.trans handed⟩

theorem Draft.eq_of_resolvingGeneration?
    {draft : Draft} {generation : Generation}
    (known : draft.resolvingGeneration? = some generation) :
    draft.resolving = some generation.id ∧
      draft.generation? generation.id = some generation := by
  obtain ⟨id, resolving, found⟩ := Option.bind_eq_some_iff.1 known
  have same : generation.id = id := id_of_generation? found
  exact ⟨resolving.trans (congrArg some same.symm), same ▸ found⟩

namespace Search

variable {search : Search} {draft : Draft} {callee : Call}

theorem IsOrderly.unresolved_of_start
    {fragment : Generation} (orderly : IsOrderly ⟨.start, draft⟩)
    (known : draft.resolvingGeneration? = some fragment)
    (isFragment : fragment.isFragment = true) :
    draft.candidate? fragment.id = some (.unresolved fragment) ∧
      draft.IsFree fragment.id := by
  obtain ⟨resolving, found⟩ := Draft.eq_of_resolvingGeneration? known
  have hit := orderly.unresolved_of_turn resolving found isFragment
  obtain ⟨untouched, _, _⟩ :=
    orderly.scheduled.untouched_of_start resolving hit
  exact ⟨hit, _, hit, isFragment,
    orderly.balanced.unclaimed hit (.inr untouched)⟩

/-- A decision that one routine takes for another to go on. -/
theorem below_of_decision
    {phase later : Phase} {result : Draft} (caller next : Routine)
    (orderly : IsOrderly ⟨phase, draft⟩)
    (decision : Decision search ⟨phase, draft⟩ ⟨later, result⟩)
    (handed : later.rank < phase.rank → next.rank < caller.rank) :
    IsOrderly ⟨later, result⟩ ∧ Call.Below ⟨next, result⟩ ⟨caller, draft⟩ :=
  ⟨isOrderly_of_decision orderly decision,
    (measure_of_decision orderly decision).imp_right fun same =>
      ⟨same.1, handed same.2⟩⟩

theorem resolve_calls
    (orderly : IsOrderly ⟨.start, draft⟩)
    (calls : search.Calls ⟨.resolve, draft⟩ callee) :
    IsSound callee ∧ callee.Below ⟨.resolve, draft⟩ := by
  simp only [Calls, callees] at calls
  split at calls
  · rename_i idle
    cases List.mem_singleton.1 calls
    obtain ⟨kept, below⟩ := below_of_decision .resolve .bundle orderly
      (.idle idle : Decision search _ _) (fun _ => by decide)
    exact ⟨.bundle kept, below⟩
  · rename_i id resolving
    split at calls
    · cases calls
    · rename_i generation found
      have known : draft.resolvingGeneration? = some generation := by
        rw [Draft.resolvingGeneration?, resolving]
        exact found
      split at calls
      · rename_i isFragment
        cases List.mem_singleton.1 calls
        exact ⟨.fragment orderly known isFragment, Call.below_of_rank (by decide)⟩
      · rename_i notFragment
        cases List.mem_singleton.1 calls
        exact ⟨.host orderly known (Bool.eq_false_iff.2 notFragment),
          Call.below_of_rank (by decide)⟩

theorem fragment_calls
    {fragment : Generation} (orderly : IsOrderly ⟨.start, draft⟩)
    (known : draft.resolvingGeneration? = some fragment)
    (isFragment : fragment.isFragment = true)
    (calls : search.Calls ⟨.fragment, draft⟩ callee) :
    IsSound callee ∧ callee.Below ⟨.fragment, draft⟩ := by
  simp only [Calls, callees, known] at calls
  obtain ⟨host, offered, called⟩ := List.mem_filterMap.1 calls
  obtain ⟨next, attached, rfl⟩ := Option.map_eq_some_iff.1 called
  obtain ⟨resolving, _⟩ := Draft.eq_of_resolvingGeneration? known
  obtain ⟨found, _⟩ := orderly.unresolved_of_start known isFragment
  obtain ⟨kept, below⟩ := below_of_decision .fragment .bundle orderly
    (.attach resolving found isFragment offered (eq_ok_of_toOption attached))
    (fun _ => by decide)
  exact ⟨.bundle kept, below⟩

theorem host_calls
    {host : Generation} (orderly : IsOrderly ⟨.start, draft⟩)
    (known : draft.resolvingGeneration? = some host)
    (notFragment : host.isFragment = false)
    (calls : search.Calls ⟨.host, draft⟩ callee) :
    IsSound callee ∧ callee.Below ⟨.host, draft⟩ := by
  simp only [Calls, callees, known] at calls
  obtain ⟨fragments, chosen, called⟩ := List.mem_filterMap.1 calls
  obtain ⟨next, bound, rfl⟩ := Option.map_eq_some_iff.1 called
  obtain ⟨resolving, generation⟩ := Draft.eq_of_resolvingGeneration? known
  obtain ⟨candidate, found, rfl⟩ := Option.map_eq_some_iff.1 generation
  obtain ⟨kept, below⟩ := below_of_decision .host .bundle orderly
    (.bind resolving found notFragment (sublist_of_mem_subsets chosen) bound)
    (fun _ => by decide)
  exact ⟨.bundle kept, below⟩

theorem bundle_calls
    (orderly : IsOrderly ⟨.requires, draft⟩)
    (calls : search.Calls ⟨.bundle, draft⟩ callee) :
    IsSound callee ∧ callee.Below ⟨.bundle, draft⟩ := by
  obtain ⟨_, current⟩ := orderly.scheduled.stage
  obtain ⟨id, resolving, _⟩ := Draft.exists_of_resolvingBound? current
  change draft.resolving = some id at resolving
  simp only [Calls, callees, resolving] at calls
  cases List.mem_singleton.1 calls
  exact ⟨.requires orderly, Call.below_of_rank (by decide)⟩

/-- Whatever moves lead to is decided in the phase in which they are made. -/
def StayIn (phase : Phase) (draft : Draft) (moves : List Move) : Prop :=
  ∀ move ∈ moves, ∀ next, play? ⟨phase, draft⟩ move = some next →
    next.phase = phase

theorem StayIn.map_drafts
    {phase : Phase} {moves : List Move} (stay : StayIn phase draft moves) :
    (drafts ⟨phase, draft⟩ moves).map (Node.mk phase) =
      moves.filterMap (play? ⟨phase, draft⟩) := by
  rw [drafts, List.map_filterMap]
  refine List.filterMap_congr fun move member => ?_
  cases played : play? ⟨phase, draft⟩ move with
  | none => rfl
  | some next =>
      have same : next.phase = phase := stay move member next played
      subst same
      rfl

theorem StayIn.exists_move
    {phase : Phase} {moves : List Move} {result : Draft}
    (stay : StayIn phase draft moves)
    (listed : result ∈ drafts ⟨phase, draft⟩ moves) :
    ∃ move ∈ moves, play? ⟨phase, draft⟩ move = some ⟨phase, result⟩ := by
  have mapped : (⟨phase, result⟩ : Node) ∈
      (drafts ⟨phase, draft⟩ moves).map (Node.mk phase) :=
    List.mem_map_of_mem listed
  rw [stay.map_drafts] at mapped
  exact List.mem_filterMap.1 mapped

/-- While there is a require to decide, the moves decide it. -/
theorem stayIn_requireMoves
    {id : GenerationId} {require : Require}
    (resolving : draft.resolving = some id)
    (pending : draft.nextRequire? = some require) :
    StayIn .requires draft (search.requireMoves draft) := by
  intro move listed next played
  simp only [requireMoves, resolving, pending] at listed
  rcases List.mem_append.1 listed with provided | skipped
  · obtain ⟨provider, _, rfl⟩ := List.mem_map.1 provided
    obtain ⟨result, _, rfl⟩ := Option.map_eq_some_iff.1 played
    rfl
  · split at skipped
    · cases List.mem_singleton.1 skipped
      cases played
      rfl
    · cases skipped

/-- An import is left, or wired to one of the choices. -/
theorem kind_of_importChoices
    {bound : BoundModule} {requirement : PackageImport} {move : Move}
    (listed : move ∈ search.importChoices draft bound requirement) :
    move = .leaveImport ∨
      ∃ choice ∈ search.wireChoices draft requirement, move = .wire choice := by
  unfold importChoices at listed
  grind

theorem stayIn_importChoices
    (draft : Draft) (bound : BoundModule) (requirement : PackageImport) :
    StayIn .imports draft
      (search.importChoices draft bound requirement) := by
  intro move listed next played
  rcases kind_of_importChoices listed with rfl | ⟨choice, _, rfl⟩
  · cases played
    rfl
  · obtain ⟨result, _, rfl⟩ := Option.map_eq_some_iff.1 played
    rfl

theorem requires_calls
    (orderly : IsOrderly ⟨.requires, draft⟩)
    (calls : search.Calls ⟨.requires, draft⟩ callee) :
    IsSound callee ∧ callee.Below ⟨.requires, draft⟩ := by
  obtain ⟨_, current⟩ := orderly.scheduled.stage
  obtain ⟨id, resolving, _⟩ := Draft.exists_of_resolvingBound? current
  change draft.resolving = some id at resolving
  simp only [Calls, callees] at calls
  split at calls
  · rename_i through
    cases List.mem_singleton.1 calls
    have decision : Decision search ⟨.requires, draft⟩ ⟨.imports, draft⟩ :=
      .toImports (by rw [resolving]; rfl) through
    obtain ⟨kept, below⟩ := below_of_decision .requires .wires orderly
      decision (fun _ => by decide)
    exact ⟨.wires kept, below⟩
  · rename_i require pending
    obtain ⟨result, listed, rfl⟩ := List.mem_map.1 calls
    obtain ⟨move, member, played⟩ :=
      (stayIn_requireMoves resolving pending).exists_move listed
    obtain ⟨kept, below⟩ := below_of_decision .requires .requires orderly
      (decision_of_requireMoves member played)
      (fun same => absurd same (Nat.lt_irrefl _))
    exact ⟨.requires kept, below⟩

theorem wires_calls
    (orderly : IsOrderly ⟨.imports, draft⟩)
    (calls : search.Calls ⟨.wires, draft⟩ callee) :
    IsSound callee ∧ callee.Below ⟨.wires, draft⟩ := by
  simp only [Calls, callees] at calls
  split at calls
  · rename_i idle
    cases List.mem_singleton.1 calls
    exact ⟨.advance orderly (by simp [idle]), Call.below_of_rank (by decide)⟩
  · rename_i bound current
    split at calls
    · rename_i through
      cases List.mem_singleton.1 calls
      refine ⟨.advance orderly ?_, Call.below_of_rank (by decide)⟩
      intro other same
      rw [current] at same
      cases same
      exact through
    · rename_i requirement rest next
      obtain ⟨result, listed, rfl⟩ := List.mem_map.1 calls
      obtain ⟨move, member, played⟩ :=
        (stayIn_importChoices draft bound requirement).exists_move listed
      obtain ⟨kept, below⟩ := below_of_decision .wires .wires orderly
        (decision_of_importChoices current next member played)
        (fun same => absurd same (Nat.lt_irrefl _))
      exact ⟨.wires kept, below⟩

theorem advance_calls
    (orderly : IsOrderly ⟨.imports, draft⟩)
    (decided : ∀ bound, draft.resolvingBound? = some bound →
      bound.imports = [])
    (calls : search.Calls ⟨.advance, draft⟩ callee) :
    IsSound callee ∧ callee.Below ⟨.advance, draft⟩ := by
  simp only [Calls, callees] at calls
  split at calls
  · cases calls
  · rename_i next started
    cases List.mem_singleton.1 calls
    have settled : Search.settle draft = ⟨.start, next⟩ := by
      rw [Search.settle, started]
    have decision : Decision search ⟨.imports, draft⟩ (Search.settle draft) :=
      .settle (.inr ⟨rfl, decided⟩)
    rw [settled] at decision
    obtain ⟨kept, below⟩ := below_of_decision .advance .resolve orderly
      decision
      (fun less => absurd less (by decide))
    exact ⟨.resolve kept, below⟩

/-- Every call that a sound call makes is sound and leaves less to decide, or
hands the draft on. -/
theorem IsSound.calls
    {call : Call} (sound : IsSound call) (calls : search.Calls call callee) :
    IsSound callee ∧ callee.Below call := by
  cases sound with
  | resolve orderly => exact resolve_calls orderly calls
  | fragment orderly known isFragment =>
      exact fragment_calls orderly known isFragment calls
  | host orderly known notFragment =>
      exact host_calls orderly known notFragment calls
  | bundle orderly => exact bundle_calls orderly calls
  | requires orderly => exact requires_calls orderly calls
  | wires orderly => exact wires_calls orderly calls
  | advance orderly decided => exact advance_calls orderly decided calls

end Search

end ModuleWiring
