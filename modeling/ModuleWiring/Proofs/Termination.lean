import ModuleWiring.Proofs.Calls
import ModuleWiring.Proofs.Collecting
import ModuleWiring.Proofs.Exhaustive
import ModuleWiring.Proofs.FirstGoal

/-!
# Every search ends

The routines of a search make no endless chain of calls, since each call leaves
less to decide or hands its draft on.  Hence they give an answer, which is what
the search finds.
-/

namespace ModuleWiring

/-- The position of the search that a call stands for. -/
def Call.node (call : Call) : Node :=
  match call.routine with
  | .resolve => ⟨.start, call.draft⟩
  | .fragment => ⟨.start, call.draft⟩
  | .host => ⟨.start, call.draft⟩
  | .bundle => ⟨.requires, call.draft⟩
  | .requires => ⟨.requires, call.draft⟩
  | .wires => ⟨.imports, call.draft⟩
  | .advance => Search.settle call.draft

namespace Search

variable {search : Search} {draft : Draft}

/-- What the search finds from the position of a call. -/
def answer (search : Search) (call : Call) : Option Draft :=
  (search.problem.explore call.node).found

/-- The calls of a routine are the moves of a position, or it only hands the
position on. -/
inductive Mirrors (search : Search) (call : Call) : Prop where
  | moves :
      search.problem.goal? call.node = none →
      (search.callees call).map Call.node = search.problem.nexts call.node →
      Mirrors search call
  | handed (callee : Call) :
      search.callees call = [callee] → callee.node = call.node →
      Mirrors search call

theorem Mirrors.answer_eq
    {call : Call} (mirrors : Mirrors search call) :
    search.answer call =
      (search.callees call).findSome? search.answer := by
  cases mirrors with
  | moves unreached same =>
      rw [answer, Problem.found_explore unreached, ← same, List.findSome?_map]
      rfl
  | handed callee single same =>
      rw [single, List.findSome?_singleton, answer, answer, same]

theorem mirrors_resolve (orderly : IsOrderly ⟨.start, draft⟩) :
    search.Mirrors ⟨.resolve, draft⟩ := by
  have known : ∃ generation,
      draft.resolvingGeneration? = some generation := by
    rcases orderly.scheduled.stage with
      ⟨installed, resolving, found⟩ | ⟨fragment, resolving, found, _⟩
    · change draft.resolving = _ at resolving
      change draft.candidate? _ = _ at found
      exact ⟨installed, by simp [Draft.resolvingGeneration?, resolving,
        Draft.generation?, found, Candidate.generation, BoundModule.of]⟩
    · change draft.resolving = _ at resolving
      change draft.candidate? _ = _ at found
      exact ⟨fragment, by simp [Draft.resolvingGeneration?, resolving,
        Draft.generation?, found, Candidate.generation]⟩
  obtain ⟨generation, known⟩ := known
  obtain ⟨resolving, found⟩ := Draft.eq_of_resolvingGeneration? known
  cases isFragment : generation.isFragment with
  | true =>
      refine .handed ⟨.fragment, draft⟩ ?_ rfl
      simp [callees, resolving, found, isFragment]
  | false =>
      refine .handed ⟨.host, draft⟩ ?_ rfl
      simp [callees, resolving, found, isFragment]

theorem mirrors_fragment
    {fragment : Generation} (orderly : IsOrderly ⟨.start, draft⟩)
    (known : draft.resolvingGeneration? = some fragment)
    (isFragment : fragment.isFragment = true) :
    search.Mirrors ⟨.fragment, draft⟩ := by
  obtain ⟨resolving, _⟩ := Draft.eq_of_resolvingGeneration? known
  obtain ⟨found, _, hit, _, unclaimed⟩ :=
    orderly.unresolved_of_start known isFragment
  refine .moves rfl ?_
  have moves : search.startMoves draft =
      .ofList ((search.hostChoices draft fragment).map
        fun host => .attach fragment.id host.id) := by
    simp [startMoves, resolving, found, Candidate.generation, isFragment,
      isUnresolved, unclaimed]
  simp only [Problem.nexts, problem, Search.moves, Call.node, callees, known,
    moves, Alternatives.toList_ofList, List.filterMap_map,
    List.map_filterMap]
  congr 1
  funext host
  simp only [Function.comp_apply, play?, Option.map_map]
  rfl

theorem mirrors_host
    {host : Generation} (known : draft.resolvingGeneration? = some host)
    (notFragment : host.isFragment = false) :
    search.Mirrors ⟨.host, draft⟩ := by
  obtain ⟨resolving, generation⟩ := Draft.eq_of_resolvingGeneration? known
  obtain ⟨candidate, found, rfl⟩ := Option.map_eq_some_iff.1 generation
  refine .moves rfl ?_
  have moves : search.startMoves draft =
      (subsets ((search.fragmentChoices draft candidate.generation).map
        Generation.id)).map (.bind candidate.generation.id) := by
    simp [startMoves, resolving, found, notFragment]
  simp only [Problem.nexts, problem, Search.moves, Call.node, callees, known,
    moves, Alternatives.toList_map, List.filterMap_map, List.map_filterMap]
  congr 1
  funext fragments
  simp only [Function.comp_apply, play?, Option.map_map]
  rfl

theorem mirrors_bundle (orderly : IsOrderly ⟨.requires, draft⟩) :
    search.Mirrors ⟨.bundle, draft⟩ := by
  obtain ⟨_, current⟩ := orderly.scheduled.stage
  obtain ⟨id, resolving, _⟩ := Draft.exists_of_resolvingBound? current
  change draft.resolving = some id at resolving
  refine .handed ⟨.requires, draft⟩ ?_ rfl
  simp [callees, resolving]

theorem mirrors_requires (orderly : IsOrderly ⟨.requires, draft⟩) :
    search.Mirrors ⟨.requires, draft⟩ := by
  obtain ⟨_, current⟩ := orderly.scheduled.stage
  obtain ⟨id, resolving, _⟩ := Draft.exists_of_resolvingBound? current
  change draft.resolving = some id at resolving
  refine .moves rfl ?_
  simp only [Problem.nexts, problem, Search.moves, Call.node, callees,
    Alternatives.toList_ofList]
  cases pending : draft.nextRequire? with
  | none =>
      simp only [requireMoves, resolving, pending]
      rfl
  | some require =>
      dsimp only
      rw [List.map_map]
      exact (stayIn_requireMoves resolving pending).map_drafts

theorem mirrors_wires : search.Mirrors ⟨.wires, draft⟩ := by
  refine .moves rfl ?_
  simp only [Problem.nexts, problem, Search.moves, Call.node, callees,
    importMoves, Alternatives.toList_ofList]
  cases draft.resolvingBound? with
  | none => rfl
  | some bound =>
      dsimp only
      cases bound.imports with
      | nil => rfl
      | cons requirement rest =>
          dsimp only
          rw [List.map_map]
          exact (stayIn_importChoices draft bound requirement).map_drafts

theorem mirrors_advance
    (goesOn : Call.returned? ⟨.advance, draft⟩ = none) :
    search.Mirrors ⟨.advance, draft⟩ := by
  have waiting : ∃ next, draft.completeResolving.startNext? = some next := by
    cases started : draft.completeResolving.startNext? with
    | some next => exact ⟨next, rfl⟩
    | none =>
        have empty : draft.completeResolving.queue = [] := by
          unfold Draft.startNext? at started
          split at started
          · assumption
          · cases started
        have idle := resolving_completeResolving draft
        simp [Call.returned?, Draft.isDone, empty, idle] at goesOn
  obtain ⟨next, started⟩ := waiting
  refine .handed ⟨.resolve, next⟩ ?_ ?_
  · simp [callees, started]
  · simp [Call.node, settle, started]

theorem IsSound.mirrors
    {call : Call} (sound : IsSound call) (goesOn : call.returned? = none) :
    search.Mirrors call := by
  cases sound with
  | resolve orderly => exact mirrors_resolve orderly
  | fragment orderly known isFragment =>
      exact mirrors_fragment orderly known isFragment
  | host _ known notFragment => exact mirrors_host known notFragment
  | bundle orderly => exact mirrors_bundle orderly
  | requires orderly => exact mirrors_requires orderly
  | wires _ => exact mirrors_wires
  | advance _ _ => exact mirrors_advance goesOn

/-- What is given back at once is what the search finds. -/
theorem answer_of_returned
    {call : Call} {final : Draft} (returned : call.returned? = some final) :
    search.answer call = some final := by
  obtain ⟨routine, draft⟩ := call
  cases routine with
  | advance =>
      simp only [Call.returned?] at returned
      split at returned
      · rename_i isDone
        cases returned
        have started : draft.completeResolving.startNext? = none := by
          simp only [Draft.isDone, Bool.and_eq_true,
            List.isEmpty_iff] at isDone
          simp [Draft.startNext?, isDone.1]
        refine Problem.found_explore_of_goal ?_
        simp [Call.node, settle, started, problem, goal?]
      · cases returned
  | _ => cases returned

/-- Trying sound calls gives what the search finds, and nothing else. -/
theorem eq_of_tries
    {calls : List Call} {outcome : Option Draft}
    (tries : search.Tries calls outcome)
    (sound : ∀ call ∈ calls, IsSound call) :
    outcome = calls.findSome? search.answer := by
  have below : ∀ {call : Call} {rest : List Call},
      (∀ member ∈ call :: rest, IsSound member) →
        ∀ callee ∈ search.callees call, IsSound callee :=
    fun sound _ called => ((sound _ List.mem_cons_self).calls called).1
  have answers : ∀ {call : Call} {rest : List Call},
      (∀ member ∈ call :: rest, IsSound member) →
        call.returned? = none →
          search.answer call =
            (search.callees call).findSome? search.answer :=
    fun sound goesOn =>
      ((sound _ List.mem_cons_self).mirrors goesOn).answer_eq
  induction tries with
  | exhausted => rfl
  | returned given =>
      rw [List.findSome?_cons, answer_of_returned given]
  | found goesOn _ inductionHypothesis =>
      rw [List.findSome?_cons, answers sound goesOn,
        ← inductionHypothesis (below sound)]
  | back goesOn _ _ inductionHypothesis restHypothesis =>
      rw [List.findSome?_cons, answers sound goesOn,
        ← inductionHypothesis (below sound)]
      exact restHypothesis fun call member =>
        sound call (List.mem_cons_of_mem _ member)

/-- Trying calls comes to an end if it does so for each of them. -/
theorem exists_tries_of_forall
    (calls : List Call)
    (ends : ∀ call ∈ calls, call.returned? = none →
      ∃ outcome, search.Tries (search.callees call) outcome) :
    ∃ outcome, search.Tries calls outcome := by
  induction calls with
  | nil => exact ⟨none, .exhausted⟩
  | cons call rest inductionHypothesis =>
      cases given : call.returned? with
      | some final => exact ⟨some final, .returned given⟩
      | none =>
          obtain ⟨outcome, tried⟩ := ends call List.mem_cons_self given
          cases outcome with
          | some final => exact ⟨some final, .found given tried⟩
          | none =>
              obtain ⟨later, restTried⟩ := inductionHypothesis
                fun other member => ends other (List.mem_cons_of_mem _ member)
              exact ⟨later, .back given tried restTried⟩

/-- No chain of sound calls goes on forever. -/
theorem IsSound.acc
    (search : Search) {call : Call} (sound : IsSound call) :
    Acc (fun callee call => search.Calls call callee) call := by
  induction call using Call.wellFounded_below.induction with
  | _ call inductionHypothesis =>
      refine ⟨call, fun callee called => ?_⟩
      obtain ⟨calleeSound, below⟩ := sound.calls called
      exact inductionHypothesis callee below calleeSound

theorem IsSound.exists_tries
    {call : Call} (sound : IsSound call) :
    ∃ outcome, search.Tries (search.callees call) outcome := by
  have grounded := sound.acc search
  induction grounded with
  | intro call _ inductionHypothesis =>
      exact exists_tries_of_forall _ fun callee called _ =>
        inductionHypothesis callee called (sound.calls called).1

/-- A sound call gives what the search finds. -/
theorem IsSound.tries_iff
    {call : Call} (sound : IsSound call) (outcome : Option Draft) :
    search.Tries [call] outcome ↔ outcome = search.answer call := by
  have single : ∀ member ∈ [call], IsSound member := by
    rintro member listed
    rw [List.mem_singleton.1 listed]
    exact sound
  have determined : ∀ other, search.Tries [call] other →
      other = search.answer call := by
    intro other tried
    rw [eq_of_tries tried single, List.findSome?_singleton]
  refine ⟨determined outcome, ?_⟩
  rintro rfl
  obtain ⟨other, tried⟩ := exists_tries_of_forall [call]
    fun member listed _ => (single member listed).exists_tries
  rwa [determined other tried] at tried

theorem IsSound.of_reaches
    {first call : Call} (sound : IsSound first)
    (reaches : Relation.ReflTransGen search.Calls first call) :
    IsSound call := by
  induction reaches with
  | refl => exact sound
  | tail _ called inductionHypothesis =>
      exact (inductionHypothesis.calls called).1

/-- Some calls further on there is less to decide, or the draft has been handed
on. -/
theorem IsSound.below
    {call later : Call} (sound : IsSound call)
    (leads : Relation.TransGen search.Calls call later) :
    later.Below call := by
  induction leads with
  | single called => exact (sound.calls called).2
  | tail before called inductionHypothesis =>
      have middle := sound.of_reaches before.to_reflTransGen
      exact inductionHypothesis.trans (middle.calls called).2

/-- A search that starts with a call ends, and gives what was found.  Whenever it
comes back to a routine there is less to decide; no chain of calls goes on
forever; trying the calls has one outcome; and what follows from the uses lists
and the re-exports of any draft on the way is collected by a recursion that
ends. -/
structure Ends (search : Search) (first : Call) (found : Option Draft) :
    Prop where
  descends : ∀ {call later},
    Relation.ReflTransGen search.Calls first call →
      Relation.TransGen search.Calls call later →
        later.routine = call.routine →
          later.draft.measure < call.draft.measure
  grounded : Acc (fun callee call => search.Calls call callee) first
  outcome : ∀ other, search.Tries [first] other ↔ other = found
  uses : ∀ {call}, Relation.ReflTransGen search.Calls first call →
    ∀ wire, ∃ seen views,
      (call.draft.usesNetwork wire).Collects
          [(wire.exporter.id, wire.package)] (Draft.usedViews wire) seen
          views ∧
        call.draft.implied wire =
          wire :: views.filterMap call.draft.target?
  reexports : ∀ {call}, Relation.ReflTransGen search.Calls first call →
    ∀ provider, ∃ seen reached,
      (call.draft.reexports provider).Collects [] [provider] seen reached ∧
        call.draft.visible provider =
          Draft.firstOfEach (reached.flatMap call.draft.offeredBy)

theorem IsSound.ends
    {first : Call} (sound : IsSound first) :
    search.Ends first (search.answer first) where
  descends := by
    intro call later reaches leads again
    rcases (sound.of_reaches reaches).below leads with less | ⟨_, handed⟩
    · exact less
    · rw [again] at handed
      exact absurd handed (Nat.lt_irrefl _)
  grounded := sound.acc search
  outcome := sound.tries_iff
  uses := by
    intro call _ wire
    obtain ⟨seen, collects⟩ := Network.collects_walk
      (call.draft.usesNetwork wire) _ _ _
    exact ⟨seen, _, collects, rfl⟩
  reexports := by
    intro call _ provider
    obtain ⟨seen, collects⟩ := Network.collects_walk
      (call.draft.reexports provider) _ _ _
    exact ⟨seen, _, collects, rfl⟩

/-- Every search ends, whatever cycles there are among the modules: the search
for the wiring of any target, and the one for more wires of any host. -/
theorem search_ends (search : Search) :
    WellFounded (fun left right : Draft => left.measure < right.measure) ∧
      (∀ store generations target draft,
        Draft.initial store generations target = .ok draft →
          search.Ends ⟨.resolve, draft⟩ (search.run draft).found) ∧
      ∀ store generations host imports draft,
        Draft.forDynamicImport store generations host imports = .ok draft →
          search.Ends ⟨.bundle, draft⟩ (search.runPending draft).found := by
  refine ⟨InvImage.wf Draft.measure wellFounded_lt, ?_, ?_⟩
  · intro store generations target draft done
    exact (IsSound.resolve (isOrderly_of_initial done)).ends
  · intro store generations host imports draft done
    exact (IsSound.bundle (isOrderly_of_forDynamicImport done)).ends

end Search

namespace Sample

/-- Two bundles that import from each other and use what they import. -/
def cycle : World :=
  world [bundle "l" [offer "p" 1 ["q"]] [wish "q" 1],
    bundle "r" [offer "q" 1 ["p"]] [wish "p" 1]]

end Sample

namespace Search

/-- The search for one of two bundles that need each other ends with both
settled, and so does a search for more wires. -/
theorem cycle_ends :
    (∃ draft final,
      Draft.initial Sample.cycle.store
          (Sample.cycle.resolver.canonical Sample.cycle.store)
          (Sample.generation 0
            (Sample.bundle "l" [Sample.offer "p" 1 ["q"]]
              [Sample.wish "q" 1])) = .ok draft ∧
        (Sample.search Sample.cycle).Ends ⟨.resolve, draft⟩ (some final) ∧
        final.settled = [Sample.id 0, Sample.id 1]) ∧
      ∃ draft, Sample.reopening = .ok draft ∧
        (Sample.search Sample.miswired).Ends ⟨.bundle, draft⟩ none := by
  constructor
  · have facts : (Draft.initial Sample.cycle.store
        (Sample.cycle.resolver.canonical Sample.cycle.store)
        (Sample.generation 0
          (Sample.bundle "l" [Sample.offer "p" 1 ["q"]]
            [Sample.wish "q" 1]))).toOption.any (fun draft =>
          ((Sample.search Sample.cycle).run draft).found.any fun final =>
            final.settled = [Sample.id 0, Sample.id 1]) = true := by
      decide +kernel
    obtain ⟨draft, made, run⟩ := Option.any_eq_true _ _ |>.1 facts
    obtain ⟨final, found, settled⟩ := Option.any_eq_true _ _ |>.1 run
    have begun := eq_ok_of_toOption made
    have ends := (search_ends (Sample.search Sample.cycle)).2.1 _ _ _ _ begun
    exact ⟨draft, final, begun, found ▸ ends, by simpa using settled⟩
  · have facts : Sample.reopening.toOption.any (fun draft =>
        ((Sample.search Sample.miswired).runPending draft).found.isNone) =
          true := by
      decide +kernel
    obtain ⟨draft, made, missing⟩ := Option.any_eq_true _ _ |>.1 facts
    have begun := eq_ok_of_toOption made
    have ends := (search_ends (Sample.search Sample.miswired)).2.2 _ _ _ _ _
      begun
    rw [Option.isNone_iff_eq_none] at missing
    exact ⟨draft, begun, missing ▸ ends⟩

end Search

end ModuleWiring
