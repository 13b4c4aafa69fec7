import ModuleWiring.Proofs.Checkpoints
import ModuleWiring.Proofs.World

/-!
# The search is exhaustive

A search finds a wiring exactly where its transitions lead to a checkpoint in which
everything is decided, and what it finds is such a checkpoint.  An import whose
package has a wire that does not suit it needs care: it can only be left if it is
optional.  A search that starts afresh never meets another case, but a dynamic
one can be asked for a package that its module has a wire for.
-/

namespace ModuleWiring

/-- The checkpoint that a position stands for. -/
def Node.checkpoint (node : Node) : Checkpoint :=
  ⟨node.phase = .start, node.draft⟩

namespace Search

/-- An import may be left: it needs no wire, or it is optional, or the module
offers the package itself. -/
def Leaves (search : Search) (bound : BoundModule)
    (requirement : PackageImport) : Prop :=
  search.NeedsNoWire bound requirement ∨ requirement.isOptional = true ∨
    isSelfServed bound requirement = true

/-- An import may be left in a search that keeps to the wire that its package has:
neither delegation nor an offer makes up for one that does not suit. -/
def LeavesKeeping (search : Search) (bound : BoundModule)
    (requirement : PackageImport) : Prop :=
  match bound.wirings.find? requirement.package with
  | some wire =>
      requirement.accepts wire.declared wire.exporter = true ∨
        requirement.isOptional = true
  | none => search.Leaves bound requirement

variable {search : Search} {bound : BoundModule} {requirement : PackageImport}

theorem leavesKeeping_of_isOptional
    (isOptional : requirement.isOptional = true) :
    search.LeavesKeeping bound requirement := by
  unfold LeavesKeeping
  split
  · exact .inr isOptional
  · exact .inr (.inl isOptional)

theorem LeavesKeeping.leaves
    (allowed : search.LeavesKeeping bound requirement) :
    search.Leaves bound requirement := by
  unfold LeavesKeeping at allowed
  split at allowed
  · rename_i wire wired
    rcases allowed with accepted | optional
    · exact .inl (.inl ⟨wire, wired, accepted⟩)
    · exact .inr (.inl optional)
  · exact allowed

/-- A search leaves exactly the imports that `LeavesKeeping` says. -/
theorem leaveImport_mem_importChoices
    {draft : Draft} :
    Move.leaveImport ∈ search.importChoices draft bound requirement ↔
      search.LeavesKeeping bound requirement := by
  unfold importChoices LeavesKeeping
  cases wired : bound.wirings.find? requirement.package with
  | some wire => simp
  | none =>
      unfold Leaves NeedsNoWire
      by_cases delegated :
          search.framework.bootDelegation.covers requirement.package = true
      · simp [delegated]
      · simp [delegated, wired, or_comm]

theorem exists_choice_of_mem_importChoices
    {draft : Draft} {move : Move}
    (member : move ∈ search.importChoices draft bound requirement)
    (notLeft : move ≠ .leaveImport) :
    ∃ choice ∈ search.wireChoices draft requirement,
      ¬ search.NeedsNoWire bound requirement ∧ move = .wire choice := by
  unfold importChoices at member
  split at member
  · split at member
    · exact absurd (List.mem_singleton.1 member) notLeft
    · cases member
  · rename_i unwired
    split at member
    · exact absurd (List.mem_singleton.1 member) notLeft
    · rename_i undelegated
      rcases List.mem_append.1 member with wired | left
      · obtain ⟨choice, offered, rfl⟩ := List.mem_map.1 wired
        refine ⟨choice, offered, ?_, rfl⟩
        rintro (⟨wire, found, _⟩ | delegated)
        · rw [unwired] at found
          cases found
        · exact undelegated delegated
      · split at left
        · exact absurd (List.mem_singleton.1 left) notLeft
        · cases left

/-! ## Moves are transitions -/

variable {draft : Draft} {result : Node}

theorem path_of_startMove
    (orderly : IsOrderly ⟨.start, draft⟩) {move : Move}
    (member : move ∈ (search.startMoves draft).toList)
    (played : play? ⟨.start, draft⟩ move = some result) :
    search.Transition search.LeavesKeeping ⟨true, draft⟩
      result.checkpoint := by
  unfold startMoves at member
  split at member
  · rename_i none
    rcases orderly.scheduled.stage with
      ⟨installed, resolving, _⟩ | ⟨fragment, resolving, _⟩
    · cases none.symm.trans resolving
    · cases none.symm.trans resolving
  · rename_i id resolving
    split at member
    · cases member
    · rename_i candidate found
      have known : draft.generation? id = some candidate.generation := by
        simp [Draft.generation?, found]
      split at member
      · rename_i isFragment
        split at member
        · rw [Alternatives.toList_ofList] at member
          obtain ⟨host, offered, rfl⟩ := List.mem_map.1 member
          obtain ⟨next, attached, rfl⟩ := Option.map_eq_some_iff.1 played
          exact .attach resolving known isFragment offered
            (eq_ok_of_toOption attached)
        · cases member
      · rename_i isBundle
        have notFragment := Bool.eq_false_iff.2 isBundle
        rw [Alternatives.toList_map] at member
        obtain ⟨ids, chosen, rfl⟩ := List.mem_map.1 member
        obtain ⟨next, bindsAs, rfl⟩ := Option.map_eq_some_iff.1 played
        obtain ⟨fragments, sublist, rfl⟩ :=
          List.sublist_map_iff.1 (sublist_of_mem_subsets chosen)
        refine .bind resolving known notFragment sublist ?_
        have fresh := orderly.scheduled.fresh_of_start resolving found
          notFragment
        rw [bind?_eq _ (found.trans (congrArg some fresh))] at bindsAs
        exact eq_ok_of_toOption bindsAs

theorem path_of_requireMove
    (orderly : IsOrderly ⟨.requires, draft⟩) {move : Move}
    (member : move ∈ search.requireMoves draft)
    (played : play? ⟨.requires, draft⟩ move = some result) :
    search.Path search.LeavesKeeping ⟨false, draft⟩ result.checkpoint := by
  unfold requireMoves at member
  split at member
  · rename_i none
    obtain ⟨bound, current⟩ := orderly.scheduled.stage
    obtain ⟨id, resolving, _⟩ := Draft.exists_of_resolvingBound? current
    cases none.symm.trans resolving
  · split at member
    · cases List.mem_singleton.1 member
      cases played
      exact .refl
    · rename_i require next
      rcases List.mem_append.1 member with provided | left
      · obtain ⟨provider, offered, rfl⟩ := List.mem_map.1 provided
        obtain ⟨after, done, rfl⟩ := Option.map_eq_some_iff.1 played
        unfold provide? at done
        split at done
        · rename_i consistent
          split at done
          · rename_i wired found
            cases done
            exact .single (.requireResolved next offered consistent found)
          · rename_i binding found
            cases done
            exact .single (.requireBound next offered consistent found)
          · rename_i installed found
            exact .single (.requireUnresolved next offered consistent found
              (eq_ok_of_toOption done))
          · cases done
        · cases done
      · split at left
        · rename_i optional
          cases List.mem_singleton.1 left
          cases played
          exact .single (.leaveRequire next optional)
        · cases left

/-- To settle a module is to complete it and to go on with the queue. -/
theorem path_of_settle
    (orderly : IsOrderly ⟨.imports, draft⟩)
    (through : draft.nextImport? = none) :
    search.Path search.LeavesKeeping ⟨false, draft⟩
      (settle draft).checkpoint := by
  obtain ⟨bound, current, requires⟩ := orderly.scheduled.stage
  obtain ⟨id, resolving, _⟩ := Draft.exists_of_resolvingBound? current
  have none : draft.nextRequire? = none := by
    simp [Draft.nextRequire?, current, requires]
  have complete : search.Transition search.LeavesKeeping ⟨false, draft⟩
      ⟨false, draft.completeResolving⟩ := .complete resolving none through
  unfold settle
  split
  · exact .single complete
  · rename_i next started
    exact .tail (.single complete)
      (.startNext (resolving_completeResolving draft) started)

theorem path_of_importMove
    (orderly : IsOrderly ⟨.imports, draft⟩) {move : Move}
    (member : move ∈ search.importMoves draft)
    (played : play? ⟨.imports, draft⟩ move = some result) :
    search.Path search.LeavesKeeping ⟨false, draft⟩ result.checkpoint := by
  obtain ⟨bound, current, requires⟩ := orderly.scheduled.stage
  have through : draft.nextRequire? = none := by
    simp [Draft.nextRequire?, current, requires]
  simp only [importMoves, current] at member
  cases imports : bound.imports with
  | nil =>
      rw [imports] at member
      cases List.mem_singleton.1 member
      cases played
      exact path_of_settle orderly (by simp [Draft.nextImport?, current, imports])
  | cons requirement rest =>
      rw [imports] at member
      have next : draft.nextImport? = some requirement := by
        simp [Draft.nextImport?, current, imports]
      by_cases isLeave : move = .leaveImport
      · subst isLeave
        cases played
        exact .single (.leaveImport through current next
          (leaveImport_mem_importChoices.1 member))
      · obtain ⟨choice, offered, needed, rfl⟩ :=
          exists_choice_of_mem_importChoices member isLeave
        obtain ⟨after, done, rfl⟩ := Option.map_eq_some_iff.1 played
        simp only [wire?, current, imports] at done
        split at done
        · rename_i consistent
          exact .single (.wire through current next needed offered consistent
            (eq_ok_of_toOption done))
        · cases done

/-- Every move of a search takes none, one or two transitions. -/
theorem path_of_step
    {node : Node} (orderly : IsOrderly node)
    (step : search.problem.Step node result) :
    search.Path search.LeavesKeeping node.checkpoint result.checkpoint := by
  obtain ⟨move, member, played⟩ := step
  obtain ⟨phase, draft⟩ := node
  cases phase with
  | start => exact .single (path_of_startMove orderly member played)
  | requires =>
      refine path_of_requireMove orderly ?_ played
      simpa [problem, moves] using member
  | imports =>
      refine path_of_importMove orderly ?_ played
      simpa [problem, moves] using member
  | finished => cases member

theorem path_of_line
    {node final : Node} (orderly : IsOrderly node)
    (line : search.problem.Line node final) :
    search.Path search.LeavesKeeping node.checkpoint final.checkpoint ∧
      IsOrderly final := by
  induction line with
  | refl => exact ⟨.refl, orderly⟩
  | tail _ step inductionHypothesis =>
      obtain ⟨path, before⟩ := inductionHypothesis
      exact ⟨path.trans (path_of_step before step),
        isOrderly_of_decision before (decision_of_step step)⟩

/-- What a search finds is decided, and transitions lead to it. -/
theorem path_of_found
    {start : Node} {final : Draft} (orderly : IsOrderly start)
    (found : (search.problem.explore start).found = some final) :
    final.isDone = true ∧
      search.Path search.LeavesKeeping start.checkpoint ⟨false, final⟩ := by
  obtain ⟨⟨phase, last⟩, line, goal⟩ := Problem.exists_line_of_found found
  cases phase with
  | finished =>
      cases goal
      obtain ⟨path, lastOrderly⟩ := path_of_line orderly line
      exact ⟨lastOrderly.scheduled.stage, path⟩
  | start => cases goal
  | requires => cases goal
  | imports => cases goal

/-- What an outcome says is what the transitions say: something is found if and only
if they lead to a checkpoint in which everything is decided, and what is found is
one. -/
structure IsExact (search : Search)
    (leaves : BoundModule → PackageImport → Prop) (first : Checkpoint)
    (found : Option Draft) : Prop where
  isSome_iff : found.isSome = true ↔
    ∃ last, search.Path leaves first last ∧ last.draft.isDone = true
  reached : ∀ final, found = some final →
    final.isDone = true ∧ search.Path leaves first ⟨false, final⟩

theorem Transition.mono
    {leaves more : BoundModule → PackageImport → Prop}
    (weaker : ∀ {bound requirement}, leaves bound requirement →
      more bound requirement)
    {checkpoint result : Checkpoint}
    (transition : search.Transition leaves checkpoint result) :
    search.Transition more checkpoint result := by
  cases transition with
  | attach resolving known isFragment offered done =>
      exact .attach resolving known isFragment offered done
  | bind resolving known notFragment chosen done =>
      exact .bind resolving known notFragment chosen done
  | requireResolved next offered consistent found =>
      exact .requireResolved next offered consistent found
  | requireBound next offered consistent found =>
      exact .requireBound next offered consistent found
  | requireUnresolved next offered consistent found done =>
      exact .requireUnresolved next offered consistent found done
  | leaveRequire next optional => exact .leaveRequire next optional
  | wire through current next needed offered consistent done =>
      exact .wire through current next needed offered consistent done
  | leaveImport through current next allowed =>
      exact .leaveImport through current next (weaker allowed)
  | complete resolving through none => exact .complete resolving through none
  | startNext resolving started => exact .startNext resolving started

theorem reflects_checkpoint
    {Holds : Node → Prop} {node : Node} (holds : Holds node) :
    Reflects Holds node.checkpoint := by
  obtain ⟨phase, draft⟩ := node
  cases phase with
  | start => exact .start holds
  | requires => exact .requires holds
  | imports => exact .imports holds
  | finished => exact .finished holds

theorem step_of_leaveImport
    {rest : List PackageImport} (current : draft.resolvingBound? = some bound)
    (next : bound.imports = requirement :: rest)
    (allowed : search.LeavesKeeping bound requirement) :
    search.problem.Step ⟨.imports, draft⟩ ⟨.imports, draft.skipImport⟩ := by
  have listed : Move.leaveImport ∈
      search.importChoices draft bound requirement :=
    leaveImport_mem_importChoices.2 allowed
  refine ⟨.leaveImport, ?_, rfl⟩
  simpa [problem, moves, importMoves, current, next] using listed

/-- What a search may reach survives its moves, and the imports that it may leave
itself. -/
theorem isSustained_line
    {leaves : BoundModule → PackageImport → Prop} {start : Node}
    (orderly : IsOrderly start)
    (agree : ∀ {draft bound requirement rest},
      search.problem.Line start ⟨.imports, draft⟩ →
        draft.resolvingBound? = some bound →
          bound.imports = requirement :: rest →
            leaves bound requirement →
              search.LeavesKeeping bound requirement) :
    search.IsSustained leaves (search.problem.Line start) := by
  refine ⟨fun line => (path_of_line orderly line).2,
    fun line step => line.tail step, ?_⟩
  intro draft bound requirement rest line current next allowed
  exact line.tail (step_of_leaveImport current next
    (agree line current next allowed))

/-- A search that starts in order is exact for any `leaves` that allows what the
search does and, wherever the search can get, nothing else. -/
theorem isExact_explore
    {leaves : BoundModule → PackageImport → Prop} {start : Node}
    (orderly : IsOrderly start)
    (weaker : ∀ {bound requirement},
      search.LeavesKeeping bound requirement → leaves bound requirement)
    (agree : ∀ {draft bound requirement rest},
      search.problem.Line start ⟨.imports, draft⟩ →
        draft.resolvingBound? = some bound →
          bound.imports = requirement :: rest →
            leaves bound requirement →
              search.LeavesKeeping bound requirement) :
    search.IsExact leaves start.checkpoint
      (search.problem.explore start).found := by
  have sustained := isSustained_line orderly agree
  have reached : ∀ final, (search.problem.explore start).found = some final →
      final.isDone = true ∧
        search.Path leaves start.checkpoint ⟨false, final⟩ := by
    intro final found
    obtain ⟨isDone, path⟩ := path_of_found orderly found
    exact ⟨isDone, Relation.ReflTransGen.mono
      (fun _ _ transition => transition.mono weaker) _ _ path⟩
  refine ⟨?_, reached⟩
  constructor
  · intro isSome
    obtain ⟨final, found⟩ := Option.isSome_iff_exists.1 isSome
    obtain ⟨isDone, path⟩ := reached final found
    exact ⟨_, path, isDone⟩
  · rintro ⟨last, path, isDone⟩
    have reflects := reflects_of_path sustained
      (reflects_checkpoint Relation.ReflTransGen.refl) path
    have line := reflects.finished_of_isDone sustained isDone
    exact Problem.isSome_found_of_line line rfl

/-! ## A wire that does not suit -/

/-- If the package of a pending import has a wire, it was wired in this very turn:
it is not delegated, and the module offers it no more. -/
def IsUnshadowed (search : Search) (node : Node) : Prop :=
  ∀ bound, node.draft.resolvingBound? = some bound →
    ∀ requirement ∈ bound.imports, ∀ wire,
      bound.wirings.find? requirement.package = some wire →
        node.phase = .imports ∧
          search.framework.bootDelegation.covers requirement.package =
            false ∧
          bound.offers.find? (·.package = requirement.package) = none

theorem mem_pendingImports
    {fragment : Generation} {requirements imports : List PackageImport}
    (listed : bound.pendingImports fragment requirements = .ok imports)
    (member : requirement ∈ imports) :
    bound.wirings.find? requirement.package = none := by
  induction requirements generalizing imports with
  | nil =>
      cases listed
      cases member
  | cons first rest inductionHypothesis =>
      rw [BoundModule.pendingImports] at listed
      split at listed
      · rename_i unwired
        simp only [Bind.bind, Except.bind, pure, Except.pure] at listed
        split at listed
        · cases listed
        · rename_i others later
          cases listed
          rcases List.mem_cons.1 member with rfl | inOthers
          · exact unwired
          · exact inductionHypothesis later inOthers
      · split at listed
        · exact inductionHypothesis listed member
        · cases listed

/-- Of a host that takes on fragments, all imports that wait are without a wire if
those of the host itself are. -/
theorem unwired_of_takesOn
    {joined : List Generation} {new : BoundModule}
    (taken : bound.TakesOn joined new)
    (unwired : ∀ requirement ∈ bound.imports,
      bound.wirings.find? requirement.package = none) :
    ∀ requirement ∈ new.imports,
      new.wirings.find? requirement.package = none := by
  induction taken with
  | nil => exact unwired
  | cons attached _ inductionHypothesis =>
      obtain ⟨imports, listed, rfl⟩ := BoundModule.exists_of_attach attached
      apply inductionHypothesis
      intro requirement member
      rcases List.mem_append.1 member with own | added
      · exact unwired requirement own
      · have unwiredThen := mem_pendingImports listed added
        exact unwiredThen

/-- A candidate that gets its turn has no wires yet. -/
theorem isUnshadowed_of_start
    (scheduled : Scheduled ⟨.start, draft⟩) :
    search.IsUnshadowed ⟨.start, draft⟩ := by
  intro bound current requirement _ wire wired
  obtain ⟨id, resolving, found⟩ := Draft.exists_of_resolvingBound? current
  rcases scheduled.stage with
    ⟨installed, isResolving, hit⟩ | ⟨fragment, isResolving, hit, _⟩
  · have same : installed.id = id :=
      Option.some.inj (isResolving.symm.trans resolving)
    rw [same, found] at hit
    cases hit
    cases wired
  · have same : fragment.id = id :=
      Option.some.inj (isResolving.symm.trans resolving)
    rw [same, found] at hit
    cases hit

theorem isUnshadowed_of_unwired
    {phase : Phase}
    (current : draft.resolvingBound? = some bound)
    (unwired : ∀ requirement ∈ bound.imports,
      bound.wirings.find? requirement.package = none) :
    search.IsUnshadowed ⟨phase, draft⟩ := by
  intro other same requirement member wire wired
  cases current.symm.trans same
  cases (unwired requirement member).symm.trans wired

/-- Before the imports are decided, none that waits has a wire. -/
theorem IsUnshadowed.unwired
    {phase : Phase} (unshadowed : search.IsUnshadowed ⟨phase, draft⟩)
    (earlier : phase ≠ .imports)
    (current : draft.resolvingBound? = some bound) :
    ∀ requirement ∈ bound.imports,
      bound.wirings.find? requirement.package = none := by
  intro requirement member
  cases wired : bound.wirings.find? requirement.package with
  | none => rfl
  | some wire =>
      exact absurd (unshadowed _ current requirement member wire wired).1
        earlier

/-- A module drops its own offers of a package that it wires, and only wires packages
that the runtime does not serve. -/
theorem isUnshadowed_of_wire
    {after : Draft} {first : PackageImport} {rest : List PackageImport}
    {chosen : Wire}
    (unshadowed : search.IsUnshadowed ⟨.imports, draft⟩)
    (current : draft.resolvingBound? = some bound)
    (next : bound.imports = first :: rest)
    (undelegated :
      search.framework.bootDelegation.covers first.package = false)
    (wiredNow : after.resolvingBound? = some { bound with
      imports := rest
      wirings := bound.wirings.insert first.package chosen
      offers := bound.offers.filter (·.package ≠ first.package) }) :
    search.IsUnshadowed ⟨.imports, after⟩ := by
  intro other same requirement member wire wired
  cases wiredNow.symm.trans same
  change (Table.insert bound.wirings first.package _).find?
    requirement.package = some wire at wired
  rw [Table.find?_insert] at wired
  refine ⟨rfl, ?_⟩
  by_cases samePackage : first.package = requirement.package
  · refine ⟨samePackage ▸ undelegated, ?_⟩
    rw [List.find?_eq_none]
    intro offer offered isPackage
    have kept := (List.mem_filter.1 offered).2
    simp only [decide_eq_true_eq, ne_eq, samePackage] at isPackage kept
    exact kept isPackage
  · rw [if_neg samePackage] at wired
    have inBound : requirement ∈ bound.imports := by
      rw [next]
      exact List.mem_cons_of_mem _ member
    obtain ⟨_, notDelegated, unoffered⟩ :=
      unshadowed _ current requirement inBound wire wired
    refine ⟨notDelegated, ?_⟩
    rw [List.find?_eq_none] at unoffered ⊢
    intro offer offered
    exact unoffered offer (List.mem_filter.1 offered).1

theorem isUnshadowed_of_decision
    {node : Node} (scheduled : Scheduled node)
    (decision : Decision search node result)
    (unshadowed : search.IsUnshadowed node) :
    search.IsUnshadowed result := by
  cases decision with
  | @idle draft none =>
      intro bound current
      obtain ⟨id, resolving, _⟩ := Draft.exists_of_resolvingBound? current
      cases none.symm.trans resolving
  | attach resolving found _ offered done =>
      obtain ⟨candidate, base, new, _, attaches⟩ :=
        scheduled.exists_attaches resolving found offered done
      have current := Draft.resolvingBound?_eq_some attaches.resolving
        ((attaches.candidate?_eq _).trans (if_pos rfl))
      refine isUnshadowed_of_unwired current
        (unwired_of_takesOn attaches.taken ?_)
      intro requirement member
      cases attaches.opened with
      | reopen wired => cases member
      | fresh installed => rfl
      | queued installed => rfl
  | bind resolving found notFragment chosen done =>
      obtain ⟨_, new, current, binds⟩ :=
        scheduled.exists_binds resolving found notFragment chosen done
      have after := Draft.resolvingBound?_put current binds.taken.host
      rw [binds.annotated]
      exact isUnshadowed_of_unwired after
        (unwired_of_takesOn binds.taken fun _ _ => rfl)
  | @toImports draft _ _ =>
      obtain ⟨bound, current⟩ := scheduled.stage
      exact isUnshadowed_of_unwired current
        (unshadowed.unwired (by simp) current)
  | leaveRequire current next _ =>
      have unwired := unshadowed.unwired (by simp) current
      exact isUnshadowed_of_unwired (Draft.resolvingBound?_put current rfl)
        unwired
  | @provide _ middle bound require rest provider current next offered _
      engaged =>
      obtain ⟨_, other, _⟩ := mem_requireChoices offered
      have after := (engaged.resolvingBound? other).trans current
      have unwired := unshadowed.unwired (by simp) current
      exact isUnshadowed_of_unwired (Draft.resolvingBound?_put after rfl)
        unwired
  | @leaveImport draft bound first rest current next _ =>
      intro other same requirement member wire wired
      obtain rfl : other = { bound with imports := rest } :=
        Option.some.inj
          (same.symm.trans (Draft.resolvingBound?_put current rfl))
      refine unshadowed _ current requirement ?_ wire wired
      rw [next]
      exact List.mem_cons_of_mem _ member
  | wire current next _ undelegated offered _ engaged =>
      have other := ne_resolving_of_mem_wireChoices offered
      have after := (engaged.resolvingBound? other).trans current
      exact isUnshadowed_of_wire unshadowed current next undelegated
        (Draft.resolvingBound?_put after rfl)
  | @settle _ draft through =>
      have after := scheduled.settle through
      unfold settle at after ⊢
      split
      · intro bound current
        obtain ⟨id, resolving, _⟩ := Draft.exists_of_resolvingBound? current
        cases (resolving_completeResolving draft).symm.trans resolving
      · rename_i next started
        rw [started] at after
        exact isUnshadowed_of_start after

/-- Where no wire of an earlier search is in the way, an import may be left without
regard to the wire that its package has. -/
theorem IsUnshadowed.leavesKeeping
    {rest : List PackageImport}
    (unshadowed : search.IsUnshadowed ⟨.imports, draft⟩)
    (current : draft.resolvingBound? = some bound)
    (next : bound.imports = requirement :: rest)
    (allowed : search.Leaves bound requirement) :
    search.LeavesKeeping bound requirement := by
  unfold LeavesKeeping
  cases wired : bound.wirings.find? requirement.package with
  | none => exact allowed
  | some wire =>
      obtain ⟨_, undelegated, unoffered⟩ := unshadowed _ current requirement
        (by rw [next]; exact List.mem_cons_self) wire wired
      rcases allowed with
        (⟨other, found, accepted⟩ | delegated) | optional | selfServed
      · cases wired.symm.trans found
        exact .inl accepted
      · exact absurd (undelegated.symm.trans delegated) (by simp)
      · exact .inr optional
      · unfold isSelfServed at selfServed
        rw [unoffered] at selfServed
        cases selfServed

/-- A search for a wiring finds one exactly where its transitions lead to one.  So
does a search for a dynamic import, if an import whose package has a wire that does
not suit it is left only when it is optional. -/
theorem search_exhaustive (search : Search) :
    (∀ store generations target draft,
      Draft.initial store generations target = .ok draft →
        search.IsExact search.Leaves ⟨true, draft⟩
          (search.run draft).found) ∧
    (∀ store generations host imports draft,
      Draft.forDynamicImport store generations host imports = .ok draft →
        search.IsExact search.LeavesKeeping ⟨false, draft⟩
          (search.runPending draft).found) := by
  constructor
  · intro store generations target draft done
    have orderly := isOrderly_of_initial done
    refine isExact_explore orderly LeavesKeeping.leaves ?_
    intro reached bound requirement rest line current next allowed
    have unshadowed : search.IsUnshadowed ⟨.imports, reached⟩ :=
      invariant_of_line line orderly.scheduled
        (isUnshadowed_of_start orderly.scheduled)
        fun _ scheduled decision holds =>
          isUnshadowed_of_decision scheduled decision holds
    exact unshadowed.leavesKeeping current next allowed
  · intro store generations host imports draft done
    exact isExact_explore (isOrderly_of_forDynamicImport done)
      (fun allowed => allowed) fun _ _ _ allowed => allowed

end Search

namespace Sample

/-- A host that exports another version of the package than it imports. -/
def migrating : Manifest :=
  bundle "h" [offer "p" 2] [wish "p" 1]

/-- The world in which that host has been wired to the older version. -/
def miswired : World :=
  (world [migrating, bundle "x" [offer "p" 1] []]).applying
    (generation 0 migrating) fun _ => true

/-- The search of a resolver of samples. -/
def search (world : World) : Search :=
  world.resolver.search ⟨"system.bundle", BootDelegation.none⟩

/-- The first draft for a dynamic import of the newer version. -/
def reopening : Except Incompatible Draft :=
  Draft.forDynamicImport miswired.store
    (miswired.resolver.canonical miswired.store) (generation 0 migrating)
      ((wish "p" 2).expand miswired.resolver.index)

end Sample

namespace Search

/-- A wiring of a pair of bundles is found and reached, while nothing leads to one
for an import of a package that has a wire which does not suit. -/
theorem pair_reached_and_miswired_stuck :
    (∃ draft final,
      Draft.initial Sample.pair.store
          (Sample.pair.resolver.canonical Sample.pair.store)
          (Sample.generation 0 Sample.importer) = .ok draft ∧
        final.settled = [Sample.id 0, Sample.id 1] ∧
          (Sample.search Sample.pair).Path
            (Sample.search Sample.pair).Leaves ⟨true, draft⟩
              ⟨false, final⟩) ∧
    ∃ draft, Sample.reopening = .ok draft ∧
      ¬ ∃ last, (Sample.search Sample.miswired).Path
        (Sample.search Sample.miswired).LeavesKeeping ⟨false, draft⟩ last ∧
          last.draft.isDone = true := by
  constructor
  · have facts : (Draft.initial Sample.pair.store
        (Sample.pair.resolver.canonical Sample.pair.store)
        (Sample.generation 0 Sample.importer)).toOption.any (fun draft =>
          ((Sample.search Sample.pair).run draft).found.any fun final =>
            final.settled = [Sample.id 0, Sample.id 1]) = true := by
      decide +kernel
    obtain ⟨draft, made, run⟩ := Option.any_eq_true _ _ |>.1 facts
    obtain ⟨final, found, settled⟩ := Option.any_eq_true _ _ |>.1 run
    have begun := eq_ok_of_toOption made
    obtain ⟨isDone, path⟩ := ((search_exhaustive _).1 _ _ _ _ begun).reached
      final found
    exact ⟨draft, final, begun, by simpa using settled, path⟩
  · have facts : Sample.reopening.toOption.any (fun draft =>
        ((Sample.search Sample.miswired).runPending draft).found.isNone) =
          true := by
      decide +kernel
    obtain ⟨draft, made, none⟩ := Option.any_eq_true _ _ |>.1 facts
    have begun := eq_ok_of_toOption made
    refine ⟨draft, begun, ?_⟩
    rw [← ((search_exhaustive _).2 _ _ _ _ _ begun).isSome_iff]
    simpa using none

/-- With regard to what is left alone, a search for a dynamic import is not
exhaustive: it turns down a wire that does not suit, where the own export would
do. -/
theorem not_exhaustive_in_dynamic_imports :
    ¬ ∀ search : Search,
      (∀ store generations target draft,
        Draft.initial store generations target = .ok draft →
          search.IsExact search.Leaves ⟨true, draft⟩
            (search.run draft).found) ∧
      (∀ store generations host imports draft,
        Draft.forDynamicImport store generations host imports = .ok draft →
          search.IsExact search.Leaves ⟨false, draft⟩
            (search.runPending draft).found) := by
  intro exhaustive
  have facts : Sample.reopening.toOption.any (fun draft =>
      draft.nextRequire?.isNone && draft.skipImport.resolving.isSome &&
        draft.skipImport.nextRequire?.isNone &&
        draft.skipImport.nextImport?.isNone &&
        draft.skipImport.completeResolving.isDone &&
        ((Sample.search Sample.miswired).runPending draft).found.isNone &&
        draft.nextImport?.any fun requirement =>
          draft.resolvingBound?.any fun bound =>
            isSelfServed bound requirement) = true := by
    decide +kernel
  obtain ⟨draft, made, holds⟩ := Option.any_eq_true _ _ |>.1 facts
  simp only [Bool.and_eq_true, Option.isNone_iff_eq_none] at holds
  obtain ⟨⟨⟨⟨⟨⟨through, resolving⟩, throughAfter⟩, decided⟩, isDone⟩, none⟩,
    own⟩ := holds
  obtain ⟨requirement, next, served⟩ := Option.any_eq_true _ _ |>.1 own
  obtain ⟨bound, current, selfServed⟩ := Option.any_eq_true _ _ |>.1 served
  obtain ⟨id, isResolving⟩ := Option.isSome_iff_exists.1 resolving
  have left : (Sample.search Sample.miswired).Transition
      (Sample.search Sample.miswired).Leaves ⟨false, draft⟩
        ⟨false, draft.skipImport⟩ :=
    .leaveImport through current next (.inr (.inr selfServed))
  have path : (Sample.search Sample.miswired).Path
      (Sample.search Sample.miswired).Leaves ⟨false, draft⟩
        ⟨false, draft.skipImport.completeResolving⟩ :=
    .tail (.single left) (.complete isResolving throughAfter decided)
  have exactly := (exhaustive (Sample.search Sample.miswired)).2 _ _ _ _ draft
    (eq_ok_of_toOption made)
  have found := exactly.isSome_iff.2 ⟨_, path, isDone⟩
  rw [none] at found
  cases found

end Search

end ModuleWiring
