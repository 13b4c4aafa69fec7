import ModuleWiring.Proofs.Exhaustive

/-!
# The representation invariant of drafts

The collections of a draft agree with each other at every checkpoint that the
transitions of a search lead to.  Every module that the search has bound is in
charge, waits, or is settled, and only one of these; once everything is decided,
each of them has been settled exactly once.
-/

namespace ModuleWiring

/-- The collections of a draft agree with its candidates and with each other. -/
structure Draft.IsWellFormed (draft : Draft) : Prop where
  disjoint : ∀ id, draft.used.contains id = true →
    draft.unused.contains id = false
  filed : ∀ id,
    draft.used.contains id = true ∨ draft.unused.contains id = true ∨
        id ∈ draft.settled ∨ draft.resolving = some id ∨ id ∈ draft.queue →
      ∃ candidate, draft.candidate? id = some candidate ∧ candidate.id = id
  bound : ∀ id binding, draft.candidate? id = some (.bound binding) →
    draft.used.contains id = true ∧
      (draft.settled ++ (draft.resolving.toList ++ draft.queue)).count id = 1
  unresolved : ∀ id installed,
    draft.candidate? id = some (.unresolved installed) →
      installed.isFragment = false →
        draft.unused.contains id = true ∧ draft.used.contains id = false ∧
          id ∉ draft.settled ∧ draft.resolving ≠ some id ∧
            id ∉ draft.queue ∧ draft.hostOf? id = none ∧
              ∀ fragment, draft.hostOf? fragment ≠ some id
  resolved : ∀ id wired, draft.candidate? id = some (.resolved wired) →
    draft.used.contains id = !draft.unused.contains id
  attached : ∀ fragment host, draft.hostOf? fragment = some host →
    draft.used.contains fragment = false ∧
      draft.unused.contains fragment = false ∧
        ∃ binding, draft.candidate? host = some (.bound binding) ∧
          ∃ joined ∈ binding.fragments, joined.id = fragment
  fragments : ∀ id binding, draft.candidate? id = some (.bound binding) →
    ∀ fragment ∈ binding.fragments,
      fragment ∈ draft.store.fragments binding.host ∨
        draft.hostOf? fragment.id = some id

namespace Search

variable {search : Search} {leaves : BoundModule → PackageImport → Prop}
  {node : Node} {draft : Draft}

/-- The candidate in charge has been bound, or it is a fragment that looks for a
host. -/
theorem Scheduled.exists_of_resolving
    {id : GenerationId} (scheduled : Scheduled node)
    (resolving : node.draft.resolving = some id) :
    ∃ candidate, node.draft.candidate? id = some candidate ∧
      ∀ installed, candidate = .unresolved installed →
        installed.isFragment = true := by
  obtain ⟨phase, draft⟩ := node
  have inCharge : ∀ {bound : BoundModule},
      draft.resolvingBound? = some bound →
        draft.candidate? id = some (.bound bound) := by
    intro bound current
    obtain ⟨other, isResolving, found⟩ :=
      Draft.exists_of_resolvingBound? current
    cases resolving.symm.trans isResolving
    exact found
  cases phase with
  | start =>
      rcases scheduled.stage with
        ⟨installed, isResolving, found⟩ | ⟨fragment, isResolving, found, is, _⟩
      · cases isResolving.symm.trans resolving
        exact ⟨_, found, by simp⟩
      · cases isResolving.symm.trans resolving
        refine ⟨_, found, ?_⟩
        intro installed same
        cases same
        exact is
  | requires =>
      obtain ⟨bound, current⟩ := scheduled.stage
      exact ⟨_, inCharge current, by simp⟩
  | imports =>
      obtain ⟨bound, current, _⟩ := scheduled.stage
      exact ⟨_, inCharge current, by simp⟩
  | finished =>
      cases scheduled.resolving_of_finished.1.symm.trans resolving

theorem IsOrderly.isWellFormed
    (orderly : IsOrderly node) : node.draft.IsWellFormed := by
  have scheduled := orderly.scheduled
  have balanced := orderly.balanced
  have unused : ∀ {id : GenerationId} {installed : Generation},
      node.draft.candidate? id = some (.unresolved installed) →
        node.draft.used.contains id = false := by
    intro id installed found
    refine Bool.eq_false_iff.2 fun isUsed => ?_
    obtain ⟨candidate, hit, notUnresolved⟩ := balanced.used isUsed
    cases found.symm.trans hit
    exact notUnresolved installed rfl
  refine ⟨?_, ?_, ?_, ?_, ?_, ?_, ?_⟩
  · exact fun id isUsed => Bool.eq_false_iff.2 (balanced.disjoint isUsed)
  · have known : ∀ id,
        node.draft.used.contains id = true ∨
          node.draft.unused.contains id = true ∨ id ∈ node.draft.settled ∨
            node.draft.resolving = some id ∨ id ∈ node.draft.queue →
          ∃ candidate, node.draft.candidate? id = some candidate := by
      rintro id (isUsed | isUnused | isSettled | resolving | waiting)
      · obtain ⟨candidate, found, _⟩ := balanced.used isUsed
        exact ⟨candidate, found⟩
      · obtain ⟨candidate, found, _⟩ := balanced.unused isUnused
        exact ⟨candidate, found⟩
      · obtain ⟨bound, found, _⟩ := scheduled.settled id isSettled
        exact ⟨_, found⟩
      · obtain ⟨candidate, found, _⟩ := scheduled.exists_of_resolving resolving
        exact ⟨candidate, found⟩
      · obtain ⟨installed, found⟩ := scheduled.queued id waiting
        exact ⟨_, found⟩
    intro id listed
    obtain ⟨candidate, found⟩ := known id listed
    exact ⟨candidate, found, Draft.id_of_candidate? found⟩
  · intro id binding found
    have placed : id ∈ node.draft.settled ++
        (node.draft.resolving.toList ++ node.draft.queue) := by
      simpa [Option.mem_toList] using scheduled.placed found
    refine ⟨scheduled.used found, ?_⟩
    rw [scheduled.distinct.count, if_pos placed]
  · intro id installed found isBundle
    refine ⟨balanced.free found isBundle, unused found, ?_, ?_, ?_, ?_, ?_⟩
    · intro isSettled
      obtain ⟨bound, hit, _⟩ := scheduled.settled id isSettled
      cases found.symm.trans hit
    · intro resolving
      obtain ⟨candidate, hit, fragmentOnly⟩ :=
        scheduled.exists_of_resolving resolving
      cases found.symm.trans hit
      cases isBundle.symm.trans (fragmentOnly installed rfl)
    · intro waiting
      obtain ⟨other, hit⟩ := scheduled.queued id waiting
      cases found.symm.trans hit
    · refine balanced.unattached found ?_
      intro other same
      cases same
      exact isBundle
    · intro fragment isAttached
      obtain ⟨_, _, bound, _, hit, _⟩ := balanced.claimed isAttached
      cases found.symm.trans hit
  · intro id wired found
    rcases (balanced.resolved found).1 with isUsed | isUnused
    · rw [isUsed, Bool.eq_false_iff.2 (balanced.disjoint isUsed)]
      rfl
    · rw [isUnused, Bool.eq_false_iff.2 fun isUsed =>
        balanced.disjoint isUsed isUnused]
      rfl
  · intro fragment host isAttached
    obtain ⟨notUnused, installed, binding, found, hostFound, member⟩ :=
      balanced.claimed isAttached
    exact ⟨unused found, Bool.eq_false_iff.2 notUnused, binding, hostFound,
      installed, member, Draft.id_of_candidate? found⟩
  · intro id binding found fragment member
    exact (balanced.joined found fragment member).imp_right And.left

end Search

/-- Settling the candidate in charge only moves it. -/
theorem Draft.IsWellFormed.completeResolving
    {draft : Draft} {id : GenerationId} (wellFormed : draft.IsWellFormed)
    (resolving : draft.resolving = some id)
    (same : draft.completeResolving = { draft with
      resolving := none, settled := draft.settled ++ [id] }) :
    draft.completeResolving.IsWellFormed := by
  rw [same]
  refine ⟨wellFormed.disjoint, ?_, ?_, ?_, wellFormed.resolved,
    wellFormed.attached, wellFormed.fragments⟩
  · intro other listed
    apply wellFormed.filed other
    rcases listed with isUsed | isUnused | isSettled | impossible | waiting
    · exact .inl isUsed
    · exact .inr (.inl isUnused)
    · rcases List.mem_append.1 isSettled with earlier | last
      · exact .inr (.inr (.inl earlier))
      · rw [List.mem_singleton.1 last]
        exact .inr (.inr (.inr (.inl resolving)))
    · cases impossible
    · exact .inr (.inr (.inr (.inr waiting)))
  · intro other binding found
    obtain ⟨isUsed, once⟩ := wellFormed.bound other binding found
    rw [resolving] at once
    exact ⟨isUsed, by simpa using once⟩
  · intro other installed found isBundle
    obtain ⟨isUnused, notUsed, unsettled, notResolving, rest⟩ :=
      wellFormed.unresolved other installed found isBundle
    refine ⟨isUnused, notUsed, ?_, by simp, rest⟩
    intro isSettled
    rcases List.mem_append.1 isSettled with earlier | last
    · exact unsettled earlier
    · rw [List.mem_singleton.1 last] at notResolving
      exact notResolving resolving

namespace Search

variable {search : Search} {leaves : BoundModule → PackageImport → Prop}

/-- Positions in order stay so, whichever imports are left. -/
theorem isSustained_isOrderly
    (search : Search) (leaves : BoundModule → PackageImport → Prop) :
    search.IsSustained leaves IsOrderly :=
  ⟨fun orderly => orderly,
    fun orderly step => isOrderly_of_decision orderly (decision_of_step step),
    fun orderly current next _ => isOrderly_of_leave orderly current next⟩

theorem Reflects.isWellFormed
    {checkpoint : Checkpoint} (reflects : Reflects IsOrderly checkpoint) :
    checkpoint.draft.IsWellFormed := by
  cases reflects with
  | start orderly => exact orderly.isWellFormed
  | requires orderly => exact orderly.isWellFormed
  | imports orderly => exact orderly.isWellFormed
  | settled orderly _ =>
      obtain ⟨bound, current, _⟩ := orderly.scheduled.stage
      obtain ⟨id, resolving, found⟩ :=
        Draft.exists_of_resolvingBound? current
      exact orderly.isWellFormed.completeResolving resolving
        (orderly.scheduled.completeResolving resolving found)
  | finished orderly => exact orderly.isWellFormed

theorem reflects_of_isFirst
    {first : Checkpoint} (isFirst : first.IsFirst) :
    Reflects IsOrderly first := by
  cases isFirst with
  | initial done => exact .start (isOrderly_of_initial done)
  | dynamic done => exact .requires (isOrderly_of_forDynamicImport done)

/-- Wherever the transitions of a search lead, the draft is well formed.  If
everything is decided there, every module that is bound has been settled exactly
once. -/
theorem wellFormed_along_paths
    {first last : Checkpoint} (isFirst : first.IsFirst)
    (path : search.Path leaves first last) :
    last.draft.IsWellFormed ∧
      (last.draft.isDone = true → ∀ id binding,
        last.draft.candidate? id = some (.bound binding) →
          last.draft.settled.count id = 1) := by
  have reflects := reflects_of_path (isSustained_isOrderly search leaves)
    (reflects_of_isFirst isFirst) path
  have wellFormed := reflects.isWellFormed
  refine ⟨wellFormed, ?_⟩
  intro isDone id binding found
  have idle : last.draft.queue = [] ∧ last.draft.resolving = none := by
    simpa [Draft.isDone] using isDone
  have once := (wellFormed.bound id binding found).2
  rw [idle.1, idle.2] at once
  simpa using once

end Search

namespace Sample

/-- A host with a fragment that brings an import. -/
def extended : World :=
  world [bundle "h" [] [], exporter, fragment "f" "h" [] [wish "p" 1]]

end Sample

namespace Search

/-- A host with a fragment, and the exporter that the fragment needs, have both
been settled exactly once. -/
theorem extended_settled_once :
    ∃ first last, Checkpoint.IsFirst first ∧
      (Sample.search Sample.extended).Path
        (Sample.search Sample.extended).LeavesKeeping first last ∧
      last.draft.isDone = true ∧
      last.draft.hostOf? (Sample.id 2) = some (Sample.id 0) ∧
      last.draft.settled.count (Sample.id 0) = 1 ∧
      last.draft.settled.count (Sample.id 1) = 1 := by
  have facts : (Draft.initial Sample.extended.store
      (Sample.extended.resolver.canonical Sample.extended.store)
      (Sample.generation 0 (Sample.bundle "h" [] []))).toOption.any
        (fun draft =>
          ((Sample.search Sample.extended).run draft).found.any fun final =>
            (final.bound? (Sample.id 0)).isSome &&
              (final.bound? (Sample.id 1)).isSome &&
              decide (final.hostOf? (Sample.id 2) =
                some (Sample.id 0))) = true := by
    decide +kernel
  obtain ⟨draft, made, run⟩ := Option.any_eq_true _ _ |>.1 facts
  obtain ⟨final, found, holds⟩ := Option.any_eq_true _ _ |>.1 run
  simp only [Bool.and_eq_true, decide_eq_true_eq] at holds
  obtain ⟨⟨hostBound, exporterBound⟩, attached⟩ := holds
  have begun := eq_ok_of_toOption made
  have isFirst : Checkpoint.IsFirst ⟨true, draft⟩ := .initial begun
  obtain ⟨isDone, path⟩ := path_of_found (isOrderly_of_initial begun) found
  obtain ⟨_, once⟩ := wellFormed_along_paths isFirst path
  have boundIn : ∀ {id : GenerationId}, (final.bound? id).isSome = true →
      ∃ binding, final.candidate? id = some (.bound binding) := by
    intro id isBound
    obtain ⟨binding, hit⟩ := Option.isSome_iff_exists.1 isBound
    exact ⟨binding, Draft.candidate?_of_bound? hit⟩
  obtain ⟨host, hostFound⟩ := boundIn hostBound
  obtain ⟨exporter, exporterFound⟩ := boundIn exporterBound
  exact ⟨_, _, isFirst, path, isDone, attached,
    once isDone _ _ hostFound, once isDone _ _ exporterFound⟩

end Search

end ModuleWiring
