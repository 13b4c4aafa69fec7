import ModuleWiring.Proofs.Attachment
import ModuleWiring.Proofs.Checkpoints

/-!
# Fragments that join a host

A search attaches a fragment only to a host that the fragment asks for and that
accepts fragments in its present state.  Main statements: what a decision may
add to the fragments of a candidate, and what all decisions of a search together
may.
-/

namespace ModuleWiring

namespace Draft

/-- A host that has been checked accepts fragments, and now. -/
theorem accepts_of_checkAttachment
    {fragment : GenerationId} {host : Candidate}
    (checked : checkAttachment fragment host = .ok ()) :
    host.generation.manifest.fragmentAttachment ≠ .never ∧
      (host.generation.manifest.fragmentAttachment = .resolveTime →
        ∀ wired, host ≠ .resolved wired) := by
  unfold checkAttachment at checked
  constructor
  · intro never
    simp [never] at checked
  · rintro resolveTime wired rfl
    simp [resolveTime] at checked

theorem checkAttachment_of_attachFragment
    {draft result : Draft} {fragment host : Generation}
    {candidate : Candidate}
    (known : draft.candidate? fragment.id = some (.unresolved fragment))
    (found : draft.candidate? host.id = some candidate)
    (done : draft.attachFragment fragment.id host.id = .ok result) :
    checkAttachment fragment.id candidate = .ok () := by
  simp only [attachFragment, generation?, known, found, Option.map_some,
    Bind.bind, Except.bind] at done
  split at done
  · cases done
  · assumption

end Draft

namespace Search

variable {search : Search} {draft : Draft} {fragment host : Generation}

theorem hosted_of_mem_hostChoices
    (offered : host ∈ search.hostChoices draft fragment) :
    draft.generation? host.id = some host ∧
      search.framework.isHostOf fragment host = true := by
  obtain ⟨stage, _, staged⟩ := List.mem_flatMap.1 offered
  obtain ⟨listed, hosted⟩ := List.mem_filter.1 (Policy.mem_sort.1 staged)
  obtain ⟨candidate, kept, rfl⟩ := List.mem_map.1 listed
  have found : draft.candidate? candidate.generation.id = some candidate :=
    Roster.find?_of_mem (List.mem_filter.1 kept).1
  exact ⟨by rw [Draft.generation?, found, Option.map_some], hosted⟩

/-- A candidate takes on a fragment at this position: the fragment is free and
asks for the host, and the host accepts it. -/
structure Joins (search : Search) (node : Node) (host : Candidate)
    (fragment : Generation) : Prop where
  found : node.draft.candidate? fragment.id = some (.unresolved fragment)
  hosted : search.framework.isHostOf fragment host.generation = true
  accepted : host.generation.manifest.fragmentAttachment ≠ .never
  timely : host.generation.manifest.fragmentAttachment = .resolveTime →
    ∀ wired, host ≠ .resolved wired
  turn : ∀ bound, host = .bound bound →
    node.phase = .start ∧ node.draft.resolving = some host.id

/-- Each candidate has the fragments that it had, and those that it takes on. -/
def Augments (search : Search) (node : Node) (result : Draft) : Prop :=
  ∀ ⦃id : GenerationId⦄ ⦃candidate : Candidate⦄,
    result.candidate? id = some candidate →
    ∃ earlier, node.draft.candidate? id = some earlier ∧
      candidate.generation = earlier.generation ∧
      ∀ fragment ∈ candidate.fragments,
        fragment ∈ earlier.fragments ∨ search.Joins node earlier fragment

namespace Augments

variable {node : Node} {result middle : Draft}

theorem of_same (same : ∀ id, result.candidate? id = node.draft.candidate? id) :
    search.Augments node result :=
  fun id candidate found =>
    ⟨candidate, same id ▸ found, rfl, fun _ member => .inl member⟩

theorem put
    {bound new : BoundModule} (augments : search.Augments node middle)
    (current : node.draft.resolvingBound? = some bound)
    (host : new.host = bound.host)
    (fragments : ∀ fragment ∈ new.fragments, fragment ∈ bound.fragments ∨
      search.Joins node (.bound bound) fragment) :
    search.Augments node (middle.put (.bound new)) := by
  intro id candidate found
  rw [Draft.candidate?_put] at found
  split at found
  · rename_i here
    cases found
    have before := Draft.candidate?_of_resolvingBound? current
    rw [← host, ← Draft.id_bound, here] at before
    exact ⟨.bound bound, before, host, fragments⟩
  · exact augments found

theorem engaged
    {id : GenerationId} (engaged : node.draft.Engaged id middle) :
    search.Augments node middle := by
  intro other candidate found
  by_cases here : id = other
  · subst here
    rcases engaged.candidate?_self with same | ⟨installed, before, after⟩
    · exact ⟨candidate, same ▸ found, rfl, fun _ member => .inl member⟩
    · rw [after] at found
      cases found
      exact ⟨.unresolved installed, before, rfl,
        fun _ member => .inl member⟩
  · rw [engaged.candidate?_of_ne here] at found
    exact ⟨candidate, found, rfl, fun _ member => .inl member⟩

end Augments

/-- The fragment that begins to be decided joins the host that it attaches
to. -/
theorem augments_of_attach
    {result : Draft} (scheduled : Scheduled ⟨.start, draft⟩)
    (resolving : draft.resolving = some fragment.id)
    (found : draft.candidate? fragment.id = some (.unresolved fragment))
    (offered : host ∈ search.hostChoices draft fragment)
    (done : draft.attachFragment fragment.id host.id = .ok result) :
    search.Augments ⟨.start, draft⟩ result := by
  obtain ⟨candidate, base, new, _, attaches⟩ :=
    scheduled.exists_attaches resolving found offered done
  obtain ⟨untouched, _, _⟩ := scheduled.untouched_of_start resolving found
  obtain ⟨known, hosted⟩ := hosted_of_mem_hostChoices offered
  have isHost : candidate.generation = host := by
    simpa [Draft.generation?, attaches.found] using known
  obtain ⟨accepted, timely⟩ := Draft.accepts_of_checkAttachment
    (Draft.checkAttachment_of_attachFragment found attaches.found done)
  intro id other here
  rw [attaches.candidate?_eq] at here
  split at here
  · rename_i isId
    cases here
    refine ⟨candidate, isId ▸ attaches.found, attaches.host_eq, ?_⟩
    intro joined member
    change joined ∈ new.fragments at member
    rw [attaches.taken.fragments] at member
    rcases List.mem_append.1 member with carried | isNew
    · left
      cases attaches.opened with
      | reopen => exact carried
      | fresh => cases carried
      | queued => cases carried
    · cases List.mem_singleton.1 isNew
      refine .inr ⟨found, isHost ▸ hosted, accepted, timely, ?_⟩
      rintro bound rfl
      exact absurd attaches.found (untouched host.id bound)
  · exact ⟨other, here, rfl, fun _ member => .inl member⟩

/-- The host that begins to be decided takes on the fragments that are chosen
for it. -/
theorem augments_of_bind
    {result : Draft} {id : GenerationId} {candidate : Candidate}
    {fragments : List GenerationId}
    (scheduled : Scheduled ⟨.start, draft⟩)
    (resolving : draft.resolving = some id)
    (found : draft.candidate? id = some candidate)
    (notFragment : candidate.generation.isFragment = false)
    (chosen : fragments.Sublist ((search.fragmentChoices draft
      candidate.generation).map Generation.id))
    (done : bind? draft id fragments = some result) :
    search.Augments ⟨.start, draft⟩ result := by
  have fresh := scheduled.fresh_of_start resolving found notFragment
  have sameId : candidate.generation.id = id := Draft.id_of_candidate? found
  have hit : draft.candidate? candidate.generation.id =
      some (.bound (.of candidate.generation)) := by
    rw [sameId]
    exact found.trans (congrArg some fresh)
  obtain ⟨joined, sublist, rfl⟩ := List.sublist_map_iff.1 chosen
  rw [← sameId] at done
  obtain ⟨new, binds, suits⟩ := suits_of_bind hit sublist done
  have current : draft.resolvingBound? =
      some (.of candidate.generation) :=
    Draft.resolvingBound?_eq_some (resolving.trans (by rw [sameId])) hit
  have host : new.host = candidate.generation := binds.taken.host
  have augments : search.Augments ⟨.start, draft⟩ (draft.put (.bound new)) := by
    refine .put (.of_same fun _ => rfl) current host ?_
    intro fragment member
    have accepted := suits.attachable (List.ne_nil_of_mem member)
    have hosted := suits.hosted fragment member
    rw [host] at accepted hosted
    rw [binds.taken.fragments] at member
    refine .inr ⟨(binds.free fragment member).found, hosted, accepted, ?_, ?_⟩
    · intro _ wired isResolved
      cases isResolved
    · intro bound _
      exact ⟨rfl, resolving.trans (congrArg some sameId.symm)⟩
  rw [binds.annotated]
  exact augments

/-- A decision adds only fragments that join. -/
theorem augments_of_decision
    {node result : Node} (scheduled : Scheduled node)
    (decision : Decision search node result) :
    search.Augments node result.draft := by
  cases decision with
  | idle _ => exact .of_same fun _ => rfl
  | attach resolving found _ offered done =>
      exact augments_of_attach scheduled resolving found offered done
  | bind resolving found notFragment chosen done =>
      exact augments_of_bind scheduled resolving found notFragment chosen done
  | toImports _ _ => exact .of_same fun _ => rfl
  | leaveRequire current _ _ =>
      exact .put (.of_same fun _ => rfl) current rfl fun _ => .inl
  | provide current _ _ _ engaged =>
      exact .put (.engaged engaged) current rfl fun _ => .inl
  | leaveImport current _ _ =>
      exact .put (.of_same fun _ => rfl) current rfl fun _ => .inl
  | wire current _ _ _ _ _ engaged =>
      exact .put (.engaged engaged) current rfl fun _ => .inl
  | settle through =>
      obtain ⟨_, bound, resolving, found, _⟩ :=
        scheduled.exists_of_settle through
      rw [scheduled.settle_eq resolving found]
      split <;> exact .of_same fun _ => rfl

/-! ## Fragments and the store -/

variable {store : Store}

/-- A host may take on a fragment, by what the store has of the two. -/
structure Admits (search : Search) (store : Store)
    (host fragment : Generation) : Prop where
  unresolved : (store.state fragment).isResolved = false
  hosted : search.framework.isHostOf fragment host = true
  accepted : host.manifest.fragmentAttachment ≠ .never
  timely : host.manifest.fragmentAttachment = .resolveTime →
    (store.state host).isResolved = false

/-- The fragments of a candidate are those that it was resolved with, and some
that it may take on. -/
def Stocked (search : Search) (store : Store) (candidate : Candidate) : Prop :=
  ∀ fragment ∈ candidate.fragments,
    fragment ∈ store.carried candidate.generation ∨
      search.Admits store candidate.generation fragment

theorem mem_carried_iff
    {store : Store} {generation fragment : Generation} :
    fragment ∈ store.carried generation ↔
      (store.state generation).isResolved = true ∧
        fragment ∈ store.fragments generation := by
  unfold Store.carried
  split <;> simp [*]

theorem carried_of_isResolved
    {generation : Generation}
    (isResolved : (store.state generation).isResolved = true) :
    store.carried generation = store.fragments generation :=
  if_pos isResolved

theorem stocked_of_isGiven
    {candidate : Candidate} (given : candidate.IsGiven store) :
    search.Stocked store candidate := by
  cases given with
  | unresolved _ => exact fun _ member => by cases member
  | resolved isResolved _ =>
      exact fun _ member => .inl ((carried_of_isResolved isResolved).symm ▸
        member)
  | target _ _ => exact fun _ member => by cases member
  | reopened _ isResolved =>
      exact fun _ member => .inl ((carried_of_isResolved isResolved).symm ▸
        member)

/-- What waits to be decided was not resolved before. -/
def Waits (store : Store) (node : Node) : Prop :=
  ∀ ⦃id : GenerationId⦄ ⦃bound : BoundModule⦄,
    id ∈ node.draft.queue ∨
        node.phase = .start ∧ node.draft.resolving = some id →
      node.draft.candidate? id = some (.bound bound) →
        (store.state bound.host).isResolved = false

/-- What is not bound at this position is as the store has it. -/
def UnboundGiven (store : Store) (node : Node) : Prop :=
  ∀ ⦃id : GenerationId⦄ ⦃candidate : Candidate⦄,
    node.draft.candidate? id = some candidate →
      (∀ bound, candidate ≠ .bound bound) → candidate.IsGiven store

theorem UnboundGiven.unresolved
    {node : Node} (unbound : UnboundGiven store node) {id : GenerationId}
    {installed : Generation}
    (found : node.draft.candidate? id = some (.unresolved installed)) :
    (store.state installed).isResolved = false := by
  cases unbound found (by simp) with
  | unresolved notResolved => exact notResolved

theorem waits_of_decision
    {node result : Node} (scheduled : Scheduled node)
    (decision : Decision search node result)
    (unbound : UnboundGiven store node) (waits : Waits store node) :
    Waits store result := by
  intro id bound waiting found
  obtain ⟨earlier, before, evolution⟩ :=
    exists_evolution scheduled decision found
  have same : bound.host = earlier.generation := evolution.generation
  rw [same]
  rcases waiting_of_decision scheduled decision waiting with
    queued | ⟨installed, unresolved, _⟩
  · obtain ⟨module, hit⟩ := scheduled.queued id queued
    cases before.symm.trans hit
    exact waits (.inl queued) hit
  · cases before.symm.trans unresolved
    exact unbound.unresolved unresolved

theorem Joins.admits
    {node : Node} {id : GenerationId} {candidate : Candidate}
    (joins : search.Joins node candidate fragment)
    (found : node.draft.candidate? id = some candidate)
    (unbound : UnboundGiven store node) (waits : Waits store node) :
    search.Admits store candidate.generation fragment where
  unresolved := unbound.unresolved joins.found
  hosted := joins.hosted
  accepted := joins.accepted
  timely := by
    intro resolveTime
    cases candidate with
    | unresolved installed => exact unbound.unresolved found
    | resolved wired => exact absurd rfl (joins.timely resolveTime wired)
    | bound binding =>
        have sameId := Draft.id_of_candidate? found
        exact waits (.inr (joins.turn binding rfl)) (sameId ▸ found)

theorem stocked_of_decision
    {node result : Node} (scheduled : Scheduled node)
    (decision : Decision search node result)
    (unbound : UnboundGiven store node) (waits : Waits store node)
    (stocked : Everywhere (search.Stocked store) node) :
    Everywhere (search.Stocked store) result := by
  intro id candidate found fragment member
  obtain ⟨earlier, before, same, joined⟩ :=
    augments_of_decision scheduled decision found
  rw [same]
  rcases joined fragment member with carried | joins
  · exact stocked before fragment carried
  · exact .inr (joins.admits before unbound waits)

/-- All through a search, candidates have the fragments that they were resolved
with and some that they may take on. -/
theorem stocked_of_line
    {node final : Node} (line : search.problem.Line node final)
    (scheduled : Scheduled node)
    (given : Everywhere (Candidate.IsGiven store) node)
    (waits : Waits store node) :
    Everywhere (search.Stocked store) final := by
  have both : Waits store final ∧ Everywhere (search.Stocked store) final := by
    refine @invariant_of_line _ (fun position => Waits store position ∧
      Everywhere (search.Stocked store) position) _ _ line scheduled
      ⟨waits, fun _ _ found => stocked_of_isGiven (given found)⟩ ?_
    intro position result before isScheduled decision holds
    have unbound : UnboundGiven store position := fun _ _ found notBound =>
      isGiven_of_notBound before scheduled given found notBound
    exact ⟨waits_of_decision isScheduled decision unbound holds.1,
      stocked_of_decision isScheduled decision unbound holds.1 holds.2⟩
  exact both.2

/-- No fragment is bound as a host but one. -/
def IsHostOr (target : Generation) (candidate : Candidate) : Prop :=
  ∀ bound, candidate = .bound bound →
    bound.host.isFragment = true → bound.host = target

theorem isHostOr_of_evolution
    {draft after : Draft} {earlier candidate : Candidate} {target : Generation}
    (evolution : Evolution search draft after earlier candidate)
    (isHost : IsHostOr target earlier) : IsHostOr target candidate := by
  rintro bound rfl isFragment
  have same : bound.host = earlier.generation := evolution.generation
  cases evolution with
  | keep => exact isHost bound rfl isFragment
  | opening _ _ notFragment _ _ =>
      rw [same, notFragment] at isFragment
      cases isFragment
  | deciding step =>
      rw [step.host] at isFragment ⊢
      exact isHost _ rfl isFragment

theorem isHostOr_of_isHost
    {candidate : Candidate} (isHost : IsHost candidate) (target : Generation) :
    IsHostOr target candidate := by
  rintro bound rfl isFragment
  have notFragment : bound.host.isFragment = false := isHost
  rw [notFragment] at isFragment
  cases isFragment

end Search

end ModuleWiring
