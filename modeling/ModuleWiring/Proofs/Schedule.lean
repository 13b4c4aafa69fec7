import ModuleWiring.Proofs.Fragments

/-!
# The schedule of a search

Every bound candidate is being decided, waits for that in the queue, or is
settled.  Nothing has been decided of one that waits, and everything of one that
is settled.
-/

namespace ModuleWiring

namespace Draft

/-- No candidate is bound. -/
def IsUntouched (draft : Draft) : Prop :=
  ∀ id bound, draft.candidate? id ≠ some (.bound bound)

theorem candidate?_put_self
    {draft : Draft} {bound new : BoundModule} {id : GenerationId}
    (found : draft.candidate? id = some (.bound bound))
    (sameHost : new.host = bound.host) :
    (draft.put (.bound new)).candidate? id = some (.bound new) := by
  have same : bound.host.id = id := id_of_candidate? found
  rw [candidate?_put, id_bound, sameHost, if_pos same]

theorem candidate?_put_of_ne
    {draft : Draft} {new : BoundModule} {id : GenerationId}
    (different : new.host.id ≠ id) :
    (draft.put (.bound new)).candidate? id = draft.candidate? id := by
  rw [candidate?_put, id_bound, if_neg different]

theorem resolvingBound?_put
    {draft : Draft} {bound new : BoundModule}
    (resolving : draft.resolvingBound? = some bound)
    (sameHost : new.host = bound.host) :
    (draft.put (.bound new)).resolvingBound? = some new := by
  obtain ⟨id, current, found⟩ := exists_of_resolvingBound? resolving
  have kept : (draft.put (.bound new)).resolving = some id := current
  simp only [resolvingBound?, kept, Option.bind_some, bound?,
    candidate?_put_self found sameHost, Candidate.bound?]

theorem resolvingBound?_eq_some
    {draft : Draft} {id : GenerationId} {bound : BoundModule}
    (resolving : draft.resolving = some id)
    (found : draft.candidate? id = some (.bound bound)) :
    draft.resolvingBound? = some bound := by
  simp only [resolvingBound?, resolving, Option.bind_some, bound?, found,
    Candidate.bound?]

end Draft

namespace Search

/-- What is known of the candidate in charge in each phase. -/
def Stage (node : Node) : Prop :=
  match node.phase with
  | .start =>
      (∃ installed : Generation,
        node.draft.resolving = some installed.id ∧
          node.draft.candidate? installed.id =
            some (.bound (.of installed))) ∨
      (∃ fragment : Generation,
        node.draft.resolving = some fragment.id ∧
          node.draft.candidate? fragment.id = some (.unresolved fragment) ∧
          fragment.isFragment = true ∧ node.draft.IsUntouched)
  | .requires => ∃ bound, node.draft.resolvingBound? = some bound
  | .imports =>
      ∃ bound, node.draft.resolvingBound? = some bound ∧ bound.requires = []
  | .finished => node.draft.isDone = true

/-- The candidates that a search has bound are in order. -/
structure Scheduled (node : Node) : Prop where
  queued : ∀ id ∈ node.draft.queue, ∃ installed,
    node.draft.candidate? id = some (.bound (.of installed))
  settled : ∀ id ∈ node.draft.settled, ∃ bound,
    node.draft.candidate? id = some (.bound bound) ∧
      bound.imports = [] ∧ bound.requires = []
  placed : ∀ {id bound}, node.draft.candidate? id = some (.bound bound) →
    id ∈ node.draft.settled ∨ node.draft.resolving = some id ∨
      id ∈ node.draft.queue
  distinct : (node.draft.settled ++
    (node.draft.resolving.toList ++ node.draft.queue)).Nodup
  used : ∀ {id bound}, node.draft.candidate? id = some (.bound bound) →
    node.draft.used.contains id = true
  stage : Stage node

namespace Scheduled

variable {phase : Phase} {draft : Draft}

theorem not_settled_of_resolving
    {node : Node} (scheduled : Scheduled node) {id : GenerationId}
    (resolving : node.draft.resolving = some id) :
    id ∉ node.draft.settled := by
  intro member
  have distinct := scheduled.distinct
  rw [resolving, List.nodup_append] at distinct
  exact distinct.2.2 id member id (by simp) rfl

theorem not_queued_of_resolving
    {node : Node} (scheduled : Scheduled node) {id : GenerationId}
    (resolving : node.draft.resolving = some id) :
    id ∉ node.draft.queue := by
  have distinct := scheduled.distinct
  rw [resolving, List.nodup_append] at distinct
  simpa using (List.nodup_cons.1 distinct.2.1).1

/-- A search in a later phase may go on with another draft of the module that it
decides. -/
theorem put
    {next : Phase} {bound new : BoundModule}
    (scheduled : Scheduled ⟨phase, draft⟩)
    (resolving : draft.resolvingBound? = some bound)
    (sameHost : new.host = bound.host)
    (stage : Stage ⟨next, draft.put (.bound new)⟩) :
    Scheduled ⟨next, draft.put (.bound new)⟩ := by
  obtain ⟨current, isResolving, found⟩ :=
    Draft.exists_of_resolvingBound? resolving
  have currentId : new.host.id = current := by
    rw [sameHost]
    exact Draft.id_of_candidate? found
  have kept : ∀ {id : GenerationId}, id ≠ current →
      (draft.put (.bound new)).candidate? id = draft.candidate? id :=
    fun different => Draft.candidate?_put_of_ne
      (currentId ▸ different.symm)
  have wasBound : ∀ {id : GenerationId} {other : BoundModule},
      (draft.put (.bound new)).candidate? id = some (.bound other) →
        ∃ before, draft.candidate? id = some (.bound before) := by
    intro id other hit
    by_cases same : id = current
    · exact ⟨bound, same ▸ found⟩
    · exact ⟨other, by rw [← kept same, hit]⟩
  refine ⟨?_, ?_, ?_, scheduled.distinct, ?_, stage⟩
  · intro id member
    obtain ⟨installed, waiting⟩ := scheduled.queued id member
    refine ⟨installed, (kept ?_).trans waiting⟩
    rintro rfl
    exact scheduled.not_queued_of_resolving isResolving member
  · intro id member
    obtain ⟨other, hit, decided⟩ := scheduled.settled id member
    refine ⟨other, (kept ?_).trans hit, decided⟩
    rintro rfl
    exact scheduled.not_settled_of_resolving isResolving member
  · intro id other hit
    obtain ⟨before, hitBefore⟩ := wasBound hit
    exact scheduled.placed hitBefore
  · intro id other hit
    obtain ⟨before, hitBefore⟩ := wasBound hit
    exact scheduled.used hitBefore

theorem use
    {id : GenerationId} (scheduled : Scheduled ⟨phase, draft⟩)
    (stage : Stage ⟨phase, draft.use id⟩) :
    Scheduled ⟨phase, draft.use id⟩ := by
  refine ⟨scheduled.queued, scheduled.settled, scheduled.placed,
    scheduled.distinct, ?_, stage⟩
  intro other bound hit
  have before := scheduled.used hit
  simp only [Draft.use, Roster.contains, Roster.find?_insert] at before ⊢
  split
  · rfl
  · exact before

/-- A candidate that is enlisted waits at the end of the queue. -/
theorem enlist
    {id : GenerationId} {installed : Generation}
    {singletons : Table String GenerationId}
    (scheduled : Scheduled ⟨phase, draft⟩)
    (found : draft.candidate? id = some (.unresolved installed))
    (other : draft.resolving ≠ some id)
    (stage : Stage ⟨phase, { (draft.put (.bound (.of installed))).use id with
      queue := draft.queue ++ [id], singletons := singletons }⟩) :
    Scheduled ⟨phase, { (draft.put (.bound (.of installed))).use id with
      queue := draft.queue ++ [id], singletons := singletons }⟩ := by
  have same : installed.id = id := Draft.id_of_candidate? found
  have here : (draft.put (.bound (.of installed))).candidate? id =
      some (.bound (.of installed)) := by
    rw [Draft.candidate?_put, Draft.id_bound]
    exact if_pos same
  have kept : ∀ {other : GenerationId}, other ≠ id →
      (draft.put (.bound (.of installed))).candidate? other =
        draft.candidate? other := by
    intro other different
    exact Draft.candidate?_put_of_ne (same ▸ different.symm)
  have notBound : ∀ {other : GenerationId} {bound : BoundModule},
      draft.candidate? other = some (.bound bound) → other ≠ id := by
    rintro other bound hit rfl
    rw [found] at hit
    cases hit
  refine ⟨?_, ?_, ?_, ?_, ?_, stage⟩
  · intro waiting member
    rcases List.mem_append.1 member with earlier | last
    · obtain ⟨generation, hit⟩ := scheduled.queued waiting earlier
      exact ⟨generation, (kept (notBound hit)).trans hit⟩
    · cases List.mem_singleton.1 last
      exact ⟨installed, here⟩
  · intro done member
    obtain ⟨bound, hit, decided⟩ := scheduled.settled done member
    exact ⟨bound, (kept (notBound hit)).trans hit, decided⟩
  · intro placedId bound hit
    by_cases isNew : placedId = id
    · exact .inr (.inr (List.mem_append_right _ (by simp [isNew])))
    · rcases scheduled.placed ((kept isNew).symm.trans hit) with
        settled | resolving | waiting
      · exact .inl settled
      · exact .inr (.inl resolving)
      · exact .inr (.inr (List.mem_append_left _ waiting))
  · have fresh : id ∉ draft.settled ++
        (draft.resolving.toList ++ draft.queue) := by
      intro member
      rcases List.mem_append.1 member with settled | later
      · obtain ⟨bound, hit, _⟩ := scheduled.settled id settled
        exact notBound hit rfl
      · rcases List.mem_append.1 later with resolving | waiting
        · exact other (Option.mem_toList.1 resolving)
        · obtain ⟨generation, hit⟩ := scheduled.queued id waiting
          exact notBound hit rfl
    have distinct := List.nodup_append.2
      ⟨scheduled.distinct, List.pairwise_singleton _ id, by
        rintro first member last lastMember rfl
        rw [List.mem_singleton.1 lastMember] at member
        exact fresh member⟩
    rw [List.append_assoc, List.append_assoc] at distinct
    exact distinct
  · intro usedId bound hit
    by_cases isNew : id = usedId
    · simp [Draft.use, Roster.contains, isNew]
    · have before := scheduled.used
        ((kept (Ne.symm isNew)).symm.trans hit)
      simpa [Draft.use, Draft.put, Roster.contains, isNew] using before

theorem engage
    {result : Draft} {id : GenerationId}
    (scheduled : Scheduled ⟨phase, draft⟩)
    (engaged : draft.Engaged id result)
    (other : draft.resolving ≠ some id)
    (stage : Stage ⟨phase, result⟩) :
    Scheduled ⟨phase, result⟩ := by
  cases engaged with
  | already _ => exact scheduled
  | use _ => exact scheduled.use stage
  | enlist found => exact scheduled.enlist found other stage

theorem annotate
    (scheduled : Scheduled ⟨phase, draft⟩) (unused : IdSet)
    (attached : Table GenerationId GenerationId)
    (singletons : Table String GenerationId) :
    Scheduled ⟨phase, { draft with
      unused := unused, attached := attached, singletons := singletons }⟩ :=
  ⟨scheduled.queued, scheduled.settled, scheduled.placed,
    scheduled.distinct, scheduled.used, scheduled.stage⟩

/-- The candidate that a start with a host begins to decide is fresh. -/
theorem fresh_of_start
    {id : GenerationId} {candidate : Candidate}
    (scheduled : Scheduled ⟨.start, draft⟩)
    (resolving : draft.resolving = some id)
    (found : draft.candidate? id = some candidate)
    (notFragment : candidate.generation.isFragment = false) :
    candidate = .bound (.of candidate.generation) := by
  rcases scheduled.stage with
    ⟨installed, current, hit⟩ | ⟨fragment, current, hit, isFragment, _⟩
  · have same : installed.id = id :=
      Option.some.inj (current.symm.trans resolving)
    rw [same, found] at hit
    cases hit
    rfl
  · have same : fragment.id = id :=
      Option.some.inj (current.symm.trans resolving)
    rw [same, found] at hit
    cases hit
    simp [Candidate.generation, isFragment] at notFragment

theorem untouched_of_start
    {id : GenerationId} {installed : Generation}
    (scheduled : Scheduled ⟨.start, draft⟩)
    (resolving : draft.resolving = some id)
    (found : draft.candidate? id = some (.unresolved installed)) :
    draft.IsUntouched ∧ draft.queue = [] ∧ draft.settled = [] := by
  rcases scheduled.stage with
    ⟨other, current, hit⟩ | ⟨fragment, _, _, _, untouched⟩
  · have same : other.id = id :=
      Option.some.inj (current.symm.trans resolving)
    rw [same, found] at hit
    cases hit
  · refine ⟨untouched, ?_, ?_⟩
    · apply List.eq_nil_iff_forall_not_mem.2
      intro waiting member
      obtain ⟨generation, hit⟩ := scheduled.queued waiting member
      exact untouched waiting _ hit
    · apply List.eq_nil_iff_forall_not_mem.2
      intro done member
      obtain ⟨bound, hit, _⟩ := scheduled.settled done member
      exact untouched done _ hit

/-- The module that is through with its imports, with its identity. -/
theorem exists_of_settle
    (scheduled : Scheduled ⟨phase, draft⟩)
    (through : phase = .requires ∧ draft.resolving = none ∨
      phase = .imports ∧ (∀ bound, draft.resolvingBound? = some bound →
        bound.imports = [])) :
    ∃ id bound, draft.resolving = some id ∧
      draft.candidate? id = some (.bound bound) ∧
      bound.imports = [] ∧ bound.requires = [] := by
  rcases through with ⟨rfl, resolving⟩ | ⟨rfl, decided⟩
  · obtain ⟨bound, current⟩ := scheduled.stage
    obtain ⟨id, isResolving, _⟩ := Draft.exists_of_resolvingBound? current
    rw [resolving] at isResolving
    cases isResolving
  · obtain ⟨bound, current, requires⟩ := scheduled.stage
    obtain ⟨id, isResolving, found⟩ :=
      Draft.exists_of_resolvingBound? current
    exact ⟨id, bound, isResolving, found, decided bound current, requires⟩

theorem completeResolving
    {id : GenerationId} {bound : BoundModule}
    (scheduled : Scheduled ⟨phase, draft⟩)
    (resolving : draft.resolving = some id)
    (found : draft.candidate? id = some (.bound bound)) :
    draft.completeResolving = { draft with
      resolving := none, settled := draft.settled ++ [id] } := by
  have unsettled : draft.isSettled id = false := by
    simpa [Draft.isSettled] using
      scheduled.not_settled_of_resolving resolving
  simp [Draft.completeResolving, resolving, Draft.bound?, found,
    Candidate.bound?, unsettled]

/-- Where a search goes when a module is settled. -/
theorem settle_eq
    {id : GenerationId} {bound : BoundModule}
    (scheduled : Scheduled ⟨phase, draft⟩)
    (resolving : draft.resolving = some id)
    (found : draft.candidate? id = some (.bound bound)) :
    settle draft =
      match draft.queue with
      | [] => ⟨.finished, { draft with
          resolving := none, settled := draft.settled ++ [id], queue := [] }⟩
      | next :: rest => ⟨.start, { draft with
          resolving := some next
          settled := draft.settled ++ [id]
          queue := rest }⟩ := by
  unfold Search.settle Draft.startNext?
  rw [scheduled.completeResolving resolving found]
  cases waiting : draft.queue with
  | nil => simp
  | cons next rest => simp

/-- The host that begins to be decided is fresh and takes on what is chosen. -/
theorem exists_binds
    {search : Search} {result : Draft} {id : GenerationId}
    {candidate : Candidate} {fragments : List GenerationId}
    (scheduled : Scheduled ⟨.start, draft⟩)
    (resolving : draft.resolving = some id)
    (found : draft.candidate? id = some candidate)
    (notFragment : candidate.generation.isFragment = false)
    (chosen : fragments.Sublist ((search.fragmentChoices draft
      candidate.generation).map Generation.id))
    (done : bind? draft id fragments = some result) :
    ∃ joined new,
      draft.resolvingBound? = some (.of candidate.generation) ∧
        draft.Binds result candidate.generation joined new := by
  have fresh := scheduled.fresh_of_start resolving found notFragment
  have sameId : candidate.generation.id = id := Draft.id_of_candidate? found
  have hit : draft.candidate? candidate.generation.id =
      some (.bound (.of candidate.generation)) := by
    rw [sameId]
    exact found.trans (congrArg some fresh)
  rw [← sameId] at resolving done
  rw [bind?_eq fragments hit] at done
  obtain ⟨joined, new, binds⟩ :=
    binds_of_bindFragments hit chosen (eq_ok_of_toOption done)
  exact ⟨joined, new, Draft.resolvingBound?_eq_some resolving hit, binds⟩

/-- The fragment that begins to be decided joins a host that is opened for it. -/
theorem exists_attaches
    {search : Search} {result : Draft} {fragment host : Generation}
    (scheduled : Scheduled ⟨.start, draft⟩)
    (resolving : draft.resolving = some fragment.id)
    (found : draft.candidate? fragment.id = some (.unresolved fragment))
    (offered : host ∈ search.hostChoices draft fragment)
    (done : draft.attachFragment fragment.id host.id = .ok result) :
    ∃ candidate base new, candidate.generation.isFragment = false ∧
      draft.Attaches result fragment host candidate base new := by
  obtain ⟨candidate, hostFound, notFragment⟩ := mem_hostChoices offered
  obtain ⟨untouched, _, _⟩ := scheduled.untouched_of_start resolving found
  have notBound : ∀ bound, candidate ≠ .bound bound := by
    rintro bound rfl
    exact untouched host.id bound hostFound
  obtain ⟨base, new, attaches⟩ :=
    Draft.attaches_of_attachFragment found hostFound notBound done
  exact ⟨candidate, base, new, notFragment, attaches⟩

theorem bind
    {result : Draft} {installed : Generation} {joined : List Generation}
    {new : BoundModule}
    (scheduled : Scheduled ⟨.start, draft⟩)
    (current : draft.resolvingBound? = some (.of installed))
    (binds : draft.Binds result installed joined new) :
    Scheduled ⟨.requires, result⟩ := by
  have sameHost := binds.taken.host
  have kept : Scheduled ⟨.requires, draft.put (.bound new)⟩ :=
    scheduled.put current sameHost
      ⟨new, Draft.resolvingBound?_put current sameHost⟩
  rw [binds.annotated]
  exact kept.annotate _ _ _

theorem attach
    {result : Draft} {fragment host : Generation} {candidate : Candidate}
    {base new : BoundModule}
    (scheduled : Scheduled ⟨.start, draft⟩)
    (resolving : draft.resolving = some fragment.id)
    (found : draft.candidate? fragment.id = some (.unresolved fragment))
    (attaches : draft.Attaches result fragment host candidate base new) :
    Scheduled ⟨.requires, result⟩ := by
  obtain ⟨untouched, queue, settled⟩ :=
    scheduled.untouched_of_start resolving found
  have onlyHost : ∀ {id : GenerationId} {bound : BoundModule},
      result.candidate? id = some (.bound bound) → host.id = id := by
    intro id bound hit
    by_cases isHost : host.id = id
    · exact isHost
    · rw [attaches.candidate?_eq, if_neg isHost] at hit
      exact absurd hit (untouched id bound)
  have noQueue : result.queue = [] := by
    rw [attaches.same]
    exact queue
  have noneSettled : result.settled = [] := by
    rw [attaches.same]
    exact settled
  refine ⟨by simp [noQueue], by simp [noneSettled], ?_, ?_, ?_, ⟨new, ?_⟩⟩
  · intro id bound hit
    exact .inr (.inl (attaches.resolving.trans
      (congrArg some (onlyHost hit))))
  · simp [noQueue, noneSettled, attaches.resolving]
  · intro id bound hit
    change result.used.contains id = true
    rw [attaches.same, onlyHost hit]
    exact (Roster.contains_insert _ _ _).2 (.inl rfl)
  · exact Draft.resolvingBound?_eq_some attaches.resolving
      ((attaches.candidate?_eq _).trans (if_pos rfl))

theorem settle
    (scheduled : Scheduled ⟨phase, draft⟩)
    (through : phase = .requires ∧ draft.resolving = none ∨
      phase = .imports ∧ (∀ bound, draft.resolvingBound? = some bound →
        bound.imports = [])) :
    Scheduled (Search.settle draft) := by
  obtain ⟨id, bound, resolving, found, decided⟩ :=
    scheduled.exists_of_settle through
  have settled : ∀ done ∈ draft.settled ++ [id], ∃ bound,
      draft.candidate? done = some (.bound bound) ∧
        bound.imports = [] ∧ bound.requires = [] := by
    intro done member
    rcases List.mem_append.1 member with earlier | last
    · exact scheduled.settled done earlier
    · cases List.mem_singleton.1 last
      exact ⟨bound, found, decided⟩
  have distinct : (draft.settled ++ ([id] ++ draft.queue)).Nodup := by
    have before := scheduled.distinct
    rw [resolving] at before
    exact before
  have placed : ∀ {other : GenerationId} {module : BoundModule},
      draft.candidate? other = some (.bound module) →
        other ∈ draft.settled ++ [id] ∨ other ∈ draft.queue := by
    intro other module hit
    rcases scheduled.placed hit with earlier | current | waiting
    · exact .inl (List.mem_append_left _ earlier)
    · have same : id = other :=
        Option.some.inj (resolving.symm.trans current)
      exact .inl (List.mem_append_right _ (by simp [same]))
    · exact .inr waiting
  rw [scheduled.settle_eq resolving found]
  cases queue : draft.queue with
  | nil =>
      rw [queue] at distinct placed
      refine ⟨by simp, settled, ?_, ?_, scheduled.used, rfl⟩
      · intro other module hit
        exact .inl ((placed hit).elim (fun member => member)
          (fun waiting => absurd waiting List.not_mem_nil))
      · simpa using distinct
  | cons next rest =>
      rw [queue] at distinct placed
      have waiting : ∀ id ∈ next :: rest, ∃ installed,
          draft.candidate? id = some (.bound (.of installed)) :=
        fun id member => scheduled.queued id (queue ▸ member)
      obtain ⟨installed, fresh⟩ := waiting next List.mem_cons_self
      have same : installed.id = next := Draft.id_of_candidate? fresh
      refine ⟨?_, settled, ?_, ?_, scheduled.used,
        .inl ⟨installed, congrArg some same.symm, same ▸ fresh⟩⟩
      · exact fun id member => waiting id (List.mem_cons_of_mem _ member)
      · intro other module hit
        rcases placed hit with done | later
        · exact .inl done
        · rcases List.mem_cons.1 later with rfl | after
          · exact .inr (.inl rfl)
          · exact .inr (.inr after)
      · simpa using distinct

end Scheduled

/-- Every decision leaves the candidates in order. -/
theorem scheduled_of_decision
    {search : Search} {node result : Node}
    (scheduled : Scheduled node)
    (decision : Decision search node result) :
    Scheduled result := by
  cases decision with
  | idle resolving =>
      rcases scheduled.stage with
        ⟨installed, current, _⟩ | ⟨fragment, current, _⟩
      · rw [resolving] at current
        cases current
      · rw [resolving] at current
        cases current
  | attach resolving found _ offered done =>
      obtain ⟨_, _, _, _, attaches⟩ :=
        scheduled.exists_attaches resolving found offered done
      exact scheduled.attach resolving found attaches
  | bind resolving found notFragment chosen done =>
      obtain ⟨_, _, current, binds⟩ :=
        scheduled.exists_binds resolving found notFragment chosen done
      exact scheduled.bind current binds
  | @toImports draft _ through =>
      obtain ⟨bound, current⟩ := scheduled.stage
      have requires : bound.requires = [] := by
        simpa [Draft.nextRequire?, current] using through
      exact ⟨scheduled.queued, scheduled.settled, scheduled.placed,
        scheduled.distinct, scheduled.used, ⟨bound, current, requires⟩⟩
  | leaveRequire current next _ =>
      exact scheduled.put current rfl
        ⟨_, Draft.resolvingBound?_put current rfl⟩
  | provide current next offered _ engaged =>
      obtain ⟨_, other, _⟩ := mem_requireChoices offered
      have middleCurrent :=
        (engaged.resolvingBound? other).trans current
      have middle := scheduled.engage engaged other
        ⟨_, middleCurrent⟩
      exact middle.put middleCurrent rfl
        ⟨_, Draft.resolvingBound?_put middleCurrent rfl⟩
  | leaveImport current next _ =>
      obtain ⟨bound, same, requires⟩ := scheduled.stage
      rw [current] at same
      cases same
      exact scheduled.put current rfl
        ⟨_, Draft.resolvingBound?_put current rfl, requires⟩
  | wire current next _ _ offered _ engaged =>
      obtain ⟨bound, same, requires⟩ := scheduled.stage
      rw [current] at same
      cases same
      have other := ne_resolving_of_mem_wireChoices offered
      have middleCurrent :=
        (engaged.resolvingBound? other).trans current
      have middle := scheduled.engage engaged other
        ⟨_, middleCurrent, requires⟩
      exact middle.put middleCurrent rfl
        ⟨_, Draft.resolvingBound?_put middleCurrent rfl, requires⟩
  | settle through => exact scheduled.settle through

theorem scheduled_of_line
    {search : Search} {node final : Node}
    (line : search.problem.Line node final) (scheduled : Scheduled node) :
    Scheduled final := by
  induction line with
  | refl => exact scheduled
  | tail _ step inductionHypothesis =>
      exact scheduled_of_decision inductionHypothesis (decision_of_step step)

/-- What holds at a position in order, and survives every decision, holds along
every line of play. -/
theorem invariant_of_line
    {search : Search} {Invariant : Node → Prop} {node final : Node}
    (line : search.problem.Line node final) (scheduled : Scheduled node)
    (initial : Invariant node)
    (preserved : ∀ {position result}, search.problem.Line node position →
      Scheduled position → Decision search position result →
        Invariant position → Invariant result) :
    Invariant final := by
  induction line with
  | refl => exact initial
  | tail before step inductionHypothesis =>
      exact preserved before (scheduled_of_line before scheduled)
        (decision_of_step step) inductionHypothesis

namespace Scheduled

variable {final : Draft}

theorem resolving_of_finished
    (scheduled : Scheduled ⟨.finished, final⟩) :
    final.resolving = none ∧ final.queue = [] := by
  have isDone := scheduled.stage
  change final.isDone = true at isDone
  simpa [Draft.isDone, and_comm] using isDone

/-- Everything that is bound when a search has finished is settled. -/
theorem mem_settled_of_finished
    (scheduled : Scheduled ⟨.finished, final⟩)
    {id : GenerationId} {bound : BoundModule}
    (found : final.candidate? id = some (.bound bound)) :
    id ∈ final.settled := by
  obtain ⟨resolving, queue⟩ := scheduled.resolving_of_finished
  have placed := scheduled.placed found
  rw [resolving, queue] at placed
  simpa using placed

end Scheduled

end Search

end ModuleWiring
