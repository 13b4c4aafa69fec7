import ModuleWiring.Proofs.Schedule

/-!
# What becomes of a candidate

Seen from one candidate, a decision leaves it alone, opens it, or decides its
next require or import.  What holds of every candidate of a draft is shown one
such case at a time.
-/

namespace ModuleWiring.Search

/-- What deciding its next require or import makes of the module in charge. -/
inductive Deciding (search : Search) (draft after : Draft) :
    BoundModule → BoundModule → Prop where
  | leaveRequire {bound : BoundModule} {require : Require}
      {rest : List Require} :
      draft.resolvingBound? = some bound →
      bound.requires = require :: rest →
      require.isOptional = true →
      Deciding search draft after bound { bound with requires := rest }
  | provide {middle : Draft} {bound : BoundModule} {require : Require}
      {rest : List Require} {provider : Generation} :
      draft.resolvingBound? = some bound →
      bound.requires = require :: rest →
      provider ∈ search.requireChoices draft require →
      isRequireConsistent draft provider = true →
      draft.Engaged provider.id middle →
      (∀ installed, after.candidate? provider.id ≠
        some (.unresolved installed)) →
      Deciding search draft after bound
        ({ bound with requires := rest }.addProvision ⟨require, provider⟩
          (if require.isReexport then middle.visible provider else []))
  | leaveImport {bound : BoundModule} {requirement : PackageImport}
      {rest : List PackageImport} :
      draft.resolvingBound? = some bound →
      bound.imports = requirement :: rest →
      search.MayLeave bound requirement →
      Deciding search draft after bound { bound with imports := rest }
  | wire {bound : BoundModule} {requirement : PackageImport}
      {rest : List PackageImport} {choice : WireChoice} :
      draft.resolvingBound? = some bound →
      bound.imports = requirement :: rest →
      bound.wirings.find? requirement.package = none →
      search.framework.bootDelegation.covers requirement.package = false →
      choice ∈ search.wireChoices draft requirement →
      isWireConsistent draft bound requirement.package choice = true →
      (∀ installed, after.candidate? choice.exporter.id ≠
        some (.unresolved installed)) →
      Deciding search draft after bound { bound with
        imports := rest
        wirings := bound.wirings.insert requirement.package
          ⟨requirement.package, choice.declared, choice.exporter⟩
        offers := bound.offers.filter
          (·.package ≠ requirement.package) }

/-- What a decision on a draft, which makes another one of it, makes of one of its
candidates. -/
inductive Evolution (search : Search) (draft after : Draft) :
    Candidate → Candidate → Prop where
  | keep (candidate : Candidate) :
      Evolution search draft after candidate candidate
  | opening {candidate : Candidate} {base new : BoundModule}
      {joined : List Generation} :
      candidate.Opens base →
      base.TakesOn joined new →
      candidate.generation.isFragment = false →
      (∀ fragment ∈ joined, fragment.isFragment = true ∧
        draft.candidate? fragment.id = some (.unresolved fragment)) →
      (∀ wired, candidate = .resolved wired →
        draft.IsUntouched ∧ after.resolving = some candidate.id) →
      Evolution search draft after candidate (.bound new)
  | deciding {bound new : BoundModule} :
      Deciding search draft after bound new →
      Evolution search draft after (.bound bound) (.bound new)

namespace Deciding

variable {search : Search} {draft after : Draft} {bound new : BoundModule}

theorem host
    (deciding : Deciding search draft after bound new) :
    new.host = bound.host := by
  cases deciding <;> rfl

theorem fragments
    (deciding : Deciding search draft after bound new) :
    new.fragments = bound.fragments := by
  cases deciding <;> rfl

theorem resolving
    (deciding : Deciding search draft after bound new) :
    draft.resolvingBound? = some bound := by
  cases deciding <;> assumption

end Deciding

namespace Evolution

variable {search : Search} {draft after : Draft}

theorem generation
    {candidate result : Candidate}
    (evolution : Evolution search draft after candidate result) :
    result.generation = candidate.generation := by
  cases evolution with
  | keep => rfl
  | opening opens taken _ _ _ => exact taken.host.trans opens.host
  | deciding step => exact step.host

/-- Fragments that a candidate has stay with it. -/
theorem mem_fragments
    {candidate result : Candidate} {fragment : Generation}
    (evolution : Evolution search draft after candidate result)
    (member : fragment ∈ candidate.fragments) :
    fragment ∈ result.fragments := by
  cases evolution with
  | keep => exact member
  | @opening _ base new joined opens taken _ _ _ =>
      have base : fragment ∈ base.fragments := by
        cases opens with
        | reopen => exact member
        | fresh => cases member
        | queued => cases member
      change fragment ∈ new.fragments
      rw [taken.fragments]
      exact List.mem_append_left _ base
  | @deciding bound new step =>
      change fragment ∈ new.fragments
      rw [step.fragments]
      exact member

end Evolution

variable {search : Search}

theorem evolution_refl (draft after : Draft) (id : GenerationId) :
    Option.Rel (Evolution search draft after) (draft.candidate? id)
      (draft.candidate? id) := by
  cases draft.candidate? id with
  | none => exact .none
  | some candidate => exact .some (.keep candidate)

/-- Who decides on the module in charge changes that module and the candidate
that it engages. -/
theorem evolution_of_engage
    {draft middle after : Draft} {bound new : BoundModule}
    {engagedId : GenerationId}
    (resolving : draft.resolvingBound? = some bound)
    (engaged : draft.Engaged engagedId middle)
    (notFragment : ∀ installed,
      draft.candidate? engagedId = some (.unresolved installed) →
        installed.isFragment = false)
    (sameHost : new.host = bound.host)
    (evolution : Evolution search draft after (.bound bound) (.bound new))
    (id : GenerationId) :
    Option.Rel (Evolution search draft after) (draft.candidate? id)
      ((middle.put (.bound new)).candidate? id) := by
  obtain ⟨current, isResolving, found⟩ :=
    Draft.exists_of_resolvingBound? resolving
  have currentId : new.host.id = current := by
    rw [sameHost]
    exact Draft.id_of_candidate? found
  by_cases isCurrent : current = id
  · subst isCurrent
    rw [found, Draft.candidate?_put, Draft.id_bound, if_pos currentId]
    exact .some evolution
  · rw [Draft.candidate?_put_of_ne (currentId ▸ isCurrent)]
    by_cases isEngaged : engagedId = id
    · subst isEngaged
      rcases engaged.candidate?_self with same | ⟨installed, before, after⟩
      · rw [same]
        exact evolution_refl draft after _
      · rw [before, after]
        exact .some (.opening (.fresh installed) (.nil _)
          (notFragment installed before) (by simp) (by simp))
    · rw [engaged.candidate?_of_ne isEngaged]
      exact evolution_refl draft after _

theorem evolution_of_put
    {draft after : Draft} {bound new : BoundModule}
    (resolving : draft.resolvingBound? = some bound)
    (sameHost : new.host = bound.host)
    (evolution : Evolution search draft after (.bound bound) (.bound new))
    (id : GenerationId) :
    Option.Rel (Evolution search draft after) (draft.candidate? id)
      ((draft.put (.bound new)).candidate? id) := by
  have found := Draft.candidate?_of_resolvingBound? resolving
  have already : draft.Engaged bound.host.id draft :=
    .already (by simp [found])
  exact evolution_of_engage resolving already (by simp [found]) sameHost
    evolution id

theorem evolution_of_bind
    {draft result : Draft} {installed : Generation}
    {joined : List Generation} {new : BoundModule}
    (current : draft.resolvingBound? = some (.of installed))
    (notFragment : installed.isFragment = false)
    (binds : draft.Binds result installed joined new) (other : GenerationId) :
    Option.Rel (Evolution search draft result) (draft.candidate? other)
      (result.candidate? other) := by
  rw [binds.annotated]
  refine evolution_of_put current binds.taken.host
    (.opening (.queued installed) binds.taken notFragment ?_ (by simp)) other
  intro fragment member
  exact ⟨(binds.free fragment member).isFragment,
    (binds.free fragment member).found⟩

theorem evolution_of_attach
    {draft result : Draft} {fragment host : Generation}
    {candidate : Candidate} {base new : BoundModule}
    (untouched : draft.IsUntouched)
    (found : draft.candidate? fragment.id = some (.unresolved fragment))
    (isFragment : fragment.isFragment = true)
    (notFragment : candidate.generation.isFragment = false)
    (attaches : draft.Attaches result fragment host candidate base new)
    (other : GenerationId) :
    Option.Rel (Evolution search draft result) (draft.candidate? other)
      (result.candidate? other) := by
  rw [attaches.candidate?_eq]
  by_cases isHost : host.id = other
  · subst isHost
    rw [attaches.found, if_pos rfl]
    refine .some (.opening attaches.opened attaches.taken notFragment ?_ ?_)
    · intro joined member
      cases List.mem_singleton.1 member
      exact ⟨isFragment, found⟩
    · intro wired _
      have sameId : candidate.id = host.id :=
        Draft.id_of_candidate? attaches.found
      exact ⟨untouched, attaches.resolving.trans (congrArg some sameId.symm)⟩
  · rw [if_neg isHost]
    exact evolution_refl _ _ other

/-- Every decision lets each candidate evolve. -/
theorem evolution_of_decision
    {node result : Node} (scheduled : Scheduled node)
    (decision : Decision search node result) (id : GenerationId) :
    Option.Rel (Evolution search node.draft result.draft)
      (node.draft.candidate? id)
      (result.draft.candidate? id) := by
  cases decision with
  | idle _ => exact evolution_refl _ _ id
  | attach resolving found isFragment offered done =>
      obtain ⟨_, _, _, notFragment, attaches⟩ :=
        scheduled.exists_attaches resolving found offered done
      obtain ⟨untouched, _, _⟩ := scheduled.untouched_of_start resolving found
      exact evolution_of_attach untouched found isFragment notFragment
        attaches id
  | bind resolving found notFragment chosen done =>
      obtain ⟨_, _, current, binds⟩ :=
        scheduled.exists_binds resolving found notFragment chosen done
      exact evolution_of_bind current notFragment binds id
  | toImports _ _ => exact evolution_refl _ _ id
  | leaveRequire current next optional =>
      refine evolution_of_put current ?_
        (.deciding (.leaveRequire current next optional)) id
      rfl
  | provide current next offered consistent engaged =>
      refine evolution_of_engage current engaged
        (notFragment_of_mem_requireChoices offered) ?_
        (.deciding (.provide current next offered consistent engaged
          (engaged.notUnresolved_put _))) id
      rfl
  | leaveImport current next allowed =>
      refine evolution_of_put current ?_
        (.deciding (.leaveImport current next allowed)) id
      rfl
  | wire current next unwired undelegated offered consistent engaged =>
      refine evolution_of_engage current engaged
        (notFragment_of_mem_wireChoices offered) ?_
        (.deciding (.wire current next unwired undelegated offered
          consistent (engaged.notUnresolved_put _))) id
      rfl
  | @settle phase draft through =>
      obtain ⟨current, bound, resolving, found, _⟩ :=
        scheduled.exists_of_settle through
      have same : (settle draft).draft.candidate? id =
          draft.candidate? id := by
        rw [scheduled.settle_eq resolving found]
        cases draft.queue <;> rfl
      rw [same]
      exact evolution_refl _ _ id

theorem exists_evolution
    {node result : Node} (scheduled : Scheduled node)
    (decision : Decision search node result)
    {id : GenerationId} {candidate : Candidate}
    (found : result.draft.candidate? id = some candidate) :
    ∃ earlier, node.draft.candidate? id = some earlier ∧
      Evolution search node.draft result.draft earlier candidate := by
  have evolved := evolution_of_decision scheduled decision id
  rw [found] at evolved
  cases old : node.draft.candidate? id with
  | none =>
      rw [old] at evolved
      cases evolved
  | some earlier =>
      rw [old] at evolved
      cases evolved with
      | some evolution => exact ⟨earlier, rfl, evolution⟩

theorem exists_later_candidate
    {node result : Node} (scheduled : Scheduled node)
    (decision : Decision search node result)
    {id : GenerationId} {candidate : Candidate}
    (found : node.draft.candidate? id = some candidate) :
    ∃ later, result.draft.candidate? id = some later ∧
      Evolution search node.draft result.draft candidate later := by
  have evolved := evolution_of_decision scheduled decision id
  rw [found] at evolved
  cases new : result.draft.candidate? id with
  | none =>
      rw [new] at evolved
      cases evolved
  | some later =>
      rw [new] at evolved
      cases evolved with
      | some evolution => exact ⟨later, rfl, evolution⟩

/-- No candidate comes or goes. -/
theorem candidate?_eq_none_iff
    {node result : Node} (scheduled : Scheduled node)
    (decision : Decision search node result) (id : GenerationId) :
    result.draft.candidate? id = none ↔
      node.draft.candidate? id = none := by
  constructor
  · intro missing
    cases old : node.draft.candidate? id with
    | none => rfl
    | some earlier =>
        obtain ⟨later, found, _⟩ :=
          exists_later_candidate scheduled decision old
        rw [missing] at found
        cases found
  · intro missing
    cases new : result.draft.candidate? id with
    | none => rfl
    | some later =>
        obtain ⟨earlier, found, _⟩ := exists_evolution scheduled decision new
        rw [missing] at found
        cases found

theorem candidate?_eq_none_iff_of_line
    {node final : Node} (line : search.problem.Line node final)
    (scheduled : Scheduled node) (id : GenerationId) :
    final.draft.candidate? id = none ↔ node.draft.candidate? id = none := by
  induction line with
  | refl => exact Iff.rfl
  | tail before step inductionHypothesis =>
      exact (candidate?_eq_none_iff (scheduled_of_line before scheduled)
        (decision_of_step step) id).trans inductionHypothesis

/-- A wire that a decision has chosen for the module in charge. -/
structure Chosen (search : Search) (draft after : Draft)
    (bound : BoundModule) (wire : Wire) : Prop where
  resolving : draft.resolvingBound? = some bound
  undelegated :
    search.framework.bootDelegation.covers wire.package = false
  offered : ∃ requirement ∈ bound.imports,
    requirement.package = wire.package ∧
      ⟨wire.exporter, wire.declared⟩ ∈ search.wireChoices draft requirement
  consistent : isWireConsistent draft bound wire.package
    ⟨wire.exporter, wire.declared⟩ = true
  engaged : ∀ installed,
    after.candidate? wire.exporter.id ≠ some (.unresolved installed)

/-- A wire of a candidate after a decision is an earlier one or has been
chosen. -/
theorem Evolution.find?_wirings
    {draft after : Draft} {earlier candidate : Candidate}
    {package : String} {wire : Wire}
    (evolution : Evolution search draft after earlier candidate)
    (found : candidate.wirings.find? package = some wire) :
    earlier.wirings.find? package = some wire ∨
      ∃ bound, earlier = .bound bound ∧ wire.package = package ∧
        Chosen search draft after bound wire := by
  cases evolution with
  | keep => exact .inl found
  | opening opens taken _ _ _ =>
      left
      change Table.find? (BoundModule.wirings _) package = some wire at found
      rw [taken.wirings] at found
      cases opens with
      | reopen wired => exact found
      | fresh installed => exact found
      | queued installed => exact found
  | @deciding bound new step =>
      cases step with
      | leaveRequire _ _ _ => exact .inl found
      | provide _ _ _ _ _ _ => exact .inl found
      | leaveImport _ _ _ => exact .inl found
      | @wire _ requirement rest choice resolving next _ undelegated
          offered consistent engaged =>
          change (Table.insert bound.wirings requirement.package _).find?
            package = some wire at found
          rw [Table.find?_insert] at found
          split at found
          · rename_i same
            cases found
            exact .inr ⟨bound, rfl, same, resolving, undelegated,
              ⟨requirement, by simp [next], rfl, offered⟩, consistent,
              engaged⟩
          · exact .inl found

/-- A candidate was resolved before a search, or the search has bound it such that
something holds. -/
def ResolvedOr (store : Store) (Holds : BoundModule → Prop) :
    Candidate → Prop
  | .unresolved _ => True
  | .resolved wired => (store.state wired.generation).isResolved = true
  | .bound bound =>
      (store.state bound.host).isResolved = true ∨ Holds bound

/-- What holds of fresh hosts, with the fragments that they take on, and survives
their decisions, holds of all that were not resolved before. -/
theorem resolvedOr_of_evolution
    {store : Store} {Holds : BoundModule → Prop} {draft after : Draft}
    {earlier candidate : Candidate}
    (evolution : Evolution search draft after earlier candidate)
    (holds : ResolvedOr store Holds earlier)
    (fresh : ∀ {installed joined new},
      (BoundModule.of installed).TakesOn joined new → Holds new)
    (decided : ∀ {bound new},
      Deciding search draft after bound new → Holds bound → Holds new) :
    ResolvedOr store Holds candidate := by
  cases evolution with
  | keep => exact holds
  | opening opens taken _ _ _ =>
      cases opens with
      | reopen wired =>
          left
          rw [taken.host]
          exact holds
      | fresh installed => exact .inr (fresh taken)
      | queued installed => exact .inr (fresh taken)
  | @deciding bound new step =>
      change _ ∨ _
      rw [step.host]
      exact holds.imp_right (decided step)

/-- All candidates of a position have a property. -/
def Everywhere (Property : Candidate → Prop) (node : Node) : Prop :=
  ∀ ⦃id candidate⦄, node.draft.candidate? id = some candidate →
    Property candidate

/-- A property of candidates that every evolution keeps holds of all of them
along every line of play. -/
theorem everywhere_of_line
    {Property : Candidate → Prop} {node final : Node}
    (line : search.problem.Line node final) (scheduled : Scheduled node)
    (initial : Everywhere Property node)
    (preserved : ∀ {position result : Node} {earlier candidate : Candidate},
      Everywhere Property position →
        Evolution search position.draft result.draft earlier candidate →
          Property earlier → Property candidate) :
    Everywhere Property final := by
  refine invariant_of_line line scheduled initial ?_
  intro position result _ before decision holds id candidate found
  obtain ⟨earlier, old, evolution⟩ := exists_evolution before decision found
  exact preserved holds evolution (holds old)

end ModuleWiring.Search
