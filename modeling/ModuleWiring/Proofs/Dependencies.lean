import ModuleWiring.Proofs.Providers

/-!
# What a module depends on

A module depends on the exporters of its wires and on the bundles that it
requires.  A decision that adds such a generation lets it take part, and none
takes that back, so that all of them have been settled or were resolved before
when a search has finished.
-/

namespace ModuleWiring

/-- A generation that a candidate is wired to or requires. -/
def Candidate.Needs (candidate : Candidate) (generation : Generation) :
    Prop :=
  (∃ package wire, candidate.wirings.find? package = some wire ∧
      wire.exporter = generation) ∨
    ∃ provision ∈ candidate.required, provision.provider = generation

/-- A candidate that is bound or was resolved before. -/
def Draft.TakesPart (draft : Draft) (generation : Generation) : Prop :=
  draft.generation? generation.id = some generation ∧
    ∀ installed,
      draft.candidate? generation.id ≠ some (.unresolved installed)

/-- The generations that a solution depends on. -/
def Solution.dependencies (solution : Solution) : List Generation :=
  solution.wires.map Wire.exporter ++
    solution.required.map RequiredWire.exporter

namespace Search

variable {search : Search} {store : Store}

/-- No decision makes a candidate another generation. -/
theorem generation?_of_decision
    {node result : Node} (scheduled : Scheduled node)
    (decision : Decision search node result) {id : GenerationId}
    {generation : Generation}
    (known : node.draft.generation? id = some generation) :
    result.draft.generation? id = some generation := by
  obtain ⟨candidate, found, rfl⟩ := Option.map_eq_some_iff.1 known
  obtain ⟨later, laterFound, evolution⟩ :=
    exists_later_candidate scheduled decision found
  unfold Draft.generation?
  rw [laterFound, Option.map_some, evolution.generation]

/-- Whoever takes part goes on to do so. -/
theorem takesPart_of_decision
    {node result : Node} (scheduled : Scheduled node)
    (decision : Decision search node result) {generation : Generation}
    (takesPart : node.draft.TakesPart generation) :
    result.draft.TakesPart generation := by
  refine ⟨generation?_of_decision scheduled decision takesPart.1, ?_⟩
  intro installed found
  obtain ⟨earlier, old, evolution⟩ :=
    exists_evolution scheduled decision found
  refine evolution.notUnresolved ?_ installed rfl
  rintro other rfl
  exact takesPart.2 other old

/-- A provision of a candidate after a decision is an earlier one, or its provider
takes part. -/
theorem Evolution.mem_required
    {draft after : Draft} {earlier candidate : Candidate}
    {provision : Provision}
    (evolution : Evolution search draft after earlier candidate)
    (member : provision ∈ candidate.required) :
    provision ∈ earlier.required ∨
      draft.generation? provision.provider.id = some provision.provider ∧
        ∀ installed, after.candidate? provision.provider.id ≠
          some (.unresolved installed) := by
  cases evolution with
  | keep => exact .inl member
  | opening opens taken _ _ _ =>
      left
      change provision ∈ BoundModule.required _ at member
      rw [taken.required] at member
      cases opens with
      | reopen wired => exact member
      | fresh installed => exact member
      | queued installed => exact member
  | deciding step =>
      cases step with
      | leaveRequire _ _ _ => exact .inl member
      | leaveImport _ _ _ => exact .inl member
      | wire _ _ _ _ _ _ _ => exact .inl member
      | provide _ _ offered _ _ takesPart =>
          rcases List.mem_append.1 member with old | new
          · exact .inl old
          · rw [List.mem_singleton.1 new]
            exact .inr ⟨(mem_requireChoices offered).1, takesPart⟩

/-- The exporter of a chosen wire is a candidate. -/
theorem Chosen.generation?
    {draft after : Draft} {bound : BoundModule} {wire : Wire}
    (chosen : Chosen search draft after bound wire) :
    draft.generation? wire.exporter.id = some wire.exporter := by
  obtain ⟨_, _, _, offered⟩ := chosen.offered
  obtain ⟨candidate, found, isExporter, _⟩ :=
    exists_offer_of_mem_wireChoices offered
  exact Option.map_eq_some_iff.2 ⟨candidate, found, isExporter⟩

/-- What a candidate needs after a decision it needed before, or that takes
part. -/
theorem Evolution.needs
    {draft after : Draft} {earlier candidate : Candidate}
    {generation : Generation}
    (evolution : Evolution search draft after earlier candidate)
    (needs : candidate.Needs generation) :
    earlier.Needs generation ∨
      draft.generation? generation.id = some generation ∧
        ∀ installed,
          after.candidate? generation.id ≠ some (.unresolved installed) := by
  rcases needs with ⟨package, wire, held, rfl⟩ | ⟨provision, member, rfl⟩
  · rcases evolution.find?_wirings held with old | ⟨_, _, _, chosen⟩
    · exact .inl (.inl ⟨package, wire, old, rfl⟩)
    · exact .inr ⟨chosen.generation?, chosen.engaged⟩
  · exact (evolution.mem_required member).imp_left
      fun old => .inr ⟨provision, old, rfl⟩

/-- All that a module needs that was not resolved before takes part. -/
def NeedsTakePart (store : Store) (node : Node) : Prop :=
  ∀ ⦃id : GenerationId⦄ ⦃bound : BoundModule⦄,
    node.draft.candidate? id = some (.bound bound) →
    (store.state bound.host).isResolved = false →
    ∀ ⦃generation : Generation⦄,
      (Candidate.bound bound).Needs generation →
        node.draft.TakesPart generation

theorem needsTakePart_of_decision
    {node result : Node} (scheduled : Scheduled node)
    (given : Everywhere (ResolvedOr store fun _ => True) node)
    (decision : Decision search node result)
    (takePart : NeedsTakePart store node) :
    NeedsTakePart store result := by
  intro id bound found unresolved generation needs
  obtain ⟨earlier, old, evolution⟩ :=
    exists_evolution scheduled decision found
  have host : bound.host = earlier.generation := evolution.generation
  rw [host] at unresolved
  rcases evolution.needs needs with before | ⟨known, takesPart⟩
  · cases earlier with
    | unresolved installed =>
        rcases before with ⟨_, _, held, _⟩ | ⟨_, member, _⟩
        · cases held
        · cases member
    | resolved wired =>
        have wasResolved : (store.state wired.generation).isResolved = true :=
          given old
        exact absurd wasResolved (Bool.eq_false_iff.1 unresolved)
    | bound module =>
        exact takesPart_of_decision scheduled decision
          (takePart old unresolved before)
  · exact ⟨generation?_of_decision scheduled decision known, takesPart⟩

/-- Whatever a candidate is wired to takes part, unless it has been wired so
before. -/
def WiresTakePart (store : Store) (node : Node) : Prop :=
  ∀ ⦃id : GenerationId⦄ ⦃candidate : Candidate⦄,
    node.draft.candidate? id = some candidate →
    ∀ ⦃package : String⦄ ⦃wire : Wire⦄,
      candidate.wirings.find? package = some wire →
        wire ∈ store.wires candidate.generation ∨
          node.draft.TakesPart wire.exporter

theorem wiresTakePart_of_decision
    {node result : Node} (scheduled : Scheduled node)
    (decision : Decision search node result)
    (takePart : WiresTakePart store node) :
    WiresTakePart store result := by
  intro id candidate found package wire held
  obtain ⟨earlier, old, evolution⟩ :=
    exists_evolution scheduled decision found
  rcases evolution.find?_wirings held with before | ⟨_, _, _, chosen⟩
  · rw [evolution.generation]
    exact (takePart old before).imp_right
      (takesPart_of_decision scheduled decision)
  · exact .inr ⟨generation?_of_decision scheduled decision
      chosen.generation?, chosen.engaged⟩

end Search

open Search

namespace Resolver

variable {resolver : Resolver} {store : Store} {target : Generation}
  {framework : Framework} {start : Node} {final : Draft}

theorem Run.needsTakePart
    (run : resolver.Run store target framework start final) :
    NeedsTakePart store ⟨.finished, final⟩ := by
  refine invariant_of_line run.line run.scheduled ?_ ?_
  · intro id bound found unresolved generation needs
    cases (run.begins.given found).2 with
    | target _ _ =>
        rcases needs with ⟨_, _, held, _⟩ | ⟨_, member, _⟩
        · cases held
        · cases member
    | reopened _ wasResolved =>
        exact absurd wasResolved (Bool.eq_false_iff.1 unresolved)
  · intro position result before isScheduled decision takePart
    exact needsTakePart_of_decision isScheduled
      (run.resolvedOr_of_line before) decision takePart

theorem Run.wiresTakePart
    (run : resolver.Run store target framework start final) :
    WiresTakePart store ⟨.finished, final⟩ := by
  refine invariant_of_line run.line run.scheduled ?_
    fun _ isScheduled decision takePart =>
      wiresTakePart_of_decision isScheduled decision takePart
  intro id candidate found package wire held
  left
  cases (run.begins.given found).2 with
  | unresolved _ => cases held
  | target _ _ => cases held
  | resolved _ _ => exact Wirings.mem_of_find?_ofList held
  | reopened _ _ => exact Wirings.mem_of_find?_ofList held

/-- Whoever takes part in a search that has finished was resolved before, or is the
host of a solution. -/
theorem Run.resolved_or_solved
    (run : resolver.Run store target framework start final)
    {generation : Generation} (takesPart : final.TakesPart generation) :
    (store.state generation).isResolved = true ∨
      generation ∈ final.solutions.map Solution.host := by
  obtain ⟨candidate, found, rfl⟩ :=
    Option.map_eq_some_iff.1 takesPart.1
  cases candidate with
  | unresolved installed => exact absurd found (takesPart.2 installed)
  | resolved wired =>
      left
      exact run.resolvedOr_of_line run.line found
  | bound module =>
      right
      obtain ⟨solution, member, host, _⟩ :=
        run.finished.exists_solution found
      exact List.mem_map.2 ⟨solution, member, host⟩

/-- A module that is resolved by a search depends on generations that were resolved
before and on hosts of other solutions only. -/
theorem Run.dependencies_resolved_or_solved
    (run : resolver.Run store target framework start final)
    {solution : Solution} (member : solution ∈ final.solutions)
    (unresolved : (store.state solution.host).isResolved = false)
    {generation : Generation} (depends : generation ∈ solution.dependencies) :
    (store.state generation).isResolved = true ∨
      generation ∈ final.solutions.map Solution.host := by
  obtain ⟨bound, found, rfl⟩ := Draft.candidate?_of_mem_solutions member
  refine run.resolved_or_solved (run.needsTakePart found unresolved ?_)
  rcases List.mem_append.1 depends with exports | provides
  · obtain ⟨wire, listed, rfl⟩ := List.mem_map.1 exports
    obtain ⟨package, held⟩ := Table.exists_of_mem_values listed
    exact .inl ⟨package, wire, held, rfl⟩
  · obtain ⟨required, listed, rfl⟩ := List.mem_map.1 provides
    obtain ⟨provision, provided, rfl⟩ := List.mem_map.1 listed
    exact .inr ⟨provision, provided, rfl⟩

end Resolver

end ModuleWiring
