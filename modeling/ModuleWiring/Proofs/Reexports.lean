import ModuleWiring.Proofs.Conditions
import ModuleWiring.Proofs.Identities
import ModuleWiring.Proofs.Requires

/-!
# What is visible through a required bundle

A bundle that re-exports another one copies what is visible through it when the
require is decided.  The copies are in step with the exports that they were made
of, as far as the search only adds to these.
-/

namespace ModuleWiring

namespace Draft

/-- The exporter of a wire offers the export itself. -/
def Exports (draft : Draft) (wire : Wire) : Prop :=
  ∃ candidate ∈ draft.candidate? wire.exporter.id,
    ⟨wire.package, wire.declared, none⟩ ∈ candidate.offers

/-- Some candidate offers the export of a wire for its exporter. -/
def Reexports (draft : Draft) (wire : Wire) : Prop :=
  ∃ candidate ∈ draft.candidates.members,
    ⟨wire.package, wire.declared, some wire.exporter⟩ ∈ candidate.offers

/-- A candidate has a wire for a package. -/
def IsWired (draft : Draft) (id : GenerationId) (package : String) : Prop :=
  ∃ candidate ∈ draft.candidate? id,
    candidate.wirings.contains package = true

/-- The reasons for which a draft that comes from another one may show the export
of a wire.  Either its exporter offers it, or the exporter takes no part in the
search, has been wired for the package by it, or did not offer the export in the
first place, when it was re-exported already. -/
inductive Shows (start draft : Draft) (wire : Wire) : Prop where
  | exports :
      draft.Exports wire → Shows start draft wire
  | absent :
      draft.candidate? wire.exporter.id = none → Shows start draft wire
  | superseded :
      draft.IsWired wire.exporter.id wire.package →
      ¬ start.IsWired wire.exporter.id wire.package →
      Shows start draft wire
  | outdated {candidate : Candidate} :
      start.Reexports wire →
      start.candidate? wire.exporter.id = some candidate →
      ⟨wire.package, wire.declared, none⟩ ∉ candidate.offers →
      Shows start draft wire

/-- A draft that comes from another one has its wires and re-exports only what may
be shown. -/
structure IsInStep (start draft : Draft) : Prop where
  wired : ∀ {id package}, start.IsWired id package →
    draft.IsWired id package
  shows : ∀ {id candidate package declared exporter},
    draft.candidate? id = some candidate →
      ⟨package, declared, some exporter⟩ ∈ candidate.offers →
        Shows start draft ⟨package, declared, exporter⟩

/-- What a bundle shows is its own, or it re-exports it. -/
theorem IsInStep.shows_of_offeredBy
    {start draft : Draft} (inStep : IsInStep start draft)
    {provider : Generation} {wire : Wire}
    (offered : wire ∈ draft.offeredBy provider) :
    Shows start draft wire := by
  unfold offeredBy at offered
  split at offered
  · rename_i candidate found
    obtain ⟨⟨package, declared, source⟩, member, rfl⟩ :=
      List.mem_map.1 offered
    cases source with
    | none => exact .exports ⟨candidate, found, member⟩
    | some exporter => exact inStep.shows found member
  · rename_i missing
    obtain ⟨offer, member, rfl⟩ := List.mem_map.1 offered
    have own := (Generation.mem_offers member).2.2
    refine .absent ?_
    simp only [Offer.toWire, Offer.exporter, own]
    exact missing

theorem IsInStep.shows_of_visible
    {start draft : Draft} (inStep : IsInStep start draft)
    {provider : Generation} {wire : Wire}
    (visible : wire ∈ draft.visible provider) :
    Shows start draft wire := by
  obtain ⟨other, _, offered⟩ :=
    List.mem_flatMap.1 (mem_firstOfEach visible)
  exact inStep.shows_of_offeredBy offered

/-- In a first draft, whatever is re-exported may be shown. -/
theorem isInStep_refl (draft : Draft) : IsInStep draft draft := by
  refine ⟨fun wired => wired, ?_⟩
  intro id candidate package declared exporter found member
  cases source : draft.candidate? exporter.id with
  | none => exact .absent source
  | some origin =>
      by_cases own : ⟨package, declared, none⟩ ∈ origin.offers
      · exact .exports ⟨origin, source, own⟩
      · exact .outdated ⟨candidate, mem_of_candidate? found, member⟩ source
          own

end Draft

namespace Search

variable {search : Search}

/-- Wires stay. -/
theorem Evolution.wired
    {draft after : Draft} {earlier candidate : Candidate} {package : String}
    (evolution : Evolution search draft after earlier candidate)
    (wired : earlier.wirings.contains package = true) :
    candidate.wirings.contains package = true := by
  cases evolution with
  | keep => exact wired
  | @opening _ base new _ opens taken _ _ _ =>
      change new.wirings.contains package = true
      rw [taken.wirings]
      cases opens <;> exact wired
  | @deciding bound new step =>
      change bound.wirings.contains package = true at wired
      cases step with
      | leaveRequire _ _ _ => exact wired
      | provide _ _ _ _ _ _ => exact wired
      | leaveImport _ _ _ => exact wired
      | @wire _ requirement _ choice _ _ _ _ _ _ _ =>
          change (Table.insert bound.wirings requirement.package
            _).contains package = true
          unfold Table.contains at wired ⊢
          rw [Table.find?_insert]
          split
          · rfl
          · exact wired

/-- An offer stays, unless its package is wired. -/
theorem Evolution.mem_offers
    {draft after : Draft} {earlier candidate : Candidate} {offer : Offer}
    (evolution : Evolution search draft after earlier candidate)
    (offered : offer ∈ earlier.offers) :
    offer ∈ candidate.offers ∨
      earlier.wirings.contains offer.package = false ∧
        candidate.wirings.contains offer.package = true := by
  cases evolution with
  | keep => exact .inl offered
  | @opening _ base new _ opens taken _ _ _ =>
      left
      change offer ∈ new.offers
      rw [taken.offers]
      refine List.mem_append_left _ ?_
      cases opens <;> exact offered
  | @deciding bound new step =>
      change offer ∈ bound.offers at offered
      cases step with
      | leaveRequire _ _ _ => exact .inl offered
      | leaveImport _ _ _ => exact .inl offered
      | provide _ _ _ _ _ _ =>
          left
          change offer ∈ BoundModule.offers _
          obtain ⟨added, same, _⟩ := BoundModule.exists_offers_addProvision
            { bound with requires := _ } _ _
          rw [same]
          exact List.mem_append_left _ offered
      | @wire _ requirement _ choice _ _ unwired _ _ _ _ =>
          by_cases same : offer.package = requirement.package
          · right
            change Table.contains bound.wirings offer.package = false ∧
              (Table.insert bound.wirings requirement.package _).contains
                offer.package = true
            unfold Table.contains
            rw [Table.find?_insert, same, unwired, if_pos rfl]
            exact ⟨rfl, rfl⟩
          · exact .inl (List.mem_filter.2 ⟨offered, by simpa using same⟩)

/-- A candidate re-exports what it did before, or what is visible through a
provider that has been chosen for it. -/
theorem Evolution.mem_offers_of_source
    {draft after : Draft} {earlier candidate : Candidate} {offer : Offer}
    (evolution : Evolution search draft after earlier candidate)
    (offered : offer ∈ candidate.offers) (foreign : offer.source ≠ none) :
    offer ∈ earlier.offers ∨
      ∃ provider, ∃ wire ∈ draft.visible provider,
        offer = ⟨wire.package, wire.declared, some wire.exporter⟩ := by
  cases evolution with
  | keep => exact .inl offered
  | @opening _ base new joined opens taken _ _ _ =>
      left
      change offer ∈ new.offers at offered
      rw [taken.offers] at offered
      rcases List.mem_append.1 offered with old | own
      · cases opens <;> exact old
      · obtain ⟨fragment, _, declared⟩ := List.mem_flatMap.1 own
        exact absurd (Generation.mem_offers declared).2.2 foreign
  | @deciding bound new step =>
      cases step with
      | leaveRequire _ _ _ => exact .inl offered
      | leaveImport _ _ _ => exact .inl offered
      | wire _ _ _ _ _ _ _ => exact .inl (List.mem_filter.1 offered).1
      | @provide middle _ require rest provider _ _ _ _ engaged _ =>
          rcases BoundModule.mem_offers_addProvision offered with
            old | ⟨wire, visible, isOffer⟩
          · exact .inl old
          · split at visible
            · rw [engaged.visible] at visible
              exact .inr ⟨provider, wire, visible, isOffer⟩
            · cases visible

variable {node result : Node}

theorem isWired_of_decision
    (scheduled : Scheduled node) (decision : Decision search node result)
    {id : GenerationId} {package : String}
    (wired : node.draft.IsWired id package) :
    result.draft.IsWired id package := by
  obtain ⟨candidate, found, held⟩ := wired
  obtain ⟨later, laterFound, evolution⟩ :=
    exists_later_candidate scheduled decision found
  exact ⟨later, laterFound, evolution.wired held⟩

/-- What may be shown may be shown after a decision as well. -/
theorem shows_of_decision
    {start : Draft} (scheduled : Scheduled node)
    (decision : Decision search node result)
    (inStep : start.IsInStep node.draft)
    {wire : Wire} (shows : start.Shows node.draft wire) :
    start.Shows result.draft wire := by
  cases shows with
  | exports exported =>
      obtain ⟨candidate, found, offered⟩ := exported
      obtain ⟨later, laterFound, evolution⟩ :=
        exists_later_candidate scheduled decision found
      rcases evolution.mem_offers offered with kept | ⟨unwired, isWired⟩
      · exact .exports ⟨later, laterFound, kept⟩
      · refine .superseded ⟨later, laterFound, isWired⟩ ?_
        intro before
        obtain ⟨same, sameFound, held⟩ := inStep.wired before
        rw [found] at sameFound
        cases sameFound
        rw [held] at unwired
        cases unwired
  | absent missing =>
      exact .absent
        ((candidate?_eq_none_iff scheduled decision _).2 missing)
  | superseded isWired unwired =>
      exact .superseded (isWired_of_decision scheduled decision isWired)
        unwired
  | outdated reexported found unexported =>
      exact .outdated reexported found unexported

theorem isInStep_of_decision
    {start : Draft} (scheduled : Scheduled node)
    (decision : Decision search node result)
    (inStep : start.IsInStep node.draft) :
    start.IsInStep result.draft := by
  refine ⟨fun wired =>
    isWired_of_decision scheduled decision (inStep.wired wired), ?_⟩
  intro id candidate package declared exporter found offered
  obtain ⟨earlier, old, evolution⟩ :=
    exists_evolution scheduled decision found
  refine shows_of_decision scheduled decision inStep ?_
  rcases evolution.mem_offers_of_source offered (by simp) with
    before | ⟨provider, wire, visible, isOffer⟩
  · exact inStep.shows old before
  · cases isOffer
    exact inStep.shows_of_visible visible

/-- Along every line of play, copies are in step with their sources. -/
theorem isInStep_of_line
    {final : Node} (line : search.problem.Line node final)
    (scheduled : Scheduled node) :
    node.draft.IsInStep final.draft :=
  invariant_of_line line scheduled node.draft.isInStep_refl
    fun _ before decision inStep =>
      isInStep_of_decision before decision inStep

end Search

/-- What may be asked of a wire that is visible through a required bundle, so that
its exporter offers the export. -/
inductive Circumstance where
  | present
  | unsuperseded
  | inStep
  deriving DecidableEq, Inhabited

instance : Fintype Circumstance :=
  .ofList [.present, .unsuperseded, .inStep]
    (by rintro (_ | _ | _) <;> decide)

/-- The exporter takes part in the search, it has not been wired for the package by
the search, and it offered the export at first if that was re-exported by then. -/
def Draft.Admits (start final : Draft) (wire : Wire) :
    Circumstance → Prop
  | .present => (final.candidate? wire.exporter.id).isSome = true
  | .unsuperseded =>
      final.IsWired wire.exporter.id wire.package →
        start.IsWired wire.exporter.id wire.package
  | .inStep =>
      start.Reexports wire →
        ∀ candidate ∈ start.candidate? wire.exporter.id,
          ⟨wire.package, wire.declared, none⟩ ∈ candidate.offers

theorem Draft.Shows.exports_of_admits
    {start final : Draft} {wire : Wire} (shows : start.Shows final wire)
    (admits : ∀ circumstance, start.Admits final wire circumstance) :
    final.Exports wire := by
  cases shows with
  | exports exported => exact exported
  | absent missing =>
      have present := admits .present
      simp only [Draft.Admits, missing] at present
      cases present
  | superseded isWired unwired =>
      exact absurd (admits .unsuperseded isWired) unwired
  | outdated reexported found unexported =>
      exact absurd (admits .inStep reexported _ found) unexported

/-- What an answer lists as visible through a required bundle is offered by its
exporter, under the circumstances. -/
theorem Resolver.visible_exported
    {resolver : Resolver} {store : Store} {target : Generation}
    {answer : List Solution}
    (solved : resolver.resolve store target = .ok answer) :
    ∃ start final, Draft.initial store (resolver.canonical store) target =
        .ok start ∧
      (resolver.attempt store target).result = .ok final ∧
      final.solutions = answer ∧
      ∀ solution ∈ answer, ∀ required ∈ solution.required,
        ∀ wire ∈ required.wires,
          (∀ circumstance, start.Admits final wire circumstance) →
            final.Exports wire := by
  obtain ⟨final, result, rfl⟩ := exists_of_solutions solved
  obtain ⟨framework, start, _, begun, run⟩ := exists_run_of_attempt result
  refine ⟨start, final, begun, result, rfl, ?_⟩
  intro solution member required listed wire visible admits
  obtain ⟨_, _, bound, _, rfl⟩ := Draft.exists_of_mem_solutions member
  obtain ⟨provision, _, rfl⟩ := List.mem_map.1 listed
  have inStep := Search.isInStep_of_line run.line run.scheduled
  exact (inStep.shows_of_visible visible).exports_of_admits admits

instance Draft.decidableExports (draft : Draft) (wire : Wire) :
    Decidable (draft.Exports wire) :=
  inferInstanceAs (Decidable (∃ _ ∈ _, _))

instance Draft.decidableReexports (draft : Draft) (wire : Wire) :
    Decidable (draft.Reexports wire) :=
  inferInstanceAs (Decidable (∃ _ ∈ _, _))

instance Draft.decidableIsWired (draft : Draft) (id : GenerationId)
    (package : String) :
    Decidable (draft.IsWired id package) :=
  inferInstanceAs (Decidable (∃ _ ∈ _, _))

instance Draft.decidableAdmits (start final : Draft) (wire : Wire) :
    (circumstance : Circumstance) →
      Decidable (start.Admits final wire circumstance)
  | .present => inferInstanceAs (Decidable (_ = true))
  | .unsuperseded => inferInstanceAs (Decidable (_ → _))
  | .inStep => inferInstanceAs (Decidable (_ → ∀ _ ∈ _, _))

namespace Sample

/-- A bundle that re-exports another one. -/
def facade (of : String) : Manifest :=
  { bundle "r" [] [] with
    requires := [{ need of 1 with visibility := .reexport }] }

/-- A bundle that requires the facade. -/
def visitor : Manifest :=
  { bundle "t" [] [] with requires := [need "r" 1] }

/-- The world of the two and the bundle that is re-exported. -/
def fronted : World :=
  world [visitor, facade "y", exporter]

end Sample

/-- What a bundle sees through a facade is offered by the exporter. -/
theorem Resolver.fronted_visible_exported :
    ∃ answer final, Sample.fronted.resolver.resolve Sample.fronted.store
        (Sample.generation 0 Sample.visitor) = .ok answer ∧
      (Sample.fronted.resolver.attempt Sample.fronted.store
        (Sample.generation 0 Sample.visitor)).result = .ok final ∧
      ∃ solution ∈ answer, ∃ required ∈ solution.required,
        ∃ wire ∈ required.wires, final.Exports wire := by
  let wire : Wire :=
    ⟨"p", Sample.offer "p" 1, Sample.generation 2 Sample.exporter⟩
  let required : RequiredWire :=
    ⟨Sample.need "r" 1, Sample.generation 1 (Sample.facade "y"), false,
      [wire]⟩
  let solution : Solution :=
    ⟨Sample.generation 0 Sample.visitor, [], [], [required]⟩
  have facts : (Sample.fronted.resolver.resolve Sample.fronted.store
      (Sample.generation 0 Sample.visitor)).toOption.any
        (solution ∈ ·) = true := by decide +kernel
  obtain ⟨answer, found, member⟩ := (Option.any_eq_true _ _).1 facts
  have solved := Search.eq_ok_of_toOption found
  obtain ⟨start, final, begun, result, _, exported⟩ :=
    Resolver.visible_exported solved
  have admitted : ((Draft.initial Sample.fronted.store
      (Sample.fronted.resolver.canonical Sample.fronted.store)
        (Sample.generation 0 Sample.visitor)).toOption.all fun start =>
      (Sample.fronted.resolver.attempt Sample.fronted.store
        (Sample.generation 0 Sample.visitor)).result.toOption.all fun final =>
          decide (∀ circumstance,
            start.Admits final wire circumstance)) = true := by
    decide +kernel
  rw [begun, result] at admitted
  exact ⟨answer, final, solved, result, solution, of_decide_eq_true member,
    required, List.mem_cons_self, wire, List.mem_cons_self,
    exported solution (of_decide_eq_true member) required
      List.mem_cons_self wire List.mem_cons_self
      (of_decide_eq_true admitted)⟩

/-! ## No circumstance can be left out -/

/-- A wire that is visible through a required bundle, according to an answer. -/
structure Sighting where
  world : World
  target : Generation
  start : Draft
  final : Draft
  wire : Wire

/-- A solution lists the wire in an answer that is given in a reachable world. -/
structure Sighting.Arises (sighting : Sighting) : Prop where
  reachable : sighting.world.Reachable
  made : sighting.target ∈ sighting.world.made
  begun : Draft.initial sighting.world.store
    (sighting.world.resolver.canonical sighting.world.store)
      sighting.target = .ok sighting.start
  attempted : (sighting.world.resolver.attempt sighting.world.store
    sighting.target).result = .ok sighting.final
  visible : ∃ solution ∈ sighting.final.solutions,
    ∃ required ∈ solution.required, sighting.wire ∈ required.wires

/-- Under the circumstances, the exporters of visible wires offer the exports. -/
def Circumstance.rule : Rule Circumstance Sighting where
  Arises := Sighting.Arises
  Meets sighting := sighting.start.Admits sighting.final sighting.wire
  Holds sighting := sighting.final.Exports sighting.wire

/-- A solution lists a wire under the circumstances that are asked for although its
exporter does not offer the export. -/
def Draft.Misleads (start final : Draft) (asked : Circumstance → Prop) :
    Prop :=
  ∃ solution ∈ final.solutions, ∃ required ∈ solution.required,
    ∃ wire ∈ required.wires,
      (∀ circumstance, asked circumstance →
        start.Admits final wire circumstance) ∧
      ¬ final.Exports wire

instance Draft.decidableMisleads (start final : Draft)
    (asked : Circumstance → Prop) [DecidablePred asked] :
    Decidable (start.Misleads final asked) :=
  inferInstanceAs (Decidable (∃ _ ∈ _, _))

theorem Circumstance.not_suffices_of_misleads
    {asked : Circumstance → Prop} [DecidablePred asked]
    (world : World) (target : Generation)
    (reachable : world.Reachable) (made : target ∈ world.made)
    (misleads : ((Draft.initial world.store
        (world.resolver.canonical world.store) target).toOption.any
      fun start => (world.resolver.attempt world.store
        target).result.toOption.any fun final =>
          decide (start.Misleads final asked)) = true) :
    ¬ rule.Suffices asked := by
  obtain ⟨start, begun, ends⟩ := (Option.any_eq_true _ _).1 misleads
  obtain ⟨final, found, shown⟩ := (Option.any_eq_true _ _).1 ends
  obtain ⟨solution, answered, required, listed, wire, visible, admits,
    unexported⟩ := of_decide_eq_true shown
  have arises : Sighting.Arises ⟨world, target, start, final, wire⟩ :=
    ⟨reachable, made, Search.eq_ok_of_toOption begun,
      Search.eq_ok_of_toOption found,
      ⟨solution, answered, required, listed, visible⟩⟩
  have breaks : rule.Breaks asked _ := ⟨arises, admits, unexported⟩
  exact breaks.not_suffices

namespace Sample

/-- The exporter that a facade was resolved with is not tracked any more. -/
def orphaned : World :=
  (((world [facade "y", exporter]).applying (generation 0 (facade "y"))
    fun _ => true).removing (generation 1 exporter)).installing
      (id 2, visitor)

/-- The re-exported bundle itself is wired for the package that it exports. -/
def substituting : World :=
  world [visitor, facade "y", bundle "y" [offer "p" 1] [wish "p" 2],
    bundle "z" [offer "p" 2] []]

/-- Only the facade of an answer is resolved, and the fragment that exported the
package is not tracked any more. -/
def dismembered : World :=
  (((world [facade "x", bundle "x" [] [],
      fragment "f" "x" [offer "p" 1] []]).applying
    (generation 0 (facade "x")) fun host => host.symbolicName = "r").removing
      (generation 2 (fragment "f" "x" [offer "p" 1] []))).installing
        (id 3, visitor)

end Sample

/-- What is visible through a required bundle is not always offered by its exporter,
nor is it when one of the circumstances is left out. -/
theorem Circumstance.each_asked_for : rule.NoneDispensable := by
  refine Rule.noneDispensable fun missing => ?_
  cases missing with
  | present =>
      refine not_suffices_of_misleads Sample.orphaned
        (Sample.generation 2 Sample.visitor) ?_ (by decide +kernel)
        (by decide +kernel)
      refine World.Reachable.installing ?_ (by decide +kernel)
        (by decide +kernel)
      refine World.Reachable.removing ?_ (by decide +kernel)
      exact (Sample.reachable_world _).applying (by decide +kernel) _
  | unsuperseded =>
      exact not_suffices_of_misleads Sample.substituting
        (Sample.generation 0 Sample.visitor) (Sample.reachable_world _)
        (by decide +kernel) (by decide +kernel)
  | inStep =>
      refine not_suffices_of_misleads Sample.dismembered
        (Sample.generation 3 Sample.visitor) ?_ (by decide +kernel)
        (by decide +kernel)
      refine World.Reachable.installing ?_ (by decide +kernel)
        (by decide +kernel)
      refine World.Reachable.removing ?_ (by decide +kernel)
      exact (Sample.reachable_world _).applying (by decide +kernel) _

end ModuleWiring
