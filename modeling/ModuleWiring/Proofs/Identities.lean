import ModuleWiring.Proofs.Provenance
import ModuleWiring.Proofs.Uses

/-!
# Identities and what they stand for

Wherever a search looks, it meets candidates and generations that the store
speaks of.  A candidate is known by its identity; a generation without one is
not, unless no other that the store speaks of shares its identity.
-/

namespace ModuleWiring

/-- The generations that a solution leads to. -/
def Solution.exporters (solution : Solution) : List Generation :=
  solution.wires.map Wire.exporter ++
    solution.required.flatMap fun required =>
      required.exporter :: required.wires.map Wire.exporter

namespace Store

/-- The generations that the wirings of a store lead to. -/
def exporters (store : Store) : List Generation :=
  store.solutions.flatMap Solution.exporters

variable {store : Store} {generation : Generation}

theorem exporter_mem_of_wires
    {wire : Wire} (member : wire ∈ store.wires generation) :
    wire.exporter ∈ store.exporters := by
  rcases store.wires_sublist generation with none | ⟨solution, listed, kept⟩
  · rw [none] at member
    cases member
  · exact List.mem_flatMap.2 ⟨solution, listed,
      List.mem_append_left _ (List.mem_map_of_mem (kept.subset member))⟩

theorem exporters_mem_of_requiredWires
    {required : RequiredWire}
    (member : required ∈ store.requiredWires generation) :
    required.exporter ∈ store.exporters ∧
      ∀ wire ∈ required.wires, wire.exporter ∈ store.exporters := by
  unfold requiredWires at member
  split at member
  · cases member
  · rename_i left wired
    obtain ⟨solution, listed, kept⟩ := exists_of_wiring? wired
    unfold Solution.restrict at kept
    split at kept
    · cases kept
      obtain ⟨whole, wholeMember, rfl⟩ := List.mem_map.1 member
      have wholeListed := (List.mem_filter.1 wholeMember).1
      have inside : ∀ exporter ∈ whole.exporter ::
          whole.wires.map Wire.exporter, exporter ∈ store.exporters :=
        fun exporter here => List.mem_flatMap.2 ⟨solution, listed,
          List.mem_append_right _
            (List.mem_flatMap.2 ⟨whole, wholeListed, here⟩)⟩
      refine ⟨inside _ List.mem_cons_self, ?_⟩
      intro wire wireMember
      exact inside _ (List.mem_cons_of_mem _
        (List.mem_map_of_mem (List.mem_filter.1 wireMember).1))
    · cases kept

/-- The wirings that stand lead to nothing but what is known. -/
structure LeadsTo (store : Store) (known : Generation → Prop) : Prop where
  wires : ∀ {generation wire}, wire ∈ store.wires generation →
    known wire.exporter
  required : ∀ {generation required},
    required ∈ store.requiredWires generation →
      known required.exporter ∧ ∀ wire ∈ required.wires, known wire.exporter

theorem leadsTo_of_exporters
    {known : Generation → Prop}
    (stored : ∀ exporter ∈ store.exporters, known exporter) :
    store.LeadsTo known :=
  ⟨fun member => stored _ (exporter_mem_of_wires member),
    fun member =>
      ⟨stored _ (exporters_mem_of_requiredWires member).1,
        fun wire listed =>
          stored _ ((exporters_mem_of_requiredWires member).2 wire listed)⟩⟩

end Store

/-- What is left of a solution mentions nothing new. -/
theorem Solution.mem_mentioned_of_restrict
    {solution left : Solution} {present : Generation → Bool}
    (kept : solution.restrict present = some left) {generation : Generation}
    (member : generation ∈ left.mentioned) :
    generation ∈ solution.mentioned := by
  unfold restrict at kept
  split at kept
  · cases kept
    simp only [mentioned, members, List.mem_append, List.mem_cons,
      List.mem_map, List.mem_flatMap] at member ⊢
    rcases member with ((isHost | fragment) | ⟨wire, listed, rfl⟩) | required
    · exact .inl (.inl (.inl isHost))
    · exact .inl (.inl (.inr (List.mem_filter.1 fragment).1))
    · exact .inl (.inr ⟨wire, (List.mem_filter.1 listed).1, rfl⟩)
    · obtain ⟨_, ⟨whole, listed, rfl⟩, isExporter | ⟨wire, inner, rfl⟩⟩ :=
        required
      · exact .inr ⟨whole, (List.mem_filter.1 listed).1, .inl isExporter⟩
      · exact .inr ⟨whole, (List.mem_filter.1 listed).1,
          .inr ⟨wire, (List.mem_filter.1 inner).1, rfl⟩⟩
  · cases kept

namespace Store

variable {store : Store} {known : Generation → Prop}

/-- The wirings that stand mention nothing else than those that were applied. -/
theorem forall_mentioned
    (applied : ∀ solution ∈ store.solutions,
      ∀ generation ∈ solution.mentioned, known generation)
    {generation : Generation} {solution : Solution}
    (wired : store.wiring? generation = some solution) :
    ∀ other ∈ solution.mentioned, known other := by
  intro other member
  obtain ⟨whole, listed, kept⟩ := exists_of_wiring? wired
  exact applied whole listed other
    (Solution.mem_mentioned_of_restrict kept member)

/-- Wirings lead to nothing that they do not mention. -/
theorem leadsTo_of_wiring?
    (mentioned : ∀ {generation solution},
      store.wiring? generation = some solution →
        ∀ other ∈ solution.mentioned, known other) :
    store.LeadsTo known := by
  refine ⟨?_, ?_⟩
  · intro generation wire member
    unfold wires at member
    split at member
    · cases member
    · rename_i solution wired
      refine mentioned wired _ (List.mem_append_left _ ?_)
      exact List.mem_append_right _ (List.mem_map_of_mem member)
  · intro generation required member
    unfold requiredWires at member
    split at member
    · cases member
    · rename_i solution wired
      have inside : ∀ other ∈ required.exporter ::
          required.wires.map Wire.exporter, known other :=
        fun other here => mentioned wired other
          (List.mem_append_right _ (List.mem_flatMap.2
            ⟨required, member, here⟩))
      exact ⟨inside _ List.mem_cons_self, fun wire listed =>
        inside _ (List.mem_cons_of_mem _ (List.mem_map_of_mem listed))⟩

end Store

namespace Draft

variable {draft result : Draft}

theorem mem_firstOfEach
    {wires : List Wire} {wire : Wire} (member : wire ∈ firstOfEach wires) :
    wire ∈ wires := by
  induction wires with
  | nil => cases member
  | cons first rest inductionHypothesis =>
      rcases List.mem_cons.1 member with rfl | later
      · exact List.mem_cons_self
      · exact List.mem_cons_of_mem _
          (inductionHypothesis (List.mem_filter.1 later).1)

/-- What is visible through a provider depends only on the bundles that are reached
from it. -/
theorem visible_congr
    {left right : Draft} {provider : Generation}
    (reexported : ∀ other ∈ left.reached provider,
      left.reexportedBy other = right.reexportedBy other)
    (offered : ∀ other ∈ left.reached provider,
      left.offeredBy other = right.offeredBy other) :
    left.reached provider = right.reached provider ∧
      left.visible provider = right.visible provider := by
  have reached : left.reached provider = right.reached provider :=
    Network.walk_congr rfl reexported
  refine ⟨reached, ?_⟩
  unfold Draft.visible
  rw [← reached, List.flatMap_def, List.flatMap_def,
    List.map_congr_left offered]

/-- A bundle shows what it showed, whether or not it has been engaged. -/
theorem shows_eq_of_engaged
    {generation : Generation} (store : result.store = draft.store)
    (same : result.candidate? generation.id = draft.candidate? generation.id ∨
      ∃ installed,
        draft.candidate? generation.id = some (.unresolved installed) ∧
          result.candidate? generation.id = some (.bound (.of installed))) :
    result.reexportedBy generation = draft.reexportedBy generation ∧
      result.offeredBy generation = draft.offeredBy generation := by
  unfold reexportedBy offeredBy
  rcases same with kept | ⟨installed, before, after⟩
  · rw [kept, store]
    exact ⟨rfl, rfl⟩
  · rw [before, after]
    exact ⟨rfl, rfl⟩

/-- What is visible through a provider does not change when a candidate is
engaged. -/
theorem Engaged.visible
    {id : GenerationId} (engaged : draft.Engaged id result)
    (provider : Generation) :
    result.visible provider = draft.visible provider := by
  have same : ∀ generation,
      result.reexportedBy generation = draft.reexportedBy generation ∧
        result.offeredBy generation = draft.offeredBy generation := by
    intro generation
    refine shows_eq_of_engaged engaged.store ?_
    by_cases isEngaged : id = generation.id
    · exact isEngaged ▸ engaged.candidate?_self
    · exact .inl (engaged.candidate?_of_ne isEngaged)
  exact (visible_congr (fun other _ => (same other).1)
    fun other _ => (same other).2).2

end Draft

/-- All that a candidate leads to is known. -/
structure Candidate.LeadsTo (known : Generation → Prop)
    (candidate : Candidate) : Prop where
  isKnown : known candidate.generation
  keyed : candidate.wirings.IsKeyed
  wires : ∀ wire ∈ candidate.wirings.values, known wire.exporter
  sources : ∀ offer ∈ candidate.offers, ∀ source,
    offer.source = some source → known source
  required : ∀ provision ∈ candidate.required, known provision.provider

variable {known : Generation → Prop} {store : Store}

namespace Candidate

theorem leadsTo_of_fresh
    {candidate : Candidate} (isKnown : known candidate.generation)
    (wirings : candidate.wirings = ∅)
    (offers : candidate.offers = candidate.generation.offers)
    (required : candidate.required = []) :
    candidate.LeadsTo known := by
  refine ⟨isKnown, ?_, ?_, ?_, ?_⟩
  · rw [wirings]
    exact Wirings.isKeyed_empty
  · intro wire member
    rw [wirings] at member
    cases member
  · intro offer member source isSource
    rw [offers] at member
    rw [(Generation.mem_offers member).2.2] at isSource
    cases isSource
  · rw [required]
    simp

theorem source_known_of_resolved
    {generation source : Generation} {offer : Offer}
    (stored : store.LeadsTo known)
    (member : offer ∈ (ResolvedModule.of store generation).offers)
    (isSource : offer.source = some source) :
    known source := by
  have folded : ∀ (required : List RequiredWire) (offers : List Offer),
      (∀ wire ∈ required, wire ∈ store.requiredWires generation) →
        (∀ offer ∈ offers, ∀ source, offer.source = some source →
          known source) →
          ∀ offer ∈ required.foldl
            (fun offers wire => reexport offers wire.wires) offers,
            ∀ source, offer.source = some source → known source := by
    intro required
    induction required with
    | nil => exact fun offers _ held => held
    | cons first rest inductionHypothesis =>
        intro offers listed held
        refine inductionHypothesis _
          (fun wire later => listed wire (List.mem_cons_of_mem _ later)) ?_
        intro offer member source isSource
        rcases mem_reexport member with old | ⟨wire, visible, rfl⟩
        · exact held offer old source isSource
        · cases isSource
          exact (stored.required (listed first List.mem_cons_self)).2 wire
            visible
  refine folded _ _ (fun wire member => (List.mem_filter.1 member).1) ?_ _
    member source isSource
  intro own ownMember ownSource isOwnSource
  have none : own.source = none := by
    rcases List.mem_append.1 ownMember with mine | attached
    · exact (Generation.mem_offers mine).2.2
    · obtain ⟨fragment, _, offered⟩ := List.mem_flatMap.1 attached
      exact (Generation.mem_offers offered).2.2
  rw [none] at isOwnSource
  cases isOwnSource

theorem leadsTo_of_resolved
    {candidate : Candidate} {generation : Generation}
    (stored : store.LeadsTo known)
    (isKnown : known candidate.generation)
    (wirings : candidate.wirings = Wirings.ofList (store.wires generation))
    (offers : candidate.offers =
      (ResolvedModule.of store generation).offers)
    (required : candidate.required =
      (ResolvedModule.of store generation).required) :
    candidate.LeadsTo known := by
  refine ⟨isKnown, ?_, ?_, ?_, ?_⟩
  · rw [wirings]
    exact Wirings.isKeyed_ofList _
  · intro wire member
    rw [wirings] at member
    obtain ⟨package, found⟩ := Table.exists_of_mem_values member
    exact stored.wires (Wirings.mem_of_find?_ofList found)
  · intro offer member source isSource
    rw [offers] at member
    exact source_known_of_resolved stored member isSource
  · intro provision member
    rw [required] at member
    obtain ⟨wire, listed, rfl⟩ := List.mem_map.1 member
    exact (stored.required listed).1

theorem leadsTo_of_isGiven
    {candidate : Candidate}
    (stored : store.LeadsTo known)
    (isKnown : known candidate.generation)
    (given : candidate.IsGiven store) :
    candidate.LeadsTo known := by
  cases given with
  | unresolved _ => exact leadsTo_of_fresh isKnown rfl rfl rfl
  | resolved _ _ => exact leadsTo_of_resolved stored isKnown rfl rfl rfl
  | target _ _ => exact leadsTo_of_fresh isKnown rfl rfl rfl
  | reopened _ _ => exact leadsTo_of_resolved stored isKnown rfl rfl rfl

theorem LeadsTo.mono
    {candidate result : Candidate} (leads : candidate.LeadsTo known)
    (sameGeneration : result.generation = candidate.generation)
    (wirings : result.wirings = candidate.wirings)
    (offers : ∀ offer ∈ result.offers, ∀ source,
      offer.source = some source → offer ∈ candidate.offers)
    (required : result.required = candidate.required) :
    result.LeadsTo known := by
  refine ⟨sameGeneration ▸ leads.isKnown, wirings ▸ leads.keyed,
    wirings ▸ leads.wires, ?_, required ▸ leads.required⟩
  intro offer member source isSource
  exact leads.sources offer (offers offer member source isSource) source
    isSource

theorem LeadsTo.takesOn
    {base new : BoundModule} {joined : List Generation}
    (leads : (Candidate.bound base).LeadsTo known)
    (taken : base.TakesOn joined new) :
    (Candidate.bound new).LeadsTo known := by
  refine leads.mono taken.host taken.wirings ?_ taken.required
  intro offer member source isSource
  change offer ∈ new.offers at member
  rw [taken.offers] at member
  rcases List.mem_append.1 member with old | added
  · exact old
  · obtain ⟨fragment, _, offered⟩ := List.mem_flatMap.1 added
    rw [(Generation.mem_offers offered).2.2] at isSource
    cases isSource

end Candidate

namespace Draft

variable {draft : Draft}

/-- What is visible through a known provider leads to known exporters. -/
theorem known_of_mem_visible
    (stored : draft.store.LeadsTo known)
    (leads : ∀ {id candidate}, draft.candidate? id = some candidate →
      candidate.LeadsTo known)
    {provider : Generation} (isKnown : known provider) :
    ∀ wire ∈ draft.visible provider, known wire.exporter := by
  have reached : ∀ other ∈ draft.reached provider, known other := by
    intro other visited
    refine (Network.forall_mem_walk known ?_ ?_ other visited).1
    · intro node member
      rw [List.mem_singleton.1 member]
      exact isKnown
    · intro node _ nodeKnown _ successor onward
      change successor ∈ draft.reexportedBy node at onward
      unfold reexportedBy at onward
      split at onward
      · rename_i candidate found
        obtain ⟨provision, listed, rfl⟩ := List.mem_map.1 onward
        exact (leads found).required provision (List.mem_filter.1 listed).1
      · obtain ⟨wire, listed, rfl⟩ := List.mem_map.1 onward
        exact (stored.required (List.mem_filter.1 listed).1).1
  intro wire member
  obtain ⟨other, visited, offered⟩ :=
    List.mem_flatMap.1 (mem_firstOfEach member)
  have otherKnown := reached other visited
  unfold offeredBy at offered
  split at offered
  · rename_i candidate found
    obtain ⟨offer, listed, rfl⟩ := List.mem_map.1 offered
    cases source : offer.source with
    | none =>
        change known (offer.exporter other)
        rw [Offer.exporter, source]
        exact otherKnown
    | some generation =>
        change known (offer.exporter other)
        rw [Offer.exporter, source]
        exact (leads found).sources offer listed generation source
  · obtain ⟨offer, listed, rfl⟩ := List.mem_map.1 offered
    change known (offer.exporter other)
    rw [Offer.exporter, (Generation.mem_offers listed).2.2]
    exact otherKnown

end Draft

namespace Search

variable {search : Search}

/-- No decision changes the store. -/
theorem store_of_decision
    {node result : Node} (scheduled : Scheduled node)
    (decision : Decision search node result) :
    result.draft.store = node.draft.store := by
  cases decision with
  | idle _ => rfl
  | attach resolving found _ offered done =>
      obtain ⟨_, _, _, _, attaches⟩ :=
        scheduled.exists_attaches resolving found offered done
      rw [attaches.same]
      rfl
  | bind resolving found notFragment chosen done =>
      obtain ⟨_, _, _, binds⟩ :=
        scheduled.exists_binds resolving found notFragment chosen done
      rw [binds.annotated]
      rfl
  | toImports _ _ => rfl
  | leaveRequire _ _ _ => rfl
  | provide _ _ _ _ engaged => exact engaged.store
  | leaveImport _ _ _ => rfl
  | wire _ _ _ _ _ _ engaged => exact engaged.store
  | settle through =>
      obtain ⟨_, _, resolving, found, _⟩ := scheduled.exists_of_settle through
      rw [scheduled.settle_eq resolving found]
      cases Draft.queue _ <;> rfl

/-- A run goes on with the store that it started with. -/
theorem store_of_line
    {node final : Node} (line : search.problem.Line node final)
    (scheduled : Scheduled node) :
    final.draft.store = node.draft.store := by
  induction line with
  | refl => rfl
  | tail before step inductionHypothesis =>
      have decided := store_of_decision (scheduled_of_line before scheduled)
        (decision_of_step step)
      exact decided.trans inductionHypothesis

theorem leadsTo_of_evolution
    {position result : Node} {earlier candidate : Candidate}
    (stored : position.draft.store.LeadsTo known)
    (everywhere : Everywhere (Candidate.LeadsTo known) position)
    (evolution : Evolution search position.draft result.draft earlier
      candidate)
    (leads : earlier.LeadsTo known) :
    candidate.LeadsTo known := by
  cases evolution with
  | keep => exact leads
  | opening opens taken _ _ _ =>
      refine Candidate.LeadsTo.takesOn ?_ taken
      cases opens with
      | reopen wired => exact leads.mono rfl rfl (fun _ member _ _ => member) rfl
      | fresh installed =>
          exact leads.mono rfl rfl (fun _ member _ _ => member) rfl
      | queued installed => exact leads
  | @deciding bound new step =>
      cases step with
      | leaveRequire _ _ _ =>
          exact leads.mono rfl rfl (fun _ member _ _ => member) rfl
      | leaveImport _ _ _ =>
          exact leads.mono rfl rfl (fun _ member _ _ => member) rfl
      | @provide middle _ require rest provider _ _ offered _ engaged _ =>
          obtain ⟨provided, _, _⟩ := mem_requireChoices offered
          obtain ⟨candidate, found, isProvider⟩ :=
            Option.map_eq_some_iff.1 provided
          have providerKnown : known provider :=
            isProvider ▸ (everywhere found).isKnown
          refine ⟨leads.isKnown, leads.keyed, leads.wires, ?_, ?_⟩
          · intro offer member source isSource
            rcases BoundModule.mem_offers_addProvision member with
              old | ⟨wire, visible, rfl⟩
            · exact leads.sources offer old source isSource
            · cases isSource
              split at visible
              · rw [engaged.visible] at visible
                exact Draft.known_of_mem_visible stored
                  (fun hit => everywhere hit) providerKnown wire visible
              · cases visible
          · intro provision member
            change provision ∈ bound.required ++ [⟨require, provider⟩] at member
            rcases List.mem_append.1 member with old | new
            · exact leads.required provision old
            · rw [List.mem_singleton.1 new]
              exact providerKnown
      | @wire _ requirement rest choice _ _ _ _ offered _ _ =>
          obtain ⟨candidate, found, isExporter, _⟩ :=
            exists_offer_of_mem_wireChoices offered
          have exporterKnown : known choice.exporter :=
            isExporter ▸ (everywhere found).isKnown
          have keyed := leads.keyed.insert
            ⟨requirement.package, choice.declared, choice.exporter⟩
          refine ⟨leads.isKnown, keyed, ?_, ?_, leads.required⟩
          · intro wire member
            obtain ⟨package, held⟩ := Table.exists_of_mem_values member
            change (Table.insert bound.wirings requirement.package _).find?
              package = some wire at held
            rw [Table.find?_insert] at held
            split at held
            · cases held
              exact exporterKnown
            · exact leads.wires wire (Table.mem_values_of_find? held)
          · intro offer member source isSource
            exact leads.sources offer (List.mem_filter.1 member).1 source
              isSource

theorem leadsTo_of_decision
    {node result : Node} (scheduled : Scheduled node)
    (decision : Decision search node result)
    (stored : node.draft.store.LeadsTo known)
    (everywhere : Everywhere (Candidate.LeadsTo known) node) :
    Everywhere (Candidate.LeadsTo known) result := by
  intro id candidate found
  obtain ⟨earlier, old, evolution⟩ :=
    exists_evolution scheduled decision found
  exact leadsTo_of_evolution stored everywhere evolution (everywhere old)

theorem leadsTo_of_line
    {node final : Node} (line : search.problem.Line node final)
    (scheduled : Scheduled node)
    (stored : node.draft.store.LeadsTo known)
    (initial : Everywhere (Candidate.LeadsTo known) node) :
    Everywhere (Candidate.LeadsTo known) final := by
  refine invariant_of_line line scheduled initial ?_
  intro position result before isScheduled decision everywhere
  refine leadsTo_of_decision isScheduled decision ?_ everywhere
  rw [store_of_line before scheduled]
  exact stored

end Search

namespace Draft

variable {draft : Draft}

/-- No two known generations without a candidate share an identity. -/
def Distinguishes (draft : Draft) (known : Generation → Prop) : Prop :=
  ∀ left right, known left → known right → left.id = right.id →
    draft.candidate? left.id = none → left = right

/-- What a view stands for is a wire of its owner or an offer of it. -/
theorem target?_cases
    {view : View} {wire : Wire} (found : draft.target? view = some wire) :
    (∃ candidate, draft.candidate? view.owner.id = some candidate ∧
      (candidate.wirings.find? view.package = some wire ∨
        ∃ offer ∈ candidate.offers, offer.package = view.package ∧
          wire = offer.toWire view.owner)) ∨
    (wire ∈ draft.store.wires view.owner ∧ wire.package = view.package) ∨
      ∃ offer ∈ view.owner.offers, offer.package = view.package ∧
        wire = offer.toWire view.owner := by
  have offered : ∀ {offers : List Offer},
      (offers.find? (·.package = view.package)).map (·.toWire view.owner) =
        some wire →
      ∃ offer ∈ offers, offer.package = view.package ∧
        wire = offer.toWire view.owner := by
    intro offers mapped
    obtain ⟨offer, first, made⟩ := Option.map_eq_some_iff.1 mapped
    exact ⟨offer, List.mem_of_find?_eq_some first,
      by simpa using List.find?_some first, made.symm⟩
  unfold target? at found
  split at found
  · rename_i candidate hit
    left
    refine ⟨candidate, hit, ?_⟩
    split at found
    · rename_i own held
      cases found
      exact .inl held
    · exact .inr (offered found)
  · right
    split at found
    · rename_i own held
      cases found
      exact .inl ⟨List.mem_of_find?_eq_some held,
        by simpa using List.find?_some held⟩
    · exact .inr (offered found)

theorem known_of_target?
    (stored : draft.store.LeadsTo known)
    (leads : ∀ {id candidate}, draft.candidate? id = some candidate →
      candidate.LeadsTo known)
    {view : View} {wire : Wire} (isKnown : known view.owner)
    (found : draft.target? view = some wire) :
    known wire.exporter := by
  rcases target?_cases found with ⟨candidate, hit, held | offered⟩ |
    ⟨member, _⟩ | ⟨offer, member, _, rfl⟩
  · exact (leads hit).wires wire (Table.mem_values_of_find? held)
  · obtain ⟨offer, member, _, rfl⟩ := offered
    change known (offer.exporter view.owner)
    unfold Offer.exporter
    cases source : offer.source with
    | none => exact isKnown
    | some generation => exact (leads hit).sources offer member _ source
  · exact stored.wires member
  · have source := (Generation.mem_offers member).2.2
    change known (offer.exporter view.owner)
    rw [Offer.exporter, source]
    exact isKnown

theorem package_of_target?
    (keyed : ∀ {id candidate}, draft.candidate? id = some candidate →
      candidate.wirings.IsKeyed)
    {view : View} {wire : Wire} (found : draft.target? view = some wire) :
    wire.package = view.package := by
  rcases target?_cases found with ⟨candidate, hit, held | offered⟩ |
    ⟨_, package⟩ | ⟨offer, _, package, rfl⟩
  · exact keyed hit held
  · obtain ⟨offer, _, package, rfl⟩ := offered
    exact package
  · exact package
  · exact package

/-- Views of one candidate stand for the same, up to the generation that speaks
for it. -/
theorem target?_alike
    {left right : View} {candidate : Candidate}
    (found : draft.candidate? left.owner.id = some candidate)
    (same : left.key = right.key) :
    Option.Rel Wire.Alike (draft.target? left) (draft.target? right) := by
  obtain ⟨sameId, samePackage⟩ := Prod.mk.inj same
  have rightFound : draft.candidate? right.owner.id = some candidate :=
    sameId ▸ found
  simp only [target?, found, rightFound, samePackage]
  cases candidate.wirings.find? right.package with
  | some wire => exact .some (.refl wire)
  | none =>
      cases candidate.offer? right.package with
      | none => exact .none
      | some offer =>
          refine .some ⟨rfl, rfl, ?_⟩
          change (offer.exporter left.owner).id =
            (offer.exporter right.owner).id
          unfold Offer.exporter
          cases offer.source with
          | none => exact sameId
          | some source => rfl

theorem isCoherent_of_leadsTo
    (stored : draft.store.LeadsTo known)
    (leads : ∀ {id candidate}, draft.candidate? id = some candidate →
      candidate.LeadsTo known)
    (distinguishes : draft.Distinguishes known) :
    draft.IsCoherent known := by
  refine ⟨?_, known_of_target? stored leads,
    package_of_target? fun hit => (leads hit).keyed⟩
  intro left right leftKnown rightKnown same
  cases found : draft.candidate? left.owner.id with
  | some candidate => exact target?_alike found same
  | none =>
      obtain ⟨sameId, samePackage⟩ := Prod.mk.inj same
      have equality := distinguishes left.owner right.owner leftKnown
        rightKnown sameId found
      have sameView : left = right := by
        cases left
        cases right
        cases equality
        cases samePackage
        rfl
      rw [sameView]
      cases draft.target? right with
      | none => exact .none
      | some wire => exact .some (.refl wire)

end Draft

end ModuleWiring
