import ModuleWiring.Proofs.Application
import ModuleWiring.Proofs.Consistency

/-!
# What later searches see of an answer

A later search finds the fragments, the wires and the provisions of a module in the
store as the search has left them that answered.  It gathers the offers anew,
though, and those that have been superseded by wires are among them again.
-/

namespace ModuleWiring

/-- An offer that is no copy of another one. -/
def Offer.isOwn (offer : Offer) : Bool :=
  offer.source.isNone

theorem filter_isOwn_reexport (offers : List Offer) (visible : List Wire) :
    (reexport offers visible).filter Offer.isOwn =
      offers.filter Offer.isOwn := by
  obtain ⟨added, same, listed⟩ := exists_reexport_eq offers visible
  have copies : added.filter Offer.isOwn = [] := by
    rw [List.filter_eq_nil_iff]
    intro offer member
    obtain ⟨wire, _, rfl⟩ := listed offer member
    exact Bool.false_ne_true
  rw [same, List.filter_append, copies, List.append_nil]

/-- Re-exports are no offers of a module's own. -/
theorem filter_isOwn_foldl
    {α : Type} (visible : α → List Wire) (items : List α)
    (offers : List Offer) :
    (items.foldl (fun offers item => reexport offers (visible item))
      offers).filter Offer.isOwn = offers.filter Offer.isOwn := by
  induction items generalizing offers with
  | nil => rfl
  | cons first rest inductionHypothesis =>
      rw [List.foldl_cons, inductionHypothesis, filter_isOwn_reexport]

theorem filter_isOwn_flatMap (generations : List Generation) :
    (generations.flatMap Generation.offers).filter Offer.isOwn =
      generations.flatMap Generation.offers := by
  refine List.filter_eq_self.2 fun offer member => ?_
  obtain ⟨generation, _, offered⟩ := List.mem_flatMap.1 member
  simp [Offer.isOwn, (Generation.mem_offers offered).2.2]

theorem ResolvedModule.filter_isOwn_offers
    (store : Store) (generation : Generation) :
    (ResolvedModule.of store generation).offers.filter Offer.isOwn =
      (generation :: store.fragments generation).flatMap
        Generation.offers :=
  (filter_isOwn_foldl _ _ _).trans (filter_isOwn_flatMap
    (generation :: store.fragments generation))

namespace BoundModule

variable {bound : BoundModule} {draft other : Draft}

/-- What a module offers if it re-exports what a draft shows. -/
def gathered (draft : Draft) (bound : BoundModule) : List Offer :=
  (bound.required.filter (·.require.isReexport)).foldl
    (fun offers provision =>
      reexport offers (draft.visible provision.provider)) bound.ownOffers

/-- A bound module as later searches see it. -/
def asResolved (draft : Draft) (bound : BoundModule) : ResolvedModule where
  generation := bound.host
  fragments := bound.fragments
  offers := bound.gathered draft
  wirings := bound.wirings
  required := bound.required

theorem gathered_eq_ownOffers
    (draft : Draft) (alone : bound.required = []) :
    bound.gathered draft = bound.ownOffers := by
  unfold gathered
  rw [alone]
  rfl

theorem gathered_congr
    (visible : ∀ provision ∈ bound.required,
      provision.require.isReexport = true →
        draft.visible provision.provider =
          other.visible provision.provider) :
    bound.gathered draft = bound.gathered other := by
  refine List.foldl_ext _ _ _ fun offers provision member => ?_
  obtain ⟨listed, reexported⟩ := List.mem_filter.1 member
  rw [visible provision listed reexported]

/-- One more provision comes last. -/
theorem gathered_addProvision
    (draft : Draft) (provision : Provision) (visible : List Wire) :
    (bound.addProvision provision visible).gathered draft =
      if provision.require.isReexport then
        reexport (bound.gathered draft) (draft.visible provision.provider)
      else
        bound.gathered draft := by
  unfold gathered addProvision
  rw [List.filter_append, List.foldl_append]
  cases reexported : provision.require.isReexport <;>
    simp [reexported, ownOffers]

theorem filter_isOwn_gathered (draft : Draft) (bound : BoundModule) :
    (bound.gathered draft).filter Offer.isOwn = bound.ownOffers :=
  (filter_isOwn_foldl _ _ _).trans (filter_isOwn_flatMap _)

end BoundModule

/-- What the store has of a module when its solution has been applied. -/
theorem ResolvedModule.of_solutionOf
    {store : Store} {draft : Draft} {bound : BoundModule}
    (keyed : bound.wirings.IsKeyed)
    (wired : store.wiring? bound.host = some (draft.solutionOf bound)) :
    ResolvedModule.of store bound.host = bound.asResolved draft := by
  have provisions : (bound.required.map fun provision : Provision =>
      (⟨provision.require, provision.provider⟩ : Provision)) =
        bound.required :=
    List.map_id _
  unfold ResolvedModule.of Store.fragments Store.wires Store.requiredWires
  rw [wired]
  simp only [Draft.solutionOf, keyed.ofList_values, List.map_map,
    List.filter_map, List.foldl_map, Function.comp_def, provisions]
  rfl

namespace Draft

/-- All bound modules that a module shows through its own re-exports were settled
before it. -/
def IsGrounded (draft : Draft) (bound : BoundModule) : Prop :=
  ∀ provision ∈ bound.required, provision.require.isReexport = true →
    ∀ reached ∈ draft.reached provision.provider, ∀ module,
      draft.candidate? reached.id = some (.bound module) →
        draft.Precedes reached.id bound.host.id

/-- Newly bound modules offer what they gather, as far as it is not wired. -/
def IsGathered (draft : Draft) : Prop :=
  ∀ ⦃id bound⦄, draft.candidate? id = some (.bound bound) →
    (draft.store.state bound.host).isResolved = false →
      draft.IsGrounded bound →
        bound.offers = BoundModule.unwired bound.wirings
          (bound.gathered draft)

variable {draft result : Draft} {bound new : BoundModule}

theorem offers_eq_gathered_of_takesOn
    {installed : Generation} {joined : List Generation}
    (taken : (BoundModule.of installed).TakesOn joined new) (draft : Draft) :
    new.offers = BoundModule.unwired new.wirings (new.gathered draft) := by
  have none : ∀ package, new.wirings.find? package = none := by
    rw [taken.wirings]
    exact fun _ => rfl
  rw [BoundModule.unwired_of_forall none,
    BoundModule.gathered_eq_ownOffers draft taken.required]
  exact taken.offers_eq_ownOffers

namespace Replaces

variable {other earlier : BoundModule} {provider : Generation}
  (replaces : draft.Replaces result bound new)

include replaces

/-- The module in charge alone may show something else. -/
theorem visible_eq
    (apart : ∀ reached ∈ result.reached provider,
      bound.host.id ≠ reached.id) :
    result.reached provider = draft.reached provider ∧
      result.visible provider = draft.visible provider := by
  have same : ∀ reached ∈ result.reached provider,
      result.reexportedBy reached = draft.reexportedBy reached ∧
        result.offeredBy reached = draft.offeredBy reached :=
    fun reached member => shows_eq_of_engaged replaces.store
      (replaces.elsewhere _ (apart reached member))
  exact visible_congr (fun reached member => (same reached member).1)
    fun reached member => (same reached member).2

section

variable {phase : Phase} (scheduled : Search.Scheduled ⟨phase, draft⟩)
  (grounded : result.IsGrounded other)

include scheduled grounded

/-- No module was settled after the one in charge. -/
theorem apart_of_isGrounded
    {provision : Provision} (listed : provision ∈ other.required)
    (reexported : provision.require.isReexport = true) :
    ∀ reached ∈ result.reached provision.provider,
      bound.host.id ≠ reached.id := by
  intro reached member same
  have found : result.candidate? reached.id = some (.bound new) :=
    same ▸ replaces.here
  have precedes :=
    grounded provision listed reexported reached member new found
  have resolving : draft.resolving = some reached.id :=
    same ▸ replaces.resolving_eq
  exact not_precedes_of_resolving resolving
    (scheduled.not_settled_of_resolving resolving) _
    (replaces.precedes.1 precedes)

theorem gathered_eq : other.gathered result = other.gathered draft :=
  BoundModule.gathered_congr fun _ listed reexported =>
    (replaces.visible_eq (replaces.apart_of_isGrounded scheduled grounded
      listed reexported)).2

/-- A module that shows settled modules only did so before. -/
theorem isGrounded_of
    (host : earlier.host = other.host)
    (required : earlier.required ⊆ other.required) :
    draft.IsGrounded earlier := by
  intro provision listed reexported reached member module found
  have apart := replaces.apart_of_isGrounded scheduled grounded
    (required listed) reexported
  rw [← (replaces.visible_eq apart).1] at member
  have stays : result.candidate? reached.id = some (.bound module) := by
    rcases replaces.elsewhere _ (apart reached member) with
      same | ⟨installed, before, _⟩
    · exact same.trans found
    · rw [found] at before
      cases before
  rw [host]
  exact replaces.precedes.1 (grounded provision (required listed) reexported
    reached member module stays)

end

/-- A decision of the module in charge keeps what is gathered in step with the
offers, if it does so for that module. -/
theorem isGathered
    {phase : Phase} (scheduled : Search.Scheduled ⟨phase, draft⟩)
    (gathered : draft.IsGathered) (required : bound.required ⊆ new.required)
    (here : (draft.store.state bound.host).isResolved = false →
      bound.offers = BoundModule.unwired bound.wirings
        (bound.gathered draft) →
      new.offers = BoundModule.unwired new.wirings (new.gathered draft)) :
    result.IsGathered := by
  intro id other found unresolved grounded
  rw [replaces.store] at unresolved
  rw [replaces.gathered_eq scheduled grounded]
  by_cases inCharge : bound.host.id = id
  · subst inCharge
    rw [replaces.here] at found
    cases found
    rw [replaces.host] at unresolved
    exact here unresolved (gathered replaces.found unresolved
      (replaces.isGrounded_of scheduled grounded replaces.host.symm
        required))
  · rcases replaces.bound_of_ne inCharge found with old | ⟨installed, rfl⟩
    · exact gathered old unresolved (replaces.isGrounded_of scheduled
        grounded rfl (List.Subset.refl _))
    · exact offers_eq_gathered_of_takesOn (.nil _) draft

end Replaces

/-- A draft that only goes on to another module keeps what is gathered. -/
theorem IsGathered.proceed
    (gathered : draft.IsGathered)
    (candidates : ∀ id, result.candidate? id = draft.candidate? id)
    (store : result.store = draft.store)
    {more : List GenerationId} (order : result.order = draft.order ++ more)
    (distinct : result.order.Nodup)
    (begun : ∀ {id module}, draft.candidate? id = some (.bound module) →
      id ∈ draft.order ∨ ∃ installed, module = .of installed) :
    result.IsGathered := by
  have visible : ∀ provider,
      result.reached provider = draft.reached provider ∧
        result.visible provider = draft.visible provider := by
    intro provider
    have same := fun reached : Generation =>
      shows_eq_of_engaged store (.inl (candidates reached.id))
    exact visible_congr (fun reached _ => (same reached).1)
      fun reached _ => (same reached).2
  intro id bound found unresolved grounded
  rw [candidates] at found
  rw [store] at unresolved
  have sameGathered : bound.gathered result = bound.gathered draft :=
    BoundModule.gathered_congr fun provision _ _ =>
      (visible provision.provider).2
  rw [sameGathered]
  rcases begun found with inOrder | ⟨installed, rfl⟩
  · have sameId : bound.host.id = id := id_of_candidate? found
    refine gathered found unresolved ?_
    intro provision listed reexported reached member module isBound
    rw [← (visible provision.provider).1] at member
    exact precedes_of_append order distinct (sameId ▸ inOrder)
      (grounded provision listed reexported reached member module
        ((candidates _).trans isBound))
  · exact offers_eq_gathered_of_takesOn (.nil _) draft

end Draft

namespace Search

/-- What a search gathers is in step with the offers, and a newly bound module has
no wires before its imports are decided. -/
structure Gathers (node : Node) : Prop where
  offers : node.draft.IsGathered
  unwired : node.phase = .requires →
    ∀ bound, node.draft.resolvingBound? = some bound →
      (node.draft.store.state bound.host).isResolved = false →
        bound.wirings = ∅

variable {search : Search}

/-- A decision about a require of the module in charge. -/
theorem gathers_of_require
    {draft result : Draft} {bound new : BoundModule}
    (scheduled : Scheduled ⟨.requires, draft⟩)
    (gathers : Gathers ⟨.requires, draft⟩)
    (replaces : draft.Replaces result bound new)
    (required : bound.required ⊆ new.required)
    (wirings : new.wirings = bound.wirings)
    (offers : bound.wirings = ∅ → bound.offers = bound.gathered draft →
      new.offers = new.gathered draft) :
    Gathers ⟨.requires, result⟩ := by
  have unwired : (draft.store.state bound.host).isResolved = false →
      bound.wirings = ∅ := gathers.unwired rfl bound replaces.current
  constructor
  · refine replaces.isGathered scheduled gathers.offers required ?_
    intro unresolved before
    have empty := unwired unresolved
    have none : ∀ package, bound.wirings.find? package = none := by
      rw [empty]
      exact fun _ => rfl
    rw [BoundModule.unwired_of_forall none] at before
    rw [wirings, BoundModule.unwired_of_forall none]
    exact offers empty before
  · intro _ module current unresolved
    rw [replaces.resolvingBound?_eq] at current
    cases current
    rw [replaces.store, replaces.host] at unresolved
    rw [wirings]
    exact unwired unresolved

theorem gathers_of_attach
    {draft result : Draft} {fragment host : Generation}
    {candidate : Candidate} {base new : BoundModule}
    (untouched : draft.IsUntouched)
    (attaches : draft.Attaches result fragment host candidate base new)
    (resolved : ∀ wired, candidate = .resolved wired →
      (draft.store.state wired.generation).isResolved = true) :
    Gathers ⟨.requires, result⟩ := by
  have store : result.store = draft.store := by
    rw [attaches.same]
    rfl
  have here : result.candidate? host.id = some (.bound new) :=
    (attaches.candidate?_eq _).trans (if_pos rfl)
  -- A host that was not resolved before is fresh.
  have fresh : (draft.store.state new.host).isResolved = false →
      ∃ installed, (BoundModule.of installed).TakesOn [fragment] new := by
    intro unresolved
    have taken := attaches.taken
    have opened := attaches.opened
    have sameHost := attaches.host_eq
    cases opened with
    | fresh installed => exact ⟨installed, taken⟩
    | queued installed => exact ⟨installed, taken⟩
    | reopen wired =>
        rw [sameHost] at unresolved
        exact absurd (resolved wired rfl) (Bool.eq_false_iff.1 unresolved)
  constructor
  · intro id bound found unresolved _
    change result.candidate? id = some (.bound bound) at found
    change (result.store.state bound.host).isResolved = false at unresolved
    rw [attaches.candidate?_eq] at found
    split at found
    · cases found
      obtain ⟨installed, taken⟩ := fresh (store ▸ unresolved)
      exact Draft.offers_eq_gathered_of_takesOn taken result
    · exact absurd found (untouched id bound)
  · intro _ bound current unresolved
    change (result.store.state bound.host).isResolved = false at unresolved
    rw [Draft.resolvingBound?_eq_some attaches.resolving here] at current
    cases current
    obtain ⟨installed, taken⟩ := fresh (store ▸ unresolved)
    exact taken.wirings

theorem gathers_of_settle
    {phase : Phase} {draft : Draft} (scheduled : Scheduled ⟨phase, draft⟩)
    (after : Scheduled (settle draft)) {id : GenerationId}
    {bound : BoundModule} (resolving : draft.resolving = some id)
    (found : draft.candidate? id = some (.bound bound))
    (gathered : draft.IsGathered) :
    Gathers (settle draft) := by
  obtain ⟨more, order⟩ := exists_order_settle scheduled resolving found
  obtain ⟨candidates, store⟩ := settle_same scheduled resolving found
  constructor
  · refine gathered.proceed candidates store order (Draft.nodup_order after)
      ?_
    intro other module hit
    rcases scheduled.placed hit with settled | current | waiting
    · exact .inl (List.mem_append_left _ settled)
    · exact .inl (List.mem_append_right _ (Option.mem_toList.2 current))
    · obtain ⟨installed, fresh⟩ := scheduled.queued other waiting
      rw [hit] at fresh
      cases fresh
      exact .inr ⟨installed, rfl⟩
  · intro isRequires
    rw [scheduled.settle_eq resolving found] at isRequires
    cases queue : draft.queue <;> rw [queue] at isRequires <;>
      cases isRequires

/-- Every decision goes on to gather. -/
theorem gathers_of_decision
    {node result : Node} (scheduled : Scheduled node)
    (decision : Decision search node result)
    (resolved : ∀ {id wired},
      node.draft.candidate? id = some (.resolved wired) →
        (node.draft.store.state wired.generation).isResolved = true)
    (gathers : Gathers node) :
    Gathers result := by
  have after := scheduled_of_decision scheduled decision
  have goesOn : ∀ {bound new : BoundModule},
      node.draft.Replaces result.draft bound new →
        bound.required ⊆ new.required →
          ((node.draft.store.state bound.host).isResolved = false →
            bound.offers = BoundModule.unwired bound.wirings
              (bound.gathered node.draft) →
            new.offers = BoundModule.unwired new.wirings
              (new.gathered node.draft)) → result.draft.IsGathered :=
    fun replaces required here =>
      replaces.isGathered scheduled gathers.offers required here
  cases decision with
  | idle resolving =>
      refine ⟨gathers.offers, fun _ bound current => ?_⟩
      obtain ⟨id, isResolving, _⟩ := Draft.exists_of_resolvingBound? current
      rw [resolving] at isResolving
      cases isResolving
  | toImports _ _ => exact ⟨gathers.offers, fun phase => by cases phase⟩
  | attach resolving found isFragment offered done =>
      obtain ⟨_, _, _, _, attaches⟩ :=
        scheduled.exists_attaches resolving found offered done
      obtain ⟨untouched, _, _⟩ := scheduled.untouched_of_start resolving found
      refine gathers_of_attach untouched attaches ?_
      rintro wired rfl
      exact resolved attaches.found
  | @bind draft result _ _ _ resolving found notFragment chosen done =>
      obtain ⟨_, new, current, binds⟩ :=
        scheduled.exists_binds resolving found notFragment chosen done
      have replaces := binds.replaces current
      constructor
      · exact goesOn replaces (List.nil_subset _) fun _ _ =>
          Draft.offers_eq_gathered_of_takesOn binds.taken draft
      · intro _ bound resolving _
        rw [replaces.resolvingBound?_eq] at resolving
        cases resolving
        exact binds.taken.wirings
  | leaveRequire current _ _ =>
      exact gathers_of_require scheduled gathers
        (Draft.replaces_put current rfl) (List.Subset.refl _) rfl
        fun _ same => same
  | @provide draft _ bound require _ _ current _ _ _ engaged =>
      refine gathers_of_require scheduled gathers
        (engaged.replaces current rfl) (List.subset_append_left _ _) rfl ?_
      intro _ same
      rw [BoundModule.gathered_addProvision, engaged.visible]
      change _ = if require.isReexport then
        reexport (bound.gathered draft) (draft.visible _)
          else bound.gathered draft
      rw [← same]
      cases reexported : require.isReexport <;>
        simp [BoundModule.addProvision, reexported]
  | leaveImport current _ _ =>
      refine ⟨goesOn (Draft.replaces_put current rfl) (List.Subset.refl _) ?_,
        fun phase => by cases phase⟩
      exact fun _ same => same
  | wire current _ _ _ _ _ engaged =>
      refine ⟨goesOn (engaged.replaces current rfl) (List.Subset.refl _) ?_,
        fun phase => by cases phase⟩
      intro _ same
      change List.filter _ _ = BoundModule.unwired (Table.insert _ _ _) _
      rw [BoundModule.unwired_insert, same]
      rfl
  | settle through =>
      obtain ⟨id, bound, resolving, found, _⟩ :=
        scheduled.exists_of_settle through
      exact gathers_of_settle scheduled after resolving found gathers.offers

theorem gathers_of_given
    {node : Node}
    (given : Everywhere (Candidate.IsGiven node.draft.store) node) :
    Gathers node := by
  constructor
  · intro id bound found unresolved _
    cases given found with
    | target _ _ =>
        exact Draft.offers_eq_gathered_of_takesOn (.nil _) node.draft
    | reopened _ wasResolved =>
        exact absurd wasResolved (Bool.eq_false_iff.1 unresolved)
  · intro _ bound current unresolved
    cases given (Draft.candidate?_of_resolvingBound? current) with
    | target _ _ => rfl
    | reopened _ wasResolved =>
        exact absurd wasResolved (Bool.eq_false_iff.1 unresolved)

theorem gathers_of_line
    {node final : Node} (line : search.problem.Line node final)
    (scheduled : Scheduled node)
    (given : Everywhere (Candidate.IsGiven node.draft.store) node) :
    Gathers final := by
  refine invariant_of_line line scheduled (gathers_of_given given) ?_
  intro position result before isScheduled decision gathers
  refine gathers_of_decision isScheduled decision ?_ gathers
  intro id wired found
  rw [store_of_line before scheduled]
  cases isGiven_of_notBound before scheduled given found (by simp) with
  | resolved wasResolved _ => exact wasResolved

end Search

/-! ## Offers of a module's own -/

/-- The wires that a generation brings into a search. -/
def Store.carriedWirings (store : Store) (generation : Generation) : Wirings :=
  if (store.state generation).isResolved then
    Wirings.ofList (store.wires generation)
  else
    ∅

/-- A module has a wire for a package that its host has not brought with it. -/
def BoundModule.isNewlyWired
    (store : Store) (bound : BoundModule) (package : String) : Bool :=
  bound.wirings.contains package &&
    !(store.carriedWirings bound.host).contains package

namespace Search

/-- A module keeps the wires that its host has brought with it, and of the exports of
its own it offers those that have not been superseded since. -/
structure KeepsOwn (store : Store) (bound : BoundModule) : Prop where
  carried : ∀ {package wire},
    (store.carriedWirings bound.host).find? package = some wire →
      bound.wirings.find? package = some wire
  offers : bound.offers.filter Offer.isOwn =
    bound.ownOffers.filter fun offer =>
      !bound.isNewlyWired store offer.package

namespace KeepsOwn

variable {search : Search} {store : Store} {bound new : BoundModule}

/-- Nothing is superseded in a module that has only the wires of its host. -/
theorem of_carried
    (wirings : ∀ package, bound.wirings.find? package =
      (store.carriedWirings bound.host).find? package)
    (offers : bound.offers.filter Offer.isOwn = bound.ownOffers) :
    KeepsOwn store bound := by
  refine ⟨fun found => (wirings _).trans found, offers.trans ?_⟩
  refine (List.filter_eq_self.2 fun offer _ => ?_).symm
  have same : bound.wirings.contains offer.package =
      (store.carriedWirings bound.host).contains offer.package :=
    congrArg Option.isSome (wirings _)
  unfold BoundModule.isNewlyWired
  rw [same, Bool.and_not_self]
  rfl

theorem of_fresh
    {installed : Generation} {joined : List Generation}
    (alone : ∀ package,
      (store.carriedWirings installed).find? package = none)
    (taken : (BoundModule.of installed).TakesOn joined new) :
    KeepsOwn store new := by
  refine of_carried ?_ ?_
  · intro package
    rw [taken.wirings, taken.host]
    exact (alone package).symm
  · rw [taken.offers_eq_ownOffers]
    exact filter_isOwn_flatMap _

theorem of_reopened
    {generation : Generation} {joined : List Generation}
    {imports : List PackageImport}
    (resolved : (store.state generation).isResolved = true)
    (taken : BoundModule.TakesOn
      { BoundModule.reopen (.of store generation) with imports := imports }
      joined new) :
    KeepsOwn store new := by
  refine of_carried ?_ ?_
  · intro package
    rw [taken.wirings, taken.host]
    simp [Store.carriedWirings, resolved, BoundModule.reopen,
      ResolvedModule.of]
  · have members : new.host :: new.fragments =
        (generation :: store.fragments generation) ++ joined := by
      rw [taken.host, taken.fragments]
      rfl
    have before : (ResolvedModule.of store generation).offers.filter
        Offer.isOwn = _ :=
      ResolvedModule.filter_isOwn_offers store generation
    rw [BoundModule.ownOffers, members, List.flatMap_append, taken.offers,
      List.filter_append, filter_isOwn_flatMap]
    exact congrArg (· ++ joined.flatMap Generation.offers) before

theorem deciding
    {draft after : Draft} (keeps : KeepsOwn store bound)
    (step : Deciding search draft after bound new) :
    KeepsOwn store new := by
  cases step with
  | leaveRequire _ _ _ => exact ⟨keeps.carried, keeps.offers⟩
  | leaveImport _ _ _ => exact ⟨keeps.carried, keeps.offers⟩
  | @provide _ _ require _ _ _ _ _ _ _ _ =>
      refine ⟨keeps.carried, ?_⟩
      refine Eq.trans ?_ keeps.offers
      unfold BoundModule.addProvision
      cases require.isReexport with
      | true => exact filter_isOwn_reexport _ _
      | false => rfl
  | @wire _ requirement _ choice _ _ unwired _ _ _ _ =>
      have notCarried : (store.carriedWirings bound.host).find?
          requirement.package = none := by
        cases found : (store.carriedWirings bound.host).find?
            requirement.package with
        | none => rfl
        | some wire =>
            rw [keeps.carried found] at unwired
            cases unwired
      constructor
      · intro package wire found
        change (Table.insert bound.wirings _ _).find? package = some wire
        rw [Table.find?_insert, if_neg, keeps.carried found]
        rintro rfl
        rw [notCarried] at found
        cases found
      · change (bound.offers.filter _).filter _ = bound.ownOffers.filter _
        rw [List.filter_filter]
        simp only [Bool.and_comm (Offer.isOwn _)]
        rw [← List.filter_filter, keeps.offers, List.filter_filter]
        refine List.filter_congr fun offer _ => ?_
        unfold BoundModule.isNewlyWired Table.contains
        rw [Table.find?_insert]
        by_cases same : requirement.package = offer.package
        · simp [← same, notCarried]
        · simp [same, Ne.symm same]

end KeepsOwn

theorem keepsOwn_of_line
    {search : Search} {store : Store} {node final : Node}
    (line : search.problem.Line node final) (scheduled : Scheduled node)
    (given : Everywhere (Candidate.IsGiven store) node) :
    Everywhere (StoredOr store (KeepsOwn store)) final := by
  refine storedOr_of_line line scheduled given ?_
    (fun wasResolved taken => .of_reopened wasResolved taken)
    fun step keeps => keeps.deciding step
  intro installed joined new begun taken
  refine .of_fresh (fun package => ?_) taken
  rcases begun with notResolved | waiting
  · unfold Store.carriedWirings
    rw [notResolved]
    rfl
  · cases found : (store.carriedWirings installed).find? package with
    | none => rfl
    | some wire => exact (waiting.carried found).symm

end Search

/-! ## Solutions that have been applied -/

/-- What a module re-exports was settled before it, as far as the search has bound it
at all. -/
def Draft.ShowsEarlier (draft : Draft) (solution : Solution)
    (later : List Solution) : Prop :=
  ∀ required ∈ solution.required, required.reexport = true →
    ∀ reached ∈ draft.reached required.exporter,
      ∀ next ∈ solution :: later, next.host.id ≠ reached.id

theorem Draft.ShowsEarlier.isGrounded
    {final : Draft} {bound : BoundModule} {earlier later : List Solution}
    (scheduled : Search.Scheduled ⟨.finished, final⟩)
    (split : final.solutions = earlier ++ final.solutionOf bound :: later)
    (shows : final.ShowsEarlier (final.solutionOf bound) later) :
    final.IsGrounded bound := by
  intro provision listed reexported reached member module found
  have order := Search.order_of_split scheduled split
  have settled : reached.id ∈ final.order :=
    List.mem_append_left _ (scheduled.mem_settled_of_finished found)
  refine ⟨_, _, order, ?_⟩
  rw [order, List.mem_append] at settled
  refine settled.resolve_right fun after => ?_
  rw [← List.map_cons (f := fun next : Solution => next.host.id)] at after
  obtain ⟨next, isNext, same⟩ := List.mem_map.1 after
  exact shows _ (List.mem_map_of_mem listed) reexported reached member next
    isNext same

/-- Two lists of offers of a host name the same exports of the same exporters for the
same packages. -/
def Offer.Alike (host : Generation) (left right : List Offer) : Prop :=
  ∀ wire, wire ∈ left.map (·.toWire host) ↔ wire ∈ right.map (·.toWire host)

/-- Offers that are withdrawn are missed. -/
theorem Offer.alike_unwired_iff
    (host : Generation) (wirings : Wirings) (offers : List Offer) :
    Offer.Alike host (BoundModule.unwired wirings offers) offers ↔
      ∀ offer ∈ offers, wirings.find? offer.package = none := by
  constructor
  · intro alike offer member
    obtain ⟨other, kept, same⟩ := List.mem_map.1
      ((alike (offer.toWire host)).2 (List.mem_map_of_mem member))
    have package : other.package = offer.package := congrArg Wire.package same
    have unwired := (List.mem_filter.1 kept).2
    rw [package] at unwired
    exact Option.isNone_iff_eq_none.1 unwired
  · intro none
    have all : BoundModule.unwired wirings offers = offers :=
      List.filter_eq_self.2 fun offer member => by simp [none offer member]
    rw [all]
    exact fun _ => Iff.rfl

/-- What searches see of a generation after an answer has been applied. -/
def World.seenAfter (world : World) (answer : List Solution)
    (generation : Generation) : ResolvedModule :=
  .of (world.store.applyAll answer) generation

/-- A resolved module goes on from what a search has made of a bound one, but offers
all that it exports again. -/
structure ResolvedModule.Continues (seen : ResolvedModule) (store : Store)
    (bound : BoundModule) : Prop where
  generation : seen.generation = bound.host
  fragments : seen.fragments = bound.fragments
  wirings : seen.wirings = bound.wirings
  required : seen.required = bound.required
  offers : bound.offers.filter Offer.isOwn =
    (seen.offers.filter Offer.isOwn).filter fun offer =>
      !bound.isNewlyWired store offer.package

/-- Later searches see each module of an applied answer as it was left, but for its
offers.  Those of a module that was not resolved before were left as they are seen,
less those that wires have superseded, if all that the module re-exports was settled
before it: so they are seen as they were left exactly if none is superseded. -/
theorem World.Reachable.continues_of_applied
    {world : World} (reachable : world.Reachable) {target : Generation}
    (made : target ∈ world.made) {answer : List Solution}
    (solved : world.resolver.resolve world.store target = .ok answer)
    (held : ∀ solution ∈ answer, ∀ generation ∈ solution.mentioned,
      world.store.holds generation = true)
    {earlier later : List Solution} {solution : Solution}
    (split : answer = earlier ++ solution :: later) :
    ∃ final bound,
      (world.resolver.attempt world.store target).result = .ok final ∧
      final.candidate? solution.host.id = some (.bound bound) ∧
      (world.seenAfter answer solution.host).Continues world.store bound ∧
      ((world.store.state solution.host).isResolved = false →
        final.ShowsEarlier solution later →
          bound.offers = BoundModule.unwired bound.wirings
              (world.seenAfter answer solution.host).offers ∧
            (Offer.Alike solution.host bound.offers
                (world.seenAfter answer solution.host).offers ↔
              ∀ offer ∈ (world.seenAfter answer solution.host).offers,
                bound.wirings.find? offer.package = none)) := by
  obtain ⟨final, result, rfl⟩ := Resolver.exists_of_solutions solved
  obtain ⟨framework, start, _, begun, run⟩ :=
    Resolver.exists_run_of_attempt result
  have consistent := reachable.isConsistent
  have given : Search.Everywhere (Candidate.IsGiven world.store)
      ⟨.start, start⟩ := fun _ _ found => (run.begins.given found).2
  have accepts := run.accepts consistent made
    fun _ _ found => Draft.isHost_of_initial begun found
  have answered : solution ∈ final.solutions := by
    rw [split]
    exact List.mem_append_right _ List.mem_cons_self
  obtain ⟨wired, _⟩ :=
    accepts.applied_host consistent answered (held solution answered)
  obtain ⟨bound, found, rfl⟩ := Draft.candidate?_of_mem_solutions answered
  have rooted := (run.isRooted consistent.sound made
    fun _ tracked => consistent.tracked tracked).2 found
  have seen : world.seenAfter final.solutions bound.host =
      bound.asResolved final := ResolvedModule.of_solutionOf rooted.keyed wired
  refine ⟨final, bound, result, found, ?_, ?_⟩
  · have keeps : Search.KeepsOwn world.store bound :=
      Search.keepsOwn_of_line run.line run.scheduled given found
    have own := bound.filter_isOwn_gathered final
    change (world.seenAfter _ bound.host).Continues _ _
    rw [seen]
    exact ⟨rfl, rfl, rfl, rfl, keeps.offers.trans
      (congrArg (List.filter _) own.symm)⟩
  · intro unresolved shows
    have sameStore := run.begins.sameStore
    have gathers := Search.gathers_of_line run.line run.scheduled
      (sameStore.symm ▸ given)
    have finalStore := Search.store_of_line run.line run.scheduled
    have offers : bound.offers = BoundModule.unwired bound.wirings
        (world.seenAfter final.solutions bound.host).offers := by
      rw [seen]
      refine gathers.offers found ?_ (shows.isGrounded run.finished split)
      rw [finalStore, sameStore]
      exact unresolved
    refine ⟨offers, ?_⟩
    change Offer.Alike bound.host _ (world.seenAfter _ bound.host).offers ↔ _
    rw [offers]
    exact Offer.alike_unwired_iff _ _ _

namespace Sample

/-- A bundle that exports a package and imports it in another version. -/
def substitutable : Manifest :=
  bundle "h" [offer "p" 1] [wish "p" 2]

/-- The world of the bundle and an exporter of the other version. -/
def substituted : World :=
  world [substitutable, bundle "z" [offer "p" 2] []]

/-- How the bundle is resolved. -/
def substitution : Solution where
  host := generation 0 substitutable
  fragments := []
  wires :=
    [⟨"p", offer "p" 2, generation 1 (bundle "z" [offer "p" 2] [])⟩]
  required := []

/-- How the exporter is resolved. -/
def substitute : Solution where
  host := generation 1 (bundle "z" [offer "p" 2] [])
  fragments := []
  wires := []
  required := []

theorem resolve_substituted :
    substituted.resolver.resolve substituted.store
        (generation 0 substitutable) =
      .ok [substitution, substitute] :=
  Search.eq_ok_of_toOption (by decide +kernel)

end Sample

/-- The export that a search has withdrawn is offered again when the answer has been
applied. -/
theorem World.substituted_offer_returns :
    ∃ final bound,
      Sample.substituted.resolver.resolve Sample.substituted.store
          (Sample.generation 0 Sample.substitutable) =
        .ok [Sample.substitution, Sample.substitute] ∧
      (Sample.substituted.resolver.attempt Sample.substituted.store
        (Sample.generation 0 Sample.substitutable)).result = .ok final ∧
      final.candidate? Sample.substitution.host.id = some (.bound bound) ∧
      ¬ Offer.Alike Sample.substitution.host bound.offers
        (Sample.substituted.seenAfter
          [Sample.substitution, Sample.substitute]
          Sample.substitution.host).offers := by
  have made : Sample.generation 0 Sample.substitutable ∈
      Sample.substituted.made := by decide +kernel
  have split : [Sample.substitution, Sample.substitute] =
      [] ++ Sample.substitution :: [Sample.substitute] := rfl
  have reachable : Sample.substituted.Reachable := Sample.reachable_world _
  obtain ⟨final, bound, result, found, continues, exactly⟩ :=
    World.Reachable.continues_of_applied reachable made
      Sample.resolve_substituted (by decide +kernel) split
  have installed : (Sample.substituted.store.state
      Sample.substitution.host).isResolved = false := by decide +kernel
  have showsEarlier : final.ShowsEarlier Sample.substitution
      [Sample.substitute] := fun _ member => by cases member
  refine ⟨final, bound, Sample.resolve_substituted, result, found, ?_⟩
  rw [(exactly installed showsEarlier).2]
  intro kept
  have offered : ⟨"p", Sample.offer "p" 1, none⟩ ∈
      (Sample.substituted.seenAfter [Sample.substitution, Sample.substitute]
        Sample.substitution.host).offers := by decide +kernel
  have unwired := kept _ offered
  rw [← continues.wirings] at unwired
  have wired : ((Sample.substituted.seenAfter
      [Sample.substitution, Sample.substitute]
        Sample.substitution.host).wirings.find? "p").isSome = true := by
    decide +kernel
  rw [unwired] at wired
  cases wired

end ModuleWiring
