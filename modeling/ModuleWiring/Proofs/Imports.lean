import ModuleWiring.Proofs.Start
import ModuleWiring.Proofs.World

/-!
# What becomes of the imports of a module

Every mandatory import of a module that a search binds is accounted for when it
is decided.  The account of an import that the module serves itself is undone
only by a wire that a later import of the same package brings.
-/

namespace ModuleWiring

/-- All imports of a bound module and its fragments, decided or not. -/
def BoundModule.demanded (bound : BoundModule) : List PackageImport :=
  (bound.host :: bound.fragments).flatMap Generation.imports

/-- All that the host and its fragments export. -/
def BoundModule.ownOffers (bound : BoundModule) : List Offer :=
  (bound.host :: bound.fragments).flatMap Generation.offers

/-- A fresh host offers all that it and its fragments export. -/
theorem BoundModule.TakesOn.offers_eq_ownOffers
    {installed : Generation} {joined : List Generation} {new : BoundModule}
    (taken : (BoundModule.of installed).TakesOn joined new) :
    new.offers = new.ownOffers := by
  unfold ownOffers
  rw [taken.offers, taken.host, taken.fragments]
  rfl

/-- The ways to satisfy an import: the runtime serves the package, the wire for
it is accepted, or there is no wire and an offer of the module is accepted. -/
inductive Solution.Satisfies (solution : Solution)
    (delegation : BootDelegation) (offers : List Offer)
    (requirement : PackageImport) : Prop where
  | delegated :
      delegation.covers requirement.package = true →
      Satisfies solution delegation offers requirement
  | wired {wire : Wire} :
      solution.wire? requirement.package = some wire →
      requirement.accepts wire.declared wire.exporter = true →
      Satisfies solution delegation offers requirement
  | served {offer : Offer} :
      solution.wire? requirement.package = none →
      offer ∈ offers → offer.package = requirement.package →
      requirement.accepts offer.declared
        (offer.exporter solution.host) = true →
      Satisfies solution delegation offers requirement

/-- Re-exported packages come after those that are offered already. -/
theorem exists_reexport_eq (offers : List Offer) (visible : List Wire) :
    ∃ added, reexport offers visible = offers ++ added ∧
      ∀ offer ∈ added, ∃ wire ∈ visible,
        offer = ⟨wire.package, wire.declared, some wire.exporter⟩ := by
  unfold reexport
  induction visible generalizing offers with
  | nil => exact ⟨[], by simp, by simp⟩
  | cons first rest inductionHypothesis =>
      rw [List.foldl_cons]
      split
      · obtain ⟨added, same, listed⟩ := inductionHypothesis offers
        refine ⟨added, same, fun offer member => ?_⟩
        obtain ⟨wire, later, isOffer⟩ := listed offer member
        exact ⟨wire, List.mem_cons_of_mem _ later, isOffer⟩
      · obtain ⟨added, same, listed⟩ := inductionHypothesis
          (offers ++ [⟨first.package, first.declared, some first.exporter⟩])
        refine ⟨_ :: added, by rw [same, List.append_assoc]; rfl, ?_⟩
        intro offer member
        rcases List.mem_cons.1 member with rfl | later
        · exact ⟨first, List.mem_cons_self, rfl⟩
        · obtain ⟨wire, restMember, isOffer⟩ := listed offer later
          exact ⟨wire, List.mem_cons_of_mem _ restMember, isOffer⟩

/-- A provision adds copies at most, which come after all other offers. -/
theorem BoundModule.exists_offers_addProvision
    (bound : BoundModule) (provision : Provision) (visible : List Wire) :
    ∃ added,
      (bound.addProvision provision visible).offers = bound.offers ++ added ∧
        ∀ offer ∈ added, provision.require.isReexport = true ∧
          ∃ wire ∈ visible,
            offer = ⟨wire.package, wire.declared, some wire.exporter⟩ := by
  unfold addProvision
  dsimp only
  split
  · rename_i reexported
    obtain ⟨added, same, listed⟩ := exists_reexport_eq bound.offers visible
    exact ⟨added, same, fun offer member =>
      ⟨reexported, listed offer member⟩⟩
  · exact ⟨[], by simp, by simp⟩

namespace Search

/-- The account of an import that has been decided before some others. -/
inductive Decided (search : Search) (bound : BoundModule)
    (requirement : PackageImport) (later : List PackageImport) : Prop where
  | optional :
      requirement.isOptional = true →
      Decided search bound requirement later
  | delegated :
      search.framework.bootDelegation.covers requirement.package = true →
      Decided search bound requirement later
  | wired {wire : Wire} :
      bound.wirings.find? requirement.package = some wire →
      requirement.accepts wire.declared wire.exporter = true →
      Decided search bound requirement later
  | served {offer : Offer} :
      bound.wirings.find? requirement.package = none →
      offer ∈ bound.offers → offer.package = requirement.package →
      requirement.accepts offer.declared (offer.exporter bound.host) = true →
      Decided search bound requirement later
  | superseded {wire : Wire} {successor : PackageImport} :
      bound.wirings.find? requirement.package = some wire →
      successor ∈ later → successor.package = requirement.package →
      successor.accepts wire.declared wire.exporter = true →
      Decided search bound requirement later

/-- All imports of a bound module that are no longer pending are accounted
for. -/
structure Accounted (search : Search) (bound : BoundModule) : Prop where
  keyed : bound.wirings.IsKeyed
  undelegated : ∀ {package wire},
    bound.wirings.find? package = some wire →
      search.framework.bootDelegation.covers package = false
  decided : ∃ decided, bound.demanded = decided ++ bound.imports ∧
    ∀ {before requirement later},
      decided = before ++ requirement :: later →
        Decided search bound requirement later

variable {search : Search} {bound new : BoundModule}

theorem Decided.mono
    {requirement : PackageImport} {later : List PackageImport}
    (decided : Decided search bound requirement later)
    (sameHost : new.host = bound.host)
    (sameWirings : new.wirings = bound.wirings)
    (moreOffers : bound.offers ⊆ new.offers) :
    Decided search new requirement later := by
  cases decided with
  | optional isOptional => exact .optional isOptional
  | delegated covered => exact .delegated covered
  | wired found accepted => exact .wired (sameWirings ▸ found) accepted
  | served unwired offered package accepted =>
      exact .served (sameWirings ▸ unwired) (moreOffers offered) package
        (sameHost ▸ accepted)
  | superseded found member package accepted =>
      exact .superseded (sameWirings ▸ found) member package accepted

/-- A later import of another list of imports changes no account. -/
theorem Decided.snoc
    {requirement next : PackageImport} {later : List PackageImport}
    (decided : Decided search bound requirement later) :
    Decided search bound requirement (later ++ [next]) := by
  cases decided with
  | optional isOptional => exact .optional isOptional
  | delegated covered => exact .delegated covered
  | wired found accepted => exact .wired found accepted
  | served unwired offered package accepted =>
      exact .served unwired offered package accepted
  | superseded found member package accepted =>
      exact .superseded found (List.mem_append_left _ member) package accepted

namespace Accounted

theorem of_fresh
    {installed : Generation} {joined : List Generation}
    (taken : (BoundModule.of installed).TakesOn joined new) :
    Accounted search new := by
  have unwired : ∀ package, new.wirings.find? package = none := by
    intro package
    rw [taken.wirings]
    rfl
  refine ⟨?_, ?_, [], ?_, ?_⟩
  · intro package wire found
    rw [unwired] at found
    cases found
  · intro package wire found
    rw [unwired] at found
    cases found
  · rw [BoundModule.demanded, taken.host, taken.fragments,
      taken.imports_eq fun _ => rfl]
    simp [BoundModule.of]
  · intro before requirement later equality
    simp at equality

theorem mono
    (accounted : Accounted search bound)
    (sameHost : new.host = bound.host)
    (sameFragments : new.fragments = bound.fragments)
    (sameImports : new.imports = bound.imports)
    (sameWirings : new.wirings = bound.wirings)
    (moreOffers : bound.offers ⊆ new.offers) :
    Accounted search new := by
  obtain ⟨decided, split, accounts⟩ := accounted.decided
  refine ⟨sameWirings ▸ accounted.keyed, ?_, decided, ?_, ?_⟩
  · intro package wire found
    rw [sameWirings] at found
    exact accounted.undelegated found
  · rw [BoundModule.demanded, sameHost, sameFragments, sameImports]
    exact split
  · intro before requirement later equality
    exact (accounts equality).mono sameHost sameWirings moreOffers

/-- One more import is accounted for. -/
theorem decide
    {requirement : PackageImport} {rest : List PackageImport}
    (accounted : Accounted search bound)
    (next : bound.imports = requirement :: rest)
    (sameHost : new.host = bound.host)
    (sameFragments : new.fragments = bound.fragments)
    (restPending : new.imports = rest)
    (keyed : new.wirings.IsKeyed)
    (undelegated : ∀ {package wire},
      new.wirings.find? package = some wire →
        search.framework.bootDelegation.covers package = false)
    (here : Decided search new requirement [])
    (earlier : ∀ {other later},
      Decided search bound other later →
        Decided search new other (later ++ [requirement])) :
    Accounted search new := by
  obtain ⟨decided, split, accounts⟩ := accounted.decided
  refine ⟨keyed, undelegated, decided ++ [requirement], ?_, ?_⟩
  · rw [BoundModule.demanded, sameHost, sameFragments, restPending,
      List.append_assoc]
    rw [next] at split
    exact split
  · intro before other later equality
    rcases List.eq_nil_or_concat later with rfl | ⟨others, last, rfl⟩
    · obtain ⟨_, same⟩ := List.append_inj' equality rfl
      rw [← List.cons.inj same |>.1]
      exact here
    · rw [List.concat_eq_append, ← List.cons_append,
        ← List.append_assoc] at equality
      obtain ⟨sameDecided, same⟩ := List.append_inj' equality rfl
      rw [List.concat_eq_append, ← List.cons.inj same |>.1]
      exact earlier (accounts sameDecided)

theorem leaveImport
    {requirement : PackageImport} {rest : List PackageImport}
    (accounted : Accounted search bound)
    (next : bound.imports = requirement :: rest)
    (allowed : search.MayLeave bound requirement) :
    Accounted search { bound with imports := rest } := by
  refine accounted.decide next rfl rfl rfl accounted.keyed
    accounted.undelegated ?_ ?_
  · rcases allowed with
      ⟨wire, found, accepted⟩ | isOptional | covered | ⟨unwired, selfServed⟩
    · exact .wired found accepted
    · exact .optional isOptional
    · exact .delegated covered
    · unfold isSelfServed at selfServed
      split at selfServed
      · cases selfServed
      · rename_i offer found
        have package := List.find?_some found
        simp only [decide_eq_true_eq] at package
        exact .served unwired (List.mem_of_find?_eq_some found) package
          selfServed
  · intro other later decided
    have kept : Decided search { bound with imports := rest } other later :=
      decided.mono rfl rfl (List.Subset.refl _)
    exact kept.snoc

theorem wire
    {draft : Draft} {requirement : PackageImport}
    {rest : List PackageImport} {choice : WireChoice}
    (accounted : Accounted search bound)
    (next : bound.imports = requirement :: rest)
    (unwired : bound.wirings.find? requirement.package = none)
    (uncovered :
      search.framework.bootDelegation.covers requirement.package = false)
    (offered : choice ∈ search.wireChoices draft requirement) :
    Accounted search { bound with
      imports := rest
      wirings := bound.wirings.insert requirement.package
        ⟨requirement.package, choice.declared, choice.exporter⟩
      offers := bound.offers.filter
        (·.package ≠ requirement.package) } := by
  obtain ⟨_, _, _, _, _, _, _, _, _, accepted⟩ :=
    exists_offer_of_mem_wireChoices offered
  have held : ∀ package, (bound.wirings.insert requirement.package
      ⟨requirement.package, choice.declared, choice.exporter⟩).find?
        package = if requirement.package = package then
          some ⟨requirement.package, choice.declared, choice.exporter⟩
        else bound.wirings.find? package :=
    fun package => Table.find?_insert _ _ _ _
  refine accounted.decide next rfl rfl rfl (accounted.keyed.insert
    ⟨requirement.package, choice.declared, choice.exporter⟩) ?_ ?_ ?_
  · intro package wire found
    rw [held] at found
    split at found
    · rename_i same
      exact same ▸ uncovered
    · exact accounted.undelegated found
  · exact .wired ((held _).trans (if_pos rfl)) accepted
  · intro other later decided
    by_cases same : requirement.package = other.package
    · -- The wire replaces whatever served the package before.
      cases decided with
      | optional isOptional => exact .optional isOptional
      | delegated covered => exact .delegated covered
      | wired found _ =>
          rw [← same, unwired] at found
          cases found
      | superseded found _ _ _ =>
          rw [← same, unwired] at found
          cases found
      | served _ _ _ _ =>
          exact .superseded ((held _).trans (if_pos same))
            (List.mem_append_right _ List.mem_cons_self) same accepted
    · have kept := (held other.package).trans (if_neg same)
      cases decided with
      | optional isOptional => exact .optional isOptional
      | delegated covered => exact .delegated covered
      | wired found accepts => exact .wired (kept.trans found) accepts
      | superseded found member package accepts =>
          exact .superseded (kept.trans found)
            (List.mem_append_left _ member) package accepts
      | served absent member package accepts =>
          refine .served (kept.trans absent)
            (List.mem_filter.2 ⟨member, ?_⟩) package accepts
          simpa [package] using Ne.symm same

end Accounted

theorem Accounted.deciding
    {draft after : Draft} (accounted : Accounted search bound)
    (step : Deciding search draft after bound new) :
    Accounted search new := by
  cases step with
  | leaveRequire _ _ _ =>
      exact accounted.mono rfl rfl rfl rfl (List.Subset.refl _)
  | provide _ _ _ _ _ _ =>
      refine accounted.mono rfl rfl rfl rfl ?_
      obtain ⟨added, same, _⟩ := BoundModule.exists_offers_addProvision
        { bound with requires := _ } _ _
      rw [same]
      exact List.subset_append_left _ _
  | leaveImport _ next allowed => exact accounted.leaveImport next allowed
  | wire _ next unwired undelegated offered _ _ =>
      exact accounted.wire next unwired undelegated offered

/-- The imports of all modules that a run binds first are accounted for. -/
theorem accounted_of_line
    {store : Store} {node final : Node}
    (line : search.problem.Line node final) (scheduled : Scheduled node)
    (given : Everywhere (Candidate.IsGiven store) node) :
    Everywhere (ResolvedOr store (Accounted search)) final := by
  refine everywhere_of_line line scheduled ?_ ?_
  · intro id candidate found
    cases given found with
    | unresolved _ => trivial
    | resolved wasResolved _ => exact wasResolved
    | target _ _ => exact .inr (.of_fresh (.nil _))
    | reopened _ wasResolved => exact .inl wasResolved
  · intro position result earlier candidate _ evolution holds
    exact resolvedOr_of_evolution evolution holds .of_fresh
      fun step accounted => accounted.deciding step

end Search

namespace Draft

/-- What an answer says of a bound module. -/
def solutionOf (draft : Draft) (bound : BoundModule) : Solution where
  host := bound.host
  fragments := bound.fragments
  wires := bound.wirings.values
  required := bound.required.map fun provision => {
    require := provision.require
    exporter := provision.provider
    reexport := provision.require.isReexport
    wires := draft.visible provision.provider }

theorem exists_of_mem_solutions
    {draft : Draft} {solution : Solution}
    (member : solution ∈ draft.solutions) :
    ∃ id ∈ draft.settled, ∃ bound,
      draft.candidate? id = some (.bound bound) ∧
        solution = draft.solutionOf bound := by
  obtain ⟨bound, listed, rfl⟩ := List.mem_map.1 member
  obtain ⟨id, settled, found⟩ := List.mem_filterMap.1 listed
  exact ⟨id, settled, bound, candidate?_of_bound? found, rfl⟩

theorem candidate?_of_mem_solutions
    {draft : Draft} {solution : Solution}
    (member : solution ∈ draft.solutions) :
    ∃ bound, draft.candidate? solution.host.id = some (.bound bound) ∧
      solution = draft.solutionOf bound := by
  obtain ⟨id, _, bound, found, rfl⟩ := exists_of_mem_solutions member
  have sameId : bound.host.id = id := id_of_candidate? found
  exact ⟨bound, sameId ▸ found, rfl⟩

theorem wire?_solutionOf
    {bound : BoundModule} (draft : Draft) (keyed : bound.wirings.IsKeyed)
    (package : String) :
    (draft.solutionOf bound).wire? package =
      bound.wirings.find? package :=
  keyed.find?_values package

end Draft

/-- The account of an import tells whether the solution satisfies it. -/
theorem Search.Decided.satisfies_iff
    {search : Search} {bound : BoundModule} {requirement : PackageImport}
    {later : List PackageImport} (draft : Draft)
    (decided : Decided search bound requirement later)
    (accounted : Accounted search bound)
    (mandatory : requirement.isOptional = false) :
    (draft.solutionOf bound).Satisfies search.framework.bootDelegation
        bound.offers requirement ↔
      ∀ wire, (draft.solutionOf bound).wire? requirement.package =
        some wire →
        (∃ successor ∈ later, successor.package = requirement.package ∧
          successor.accepts wire.declared wire.exporter = true) →
        requirement.accepts wire.declared wire.exporter = true := by
  have wire? := draft.wire?_solutionOf accounted.keyed
  constructor
  · intro satisfied wire found _
    cases satisfied with
    | delegated covered =>
        rw [wire?] at found
        have uncovered := accounted.undelegated found
        rw [covered] at uncovered
        cases uncovered
    | wired hit accepted =>
        rw [found] at hit
        cases hit
        exact accepted
    | served unwired _ _ _ =>
        rw [unwired] at found
        cases found
  · intro condition
    cases decided with
    | optional isOptional =>
        rw [mandatory] at isOptional
        cases isOptional
    | delegated covered => exact .delegated covered
    | wired hit accepted => exact .wired ((wire? _).trans hit) accepted
    | served unwired offered package accepted =>
        exact .served ((wire? _).trans unwired) offered package accepted
    | superseded hit successor package accepted =>
        have held := (wire? _).trans hit
        have fits := condition _ held ⟨_, successor, package, accepted⟩
        exact .wired held fits

open Search in
/-- In a module that an answer resolves, a mandatory import is satisfied exactly
if it accepts any wire for its package that a later import accepts. -/
theorem Resolver.satisfies_import_iff
    {resolver : Resolver} {store : Store} {target : Generation}
    {answer : List Solution}
    (solved : resolver.resolve store target = .ok answer) :
    ∃ framework draft, resolver.framework = some framework ∧
      (resolver.attempt store target).result = .ok draft ∧
      draft.solutions = answer ∧
      ∀ solution ∈ answer,
        (store.state solution.host).isResolved = false →
        ∃ candidate, draft.candidate? solution.host.id = some candidate ∧
          ∀ before requirement later,
            solution.members.flatMap Generation.imports =
              before ++ requirement :: later →
            requirement.isOptional = false →
            (solution.Satisfies framework.bootDelegation candidate.offers
                requirement ↔
              ∀ wire, solution.wire? requirement.package = some wire →
                (∃ successor ∈ later,
                  successor.package = requirement.package ∧
                    successor.accepts wire.declared wire.exporter = true) →
                requirement.accepts wire.declared wire.exporter = true) := by
  obtain ⟨draft, result, rfl⟩ := exists_of_solutions solved
  obtain ⟨framework, start, _, _, run⟩ := exists_run_of_attempt result
  refine ⟨framework, draft, run.started, result, rfl, ?_⟩
  intro solution member unresolved
  obtain ⟨id, settled, bound, found, rfl⟩ :=
    Draft.exists_of_mem_solutions member
  have everywhere := accounted_of_line run.line run.scheduled
    fun _ _ hit => (run.begins.given hit).2
  obtain ⟨other, otherFound, through, _⟩ :=
    run.finished.settled id settled
  rw [found] at otherFound
  cases otherFound
  have sameId : bound.host.id = id := Draft.id_of_candidate? found
  have accounted : Accounted (resolver.search framework) bound := by
    rcases everywhere found with wasResolved | accounted
    · change (store.state bound.host).isResolved = false at unresolved
      rw [wasResolved] at unresolved
      cases unresolved
    · exact accounted
  refine ⟨.bound bound, sameId ▸ found, ?_⟩
  intro before requirement later split mandatory
  obtain ⟨decided, demanded, accounts⟩ := accounted.decided
  rw [through, List.append_nil] at demanded
  have shape : decided = before ++ requirement :: later :=
    demanded.symm.trans split
  exact (accounts shape).satisfies_iff draft accounted mandatory

namespace Sample

/-- A host that offers the package that it imports. -/
def selfServing : Manifest :=
  bundle "h" [offer "p" 1] [wish "p" 1]

/-- A fragment of that host, which imports a later version of the package. -/
def demanding : Manifest :=
  fragment "f" "h" [] [wish "p" 2]

/-- The exporter of the later version. -/
def later : Manifest :=
  bundle "z" [offer "p" 2] []

/-- The world of the three. -/
def superseding : World :=
  world [selfServing, demanding, later]

/-- How the host is resolved in that world: for the fragment it is wired to the
later version. -/
def superseded : Solution where
  host := generation 0 selfServing
  fragments := [generation 1 demanding]
  wires := [⟨"p", offer "p" 2, generation 2 later⟩]
  required := []

end Sample

/-- A wire that a fragment brings can leave an import of the host unsatisfied. -/
theorem Resolver.superseded_import_unsatisfied :
    ∃ answer draft candidate, ∃ requirement ∈ Sample.superseded.members.flatMap
        Generation.imports,
      Sample.superseding.resolver.resolve Sample.superseding.store
          (Sample.generation 0 Sample.selfServing) = .ok answer ∧
      (Sample.superseding.resolver.attempt Sample.superseding.store
          (Sample.generation 0 Sample.selfServing)).result = .ok draft ∧
      draft.candidate? Sample.superseded.host.id = some candidate ∧
      Sample.superseded ∈ answer ∧ requirement.isOptional = false ∧
      ¬ Sample.superseded.Satisfies BootDelegation.none candidate.offers
          requirement := by
  have solved : Sample.superseding.resolver.resolve Sample.superseding.store
      (Sample.generation 0 Sample.selfServing) =
        .ok [Sample.superseded,
          ⟨Sample.generation 2 Sample.later, [], [], []⟩] :=
    Search.eq_ok_of_toOption (by decide +kernel)
  obtain ⟨framework, draft, started, result, _, satisfies⟩ :=
    Resolver.satisfies_import_iff solved
  cases started
  obtain ⟨candidate, found, exactly⟩ := satisfies Sample.superseded
    List.mem_cons_self (by decide +kernel)
  refine ⟨_, draft, candidate, ⟨"p", Sample.wish "p" 1⟩,
    List.mem_cons_self, solved, result, found, List.mem_cons_self, rfl, ?_⟩
  intro satisfied
  have condition := (exactly [] ⟨"p", Sample.wish "p" 1⟩
    [⟨"p", Sample.wish "p" 2⟩] rfl rfl).1 satisfied _ rfl
    ⟨_, List.mem_cons_self, rfl, by decide +kernel⟩
  revert condition
  decide +kernel

end ModuleWiring
