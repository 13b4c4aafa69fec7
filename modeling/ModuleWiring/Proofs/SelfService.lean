import ModuleWiring.Proofs.Asking
import ModuleWiring.Proofs.Termination

/-!
# Imports that a module can serve itself

An import may be left without a wire if the module offers the package itself.  The
search asks only the first of the module's offers of the package whether it meets
the import, and once an earlier import has been wired, only the wire.  Those are the
reasons why an import fails that an offer of the module would meet.
-/

namespace ModuleWiring

/-- A module offers what an import asks for, with one of its own offers, those of
its fragments or those that it re-exports. -/
def BoundModule.CanServe (bound : BoundModule) (requirement : PackageImport) :
    Prop :=
  ∃ offer ∈ bound.offers, offer.package = requirement.package ∧
    requirement.accepts offer.declared (offer.exporter bound.host) = true

/-- What a module has for a package, its wire or else its first offer, does not meet
an import. -/
def BoundModule.Refuses (bound : BoundModule) (requirement : PackageImport) :
    Prop :=
  ∃ wire, bound.target? ⟨bound.host, requirement.package⟩ = some wire ∧
    requirement.accepts wire.declared wire.exporter = false

/-- A module in charge after some of its imports have been decided. -/
structure BoundModule.CarriesOn (search : Search) (bound later : BoundModule) :
    Prop where
  host : later.host = bound.host
  unwired : ∀ package, later.wirings.find? package = none →
    bound.wirings.find? package = none
  offers : ∀ offer ∈ bound.offers,
    later.wirings.find? offer.package = none → offer ∈ later.offers
  delegated : ∀ package,
    search.framework.bootDelegation.covers package = true →
      bound.wirings.find? package = none → later.wirings.find? package = none

theorem BoundModule.CarriesOn.trans
    {search : Search} {bound middle later : BoundModule}
    (first : bound.CarriesOn search middle)
    (second : middle.CarriesOn search later) :
    bound.CarriesOn search later where
  host := second.host.trans first.host
  unwired := fun package none => first.unwired package (second.unwired package none)
  offers := fun offer member none =>
    second.offers offer (first.offers offer member (second.unwired _ none)) none
  delegated := fun package covers none =>
    second.delegated package covers (first.delegated package covers none)

namespace Search

variable {search : Search} {draft next later : Draft}
  {bound module : BoundModule} {requirement : PackageImport}
  {before rest : List PackageImport}

/-! ## How an import is decided -/

/-- An import is left, or it is wired unless it has a wire already or is
delegated. -/
theorem mem_decideImport :
    next ∈ search.decideImport draft bound requirement ↔
      search.LeavesKeeping bound requirement ∧ next = draft.skipImport ∨
        bound.wirings.find? requirement.package = none ∧
          search.framework.bootDelegation.covers requirement.package =
              false ∧
            ∃ choice ∈ search.wireChoices draft requirement,
              wire? draft choice = some next := by
  unfold decideImport drafts importChoices LeavesKeeping
  cases wired : bound.wirings.find? requirement.package with
  | some wire => simp [play?, eq_comm (a := next)]
  | none =>
      unfold Leaves NeedsNoWire
      cases delegated :
          search.framework.bootDelegation.covers requirement.package with
      | true => simp [play?, eq_comm (a := next)]
      | false => simp [play?, wired, or_comm, eq_comm (a := next)]

theorem wire_of_wire?
    {choice : WireChoice} (current : draft.resolvingBound? = some bound)
    (pending : bound.imports = requirement :: rest)
    (wired : wire? draft choice = some next) :
    draft.wire choice.exporter choice.declared = .ok next := by
  unfold wire? at wired
  rw [current] at wired
  dsimp only at wired
  rw [pending] at wired
  dsimp only at wired
  split at wired
  · exact eq_ok_of_toOption wired
  · cases wired

/-- What is left to decide after the next import, however that has been decided. -/
theorem exists_module_of_decideImport
    (current : draft.resolvingBound? = some bound)
    (pending : bound.imports = requirement :: rest)
    (decided : next ∈ search.decideImport draft bound requirement) :
    ∃ module, next.resolvingBound? = some module ∧ module.imports = rest ∧
      bound.CarriesOn search module := by
  rcases mem_decideImport.1 decided with
    ⟨_, rfl⟩ | ⟨unwired, undelegated, choice, offered, wired⟩
  · rw [Draft.skipImport_eq_asking current, pending, List.tail_cons]
    exact ⟨_, Draft.resolvingBound?_asking current rest, rfl, rfl,
      fun _ none => none, fun _ member _ => member, fun _ _ none => none⟩
  · have other := ne_resolving_of_mem_wireChoices offered
    obtain ⟨middle, engaged, rfl⟩ := Draft.exists_of_wire other current
      pending (wire_of_wire? current pending wired)
    have isEngaged := Draft.engaged_of_engage engaged
    refine ⟨_, (isEngaged.replaces current ?_).resolvingBound?_eq, rfl,
      rfl, ?_, ?_, ?_⟩
    · rfl
    · intro package none
      rw [Table.find?_insert] at none
      split at none
      · cases none
      · exact none
    · intro offer member none
      rw [Table.find?_insert] at none
      split at none
      · cases none
      · rename_i different
        exact List.mem_filter.2
          ⟨member, by simpa using fun same => different same.symm⟩
    · intro package covers none
      rw [Table.find?_insert, if_neg]
      · exact none
      · rintro rfl
        rw [undelegated] at covers
        cases covers

/-! ## How imports are decided one after the other -/

/-- Imports are decided in order, each in one of the ways that there are. -/
inductive Leads (search : Search) :
    List PackageImport → Draft → Draft → Prop where
  | nil (draft : Draft) : Leads search [] draft draft
  | cons {first : PackageImport} {others : List PackageImport}
      {draft next later : Draft} {bound : BoundModule} :
      draft.resolvingBound? = some bound →
      next ∈ search.decideImport draft bound first →
      Leads search others next later →
      Leads search (first :: others) draft later

theorem Leads.exists_module
    (leads : search.Leads before draft later)
    (current : draft.resolvingBound? = some bound)
    (pending : bound.imports = before ++ rest) :
    ∃ module, later.resolvingBound? = some module ∧ module.imports = rest ∧
      bound.CarriesOn search module := by
  induction leads generalizing bound with
  | nil draft =>
      exact ⟨bound, current, pending, rfl, fun _ none => none,
        fun _ member _ => member, fun _ _ none => none⟩
  | cons here decided _ inductionHypothesis =>
      cases here.symm.trans current
      obtain ⟨middle, nextCurrent, left, carries⟩ :=
        exists_module_of_decideImport current pending decided
      obtain ⟨module, found, imports, carriesOn⟩ :=
        inductionHypothesis nextCurrent left
      exact ⟨module, found, imports, carries.trans carriesOn⟩

/-! ## What comes out -/

theorem isSome_answer_iff
    (current : draft.resolvingBound? = some bound)
    (pending : bound.imports = requirement :: rest) :
    (search.answer ⟨.wires, draft⟩).isSome = true ↔
      ∃ next ∈ search.decideImport draft bound requirement,
        (search.answer ⟨.wires, next⟩).isSome = true := by
  rw [mirrors_wires.answer_eq]
  simp [callees, current, pending, List.findSome?_isSome_iff]

/-- A search succeeds if and only if it does so in some way of deciding the next
imports. -/
theorem isSome_answer_iff_leads
    (current : draft.resolvingBound? = some bound)
    (pending : bound.imports = before ++ rest) :
    (search.answer ⟨.wires, draft⟩).isSome = true ↔
      ∃ later, search.Leads before draft later ∧
        (search.answer ⟨.wires, later⟩).isSome = true := by
  induction before generalizing draft bound with
  | nil =>
      refine ⟨fun found => ⟨draft, .nil draft, found⟩, ?_⟩
      rintro ⟨_, ⟨⟩, found⟩
      exact found
  | cons first others inductionHypothesis =>
      rw [isSome_answer_iff current pending]
      constructor
      · rintro ⟨next, decided, found⟩
        obtain ⟨module, nextCurrent, left, _⟩ :=
          exists_module_of_decideImport current pending decided
        obtain ⟨later, leads, foundLater⟩ :=
          (inductionHypothesis nextCurrent left).1 found
        exact ⟨later, .cons current decided leads, foundLater⟩
      · rintro ⟨later, leads, foundLater⟩
        cases leads with
        | cons here decided leads =>
            cases here.symm.trans current
            obtain ⟨module, nextCurrent, left, _⟩ :=
              exists_module_of_decideImport current pending decided
            exact ⟨_, decided, (inductionHypothesis nextCurrent left).2
              ⟨later, leads, foundLater⟩⟩

/-- If a search succeeds without an import, then the imports before that one can be
decided so that it succeeds when the import is skipped. -/
theorem exists_leads_of_asking
    (current : draft.resolvingBound? = some bound)
    (pending : bound.imports = before ++ requirement :: rest)
    (found : (search.answer
      ⟨.wires, draft.asking (before ++ rest)⟩).isSome = true) :
    ∃ later, search.Leads before draft later ∧
      (search.answer ⟨.wires, later.skipImport⟩).isSome = true := by
  induction before generalizing draft bound with
  | nil =>
      have skipped : draft.skipImport = draft.asking rest := by
        rw [Draft.skipImport_eq_asking current, pending]
        rfl
      exact ⟨draft, .nil draft, skipped ▸ found⟩
  | cons first others inductionHypothesis =>
      obtain ⟨next, decided, foundNext⟩ := (isSome_answer_iff
        (Draft.resolvingBound?_asking current _) rfl).1 found
      rw [Draft.decideImport_asking current pending] at decided
      obtain ⟨fuller, decidedHere, rfl⟩ := List.mem_map.1 decided
      obtain ⟨module, nextCurrent, left, _⟩ :=
        exists_module_of_decideImport current pending decidedHere
      obtain ⟨later, leads, foundLater⟩ :=
        inductionHypothesis nextCurrent left foundNext
      exact ⟨later, .cons current decidedHere leads, foundLater⟩

/-! ## When an import is overlooked -/

/-- No provider can be wired to the next import so that the rest succeeds. -/
def IsUnserved (search : Search) (draft : Draft)
    (requirement : PackageImport) : Prop :=
  ∀ choice ∈ search.wireChoices draft requirement, ∀ next,
    wire? draft choice = some next → search.answer ⟨.wires, next⟩ = none

/-- A mandatory import fails, however the imports before it are decided: what the
module has for the package first does not meet it wherever the rest succeeds without
it, and no provider serves it. -/
structure IsOverlooked (search : Search) (draft : Draft)
    (before : List PackageImport) (requirement : PackageImport) : Prop where
  mandatory : requirement.isOptional = false
  undelegated :
    search.framework.bootDelegation.covers requirement.package = false
  refused : ∀ later module, search.Leads before draft later →
    later.resolvingBound? = some module →
      (search.answer ⟨.wires, later.skipImport⟩).isSome = true →
        module.Refuses requirement
  unserved : ∀ later, search.Leads before draft later →
    search.IsUnserved later requirement

/-- A module that offers the package leaves a mandatory import unless it refuses
it. -/
theorem leavesKeeping_iff_not_refuses
    (mandatory : requirement.isOptional = false)
    (undelegated :
      search.framework.bootDelegation.covers requirement.package = false)
    (offered : module.wirings.find? requirement.package = none →
      ∃ offer ∈ module.offers, offer.package = requirement.package) :
    search.LeavesKeeping module requirement ↔
      ¬ module.Refuses requirement := by
  unfold LeavesKeeping BoundModule.Refuses BoundModule.target?
  dsimp only
  cases wired : module.wirings.find? requirement.package with
  | some wire => simp [mandatory]
  | none =>
      obtain ⟨offer, member, package⟩ := offered wired
      have isSome : (module.offers.find?
          (·.package = requirement.package)).isSome = true :=
        List.find?_isSome.2 ⟨offer, member, decide_eq_true package⟩
      obtain ⟨first, found⟩ := Option.isSome_iff_exists.1 isSome
      have asked : isSelfServed module requirement = requirement.accepts
          (first.toWire module.host).declared
          (first.toWire module.host).exporter := by
        unfold isSelfServed
        rw [found]
        rfl
      unfold Leaves NeedsNoWire
      rw [asked, found]
      simp [wired, mandatory, undelegated]

/-- If a search succeeds without an import that the module can serve itself, then it
succeeds with the import too, unless the import is overlooked. -/
theorem answer_iff_not_overlooked
    (current : draft.resolvingBound? = some bound)
    (pending : bound.imports = before ++ requirement :: rest)
    (unwired : bound.wirings.find? requirement.package = none)
    (serves : bound.CanServe requirement)
    (skipped : (search.answer
      ⟨.wires, draft.asking (before ++ rest)⟩).isSome = true) :
    (search.answer ⟨.wires, draft⟩).isSome = true ↔
      ¬ search.IsOverlooked draft before requirement := by
  obtain ⟨offer, offered, samePackage, _⟩ := serves
  have follows : ∀ later, search.Leads before draft later →
      ∃ module, later.resolvingBound? = some module ∧
        module.imports = requirement :: rest ∧
        bound.CarriesOn search module ∧
        (module.wirings.find? requirement.package = none →
          ∃ offer ∈ module.offers, offer.package = requirement.package) := by
    intro later leads
    obtain ⟨module, found, left, carries⟩ :=
      leads.exists_module current pending
    exact ⟨module, found, left, carries, fun none => ⟨offer,
      carries.offers offer offered (samePackage ▸ none), samePackage⟩⟩
  rw [isSome_answer_iff_leads current pending]
  constructor
  · rintro ⟨later, leads, found⟩ overlooked
    obtain ⟨module, here, left, _, offers⟩ := follows later leads
    obtain ⟨next, decided, foundNext⟩ := (isSome_answer_iff here left).1 found
    rcases mem_decideImport.1 decided with
      ⟨leaves, rfl⟩ | ⟨_, _, choice, listed, wired⟩
    · exact (leavesKeeping_iff_not_refuses overlooked.mandatory
        overlooked.undelegated offers).1 leaves
          (overlooked.refused later module leads here foundNext)
    · rw [overlooked.unserved later leads choice listed next wired]
        at foundNext
      cases foundNext
  · intro notOverlooked
    by_contra fails
    have leftOut : ∀ later module, search.Leads before draft later →
        later.resolvingBound? = some module →
          module.imports = requirement :: rest →
            (search.answer ⟨.wires, later.skipImport⟩).isSome = true →
              ¬ search.LeavesKeeping module requirement := by
      intro later module leads here left found leaves
      exact fails ⟨later, leads, (isSome_answer_iff here left).2
        ⟨_, mem_decideImport.2 (.inl ⟨leaves, rfl⟩), found⟩⟩
    obtain ⟨start, first, foundFirst⟩ :=
      exists_leads_of_asking current pending skipped
    obtain ⟨module, here, left, carries, _⟩ := follows start first
    have kept := leftOut start module first here left foundFirst
    have mandatory : requirement.isOptional = false := by
      by_contra optional
      rw [Bool.not_eq_false] at optional
      exact kept (leavesKeeping_of_isOptional optional)
    have undelegated :
        search.framework.bootDelegation.covers requirement.package =
          false := by
      by_contra delegated
      rw [Bool.not_eq_false] at delegated
      have none := carries.delegated _ delegated unwired
      refine kept ?_
      unfold LeavesKeeping
      rw [none]
      exact .inl (.inr delegated)
    refine notOverlooked ⟨mandatory, undelegated, ?_, ?_⟩
    · intro later module leads here found
      obtain ⟨other, same, left, _, offers⟩ := follows later leads
      cases same.symm.trans here
      exact not_not.1 fun suits => leftOut later module leads here left found
        ((leavesKeeping_iff_not_refuses mandatory undelegated offers).2 suits)
    · intro later leads choice listed next wired
      obtain ⟨module, here, left, _, _⟩ := follows later leads
      by_contra found
      refine fails ⟨later, leads, (isSome_answer_iff here left).2 ⟨next,
        mem_decideImport.2 (.inr ⟨?_, undelegated, choice, listed, wired⟩),
        Option.isSome_iff_ne_none.2 found⟩⟩
      exact Draft.unwired_of_wire (ne_resolving_of_mem_wireChoices listed)
        here left (wire_of_wire? here left wired)

/-- A host without requires comes to its imports, whatever fragments there are. -/
theorem reaches_wires
    {host : Generation} (known : draft.resolvingGeneration? = some host)
    (notFragment : host.isFragment = false)
    (through : draft.nextRequire? = none) :
    Relation.ReflTransGen search.Calls ⟨.resolve, draft⟩
      ⟨.wires, draft⟩ := by
  obtain ⟨resolving, generation⟩ := Draft.eq_of_resolvingGeneration? known
  have toHost : search.Calls ⟨.resolve, draft⟩ ⟨.host, draft⟩ := by
    simp [Calls, callees, resolving, generation, notFragment]
  have alone : search.Calls ⟨.host, draft⟩ ⟨.bundle, draft⟩ := by
    have none : [] ∈ (subsets ((search.fragmentChoices draft host).map
        Generation.id)).toList :=
      mem_subsets_of_sublist (List.nil_sublist _)
    simp only [Calls, callees, known]
    exact List.mem_filterMap.2 ⟨[], none, rfl⟩
  have toRequires : search.Calls ⟨.bundle, draft⟩ ⟨.requires, draft⟩ := by
    simp [Calls, callees, resolving]
  have toWires : search.Calls ⟨.requires, draft⟩ ⟨.wires, draft⟩ := by
    simp [Calls, callees, through]
  exact (((Relation.ReflTransGen.single toHost).tail alone).tail
    toRequires).tail toWires

end Search

namespace Sample

/-- A host that exports two versions of a package and imports the later one. -/
def provident : Manifest :=
  bundle "h" [offer "p" 1, offer "p" 2] [wish "p" 2]

/-- The world of that host. -/
def frugal : World :=
  world [provident]

/-- What the host asks for. -/
def ownWish : PackageImport :=
  ⟨"p", wish "p" 2⟩

end Sample

namespace Search

/-- A host cannot be resolved that exports what it imports, since it exports another
version of the package before. -/
theorem second_offer_overlooked :
    Sample.frugal.Reachable ∧
    Sample.frugal.resolver.resolve Sample.frugal.store
        (Sample.generation 0 Sample.provident) =
      .error (.noSolution (Sample.generation 0 Sample.provident)) ∧
    ∃ draft bound,
      Draft.initial Sample.frugal.store
          (Sample.frugal.resolver.canonical Sample.frugal.store)
          (Sample.generation 0 Sample.provident) = .ok draft ∧
        Relation.ReflTransGen (Sample.search Sample.frugal).Calls
          ⟨.resolve, draft⟩ ⟨.wires, draft⟩ ∧
        draft.resolvingBound? = some bound ∧
        bound.imports = [Sample.ownWish] ∧
        bound.CanServe Sample.ownWish ∧
        ((Sample.search Sample.frugal).answer
          ⟨.wires, draft.asking []⟩).isSome = true ∧
        (Sample.search Sample.frugal).IsOverlooked draft []
          Sample.ownWish := by
  refine ⟨Sample.reachable_world _, by decide +kernel, ?_⟩
  have facts : (Draft.initial Sample.frugal.store
      (Sample.frugal.resolver.canonical Sample.frugal.store)
      (Sample.generation 0 Sample.provident)).toOption.any (fun draft =>
        draft.resolvingBound?.any fun bound =>
          draft.resolvingGeneration? =
              some (Sample.generation 0 Sample.provident) ∧
            draft.nextRequire? = none ∧
            bound.imports = [Sample.ownWish] ∧
            bound.wirings.find? Sample.ownWish.package = none ∧
            (∃ offer ∈ bound.offers,
              offer.package = Sample.ownWish.package ∧
                Sample.ownWish.accepts offer.declared
                  (offer.exporter bound.host) = true) ∧
            ((Sample.search Sample.frugal).answer
              ⟨.wires, draft.asking []⟩).isSome = true ∧
            ((Sample.search Sample.frugal).answer
              ⟨.wires, draft⟩).isSome = false) = true := by
    decide +kernel
  obtain ⟨draft, made, present⟩ := Option.any_eq_true _ _ |>.1 facts
  obtain ⟨bound, current, holds⟩ := Option.any_eq_true _ _ |>.1 present
  obtain ⟨known, through, pending, unwired, serves, skipped, failed⟩ :=
    of_decide_eq_true holds
  have next : bound.imports = [] ++ Sample.ownWish :: [] := pending
  have exactly :=
    answer_iff_not_overlooked current next unwired serves skipped
  have overlooked : (Sample.search Sample.frugal).IsOverlooked draft []
      Sample.ownWish := by
    by_contra notOverlooked
    rw [exactly.2 notOverlooked] at failed
    cases failed
  exact ⟨draft, bound, eq_ok_of_toOption made,
    reaches_wires known (by decide) through, current, pending, serves,
    skipped, overlooked⟩

end Search

end ModuleWiring
