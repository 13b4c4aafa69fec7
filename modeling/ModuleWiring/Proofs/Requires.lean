import ModuleWiring.Proofs.Partition

/-!
# What becomes of the requires of a module

Every mandatory require that a search takes on is given a provider.  A resolved
host that is bound again takes on no require for whose bundle it has a required wire
by name, though, and nobody looks at the version that the wire leads to.
-/

namespace ModuleWiring

/-- A generation is the bundle that a require asks for. -/
def Require.IsMetBy (require : Require) (exporter : Generation) : Prop :=
  exporter.symbolicName = require.symbolicName ∧
    require.range.includes exporter.version = true

instance (require : Require) (exporter : Generation) :
    Decidable (require.IsMetBy exporter) :=
  inferInstanceAs (Decidable (_ ∧ _))

namespace Store

/-- The required wires that a generation brings into a search. -/
def carriedRequired (store : Store) (generation : Generation) :
    List RequiredWire :=
  if (store.state generation).isResolved then store.requiredWires generation
  else []

/-- The module that a host has been resolved as: it and its fragments. -/
def resolvedMembers (store : Store) (host : Generation) : List Generation :=
  if (store.state host).isResolved then host :: store.fragments host else []

/-- The provisions that a bound module brings into a search. -/
def carriedProvisions (store : Store) (host : Generation) :
    List Provision :=
  (store.carriedRequired host).map fun required =>
    ⟨required.require, required.exporter⟩

/-- A generation brings a required wire for the name of a require into a
search. -/
def Covers (store : Store) (host : Generation) (require : Require) : Prop :=
  ∃ carried ∈ store.carriedProvisions host,
    carried.require.symbolicName = require.symbolicName

variable {store : Store} {host : Generation}

theorem carriedProvisions_eq_nil
    (unresolved : (store.state host).isResolved = false) :
    store.carriedProvisions host = [] := by
  simp [carriedProvisions, carriedRequired, unresolved]

theorem carriedProvisions_eq
    (resolved : (store.state host).isResolved = true) :
    store.carriedProvisions host = (ResolvedModule.of store host).required := by
  simp [carriedProvisions, carriedRequired, resolved, ResolvedModule.of]

end Store

namespace Search

theorem isMetBy_of_provides
    {require : Require} {provider : Generation}
    (provided : provides require provider = true) :
    require.IsMetBy provider := by
  simp only [provides, Bool.and_eq_true, decide_eq_true_eq] at provided
  exact ⟨provided.1.2, provided.2⟩

/-- The requires of a bound module are accounted for: a mandatory one that the
search has taken on is covered by what the host brought with it, waits to be
decided, or is met. -/
structure Entrusted (store : Store) (bound : BoundModule) : Prop where
  /-- Nothing that the host brought with it is lost. -/
  kept : store.carriedProvisions bound.host ⊆ bound.required
  chosen : ∀ provision ∈ bound.required,
    provision ∈ store.carriedProvisions bound.host ∨
      provision.require.IsMetBy provision.provider ∧
        ¬ store.Covers bound.host provision.require
  pending : ∀ require ∈ bound.requires, ¬ store.Covers bound.host require
  accounted : ∀ member ∈ bound.host :: bound.fragments,
    member ∉ store.resolvedMembers bound.host →
      ∀ require ∈ member.manifest.requires, require.isOptional = false →
        store.Covers bound.host require ∨ require ∈ bound.requires ∨
          ∃ provision ∈ bound.required,
            require.IsMetBy provision.provider

namespace Entrusted

variable {store : Store} {bound new : BoundModule} {search : Search}

/-- A fresh host has all requires of its own and of its fragments to decide. -/
theorem of_fresh
    {installed : Generation} {joined : List Generation}
    (alone : store.carriedProvisions installed = [])
    (taken : (BoundModule.of installed).TakesOn joined new) :
    Entrusted store new := by
  have host : new.host = installed := taken.host
  have uncovered : ∀ require, ¬ store.Covers installed require := by
    simp [Store.Covers, alone]
  have none : new.required = [] := taken.required
  have requires : new.requires = installed.manifest.requires ++
      joined.flatMap (·.manifest.requires) := taken.requires_eq rfl
  refine ⟨?_, ?_, ?_, ?_⟩
  · rw [host, alone]
    exact List.nil_subset _
  · simp [none]
  · rw [host]
    exact fun require _ => uncovered require
  · intro member listed _ require needed _
    refine .inr (.inl ?_)
    rw [requires]
    rw [host, taken.fragments] at listed
    rcases List.mem_cons.1 listed with rfl | joins
    · exact List.mem_append_left _ needed
    · exact List.mem_append_right _
        (List.mem_flatMap.2 ⟨member, joins, needed⟩)

/-- A host that is bound again has those requires of its new fragments to decide
that it does not cover. -/
theorem of_reopened
    {generation : Generation} {joined : List Generation}
    {imports : List PackageImport}
    (resolved : (store.state generation).isResolved = true)
    (taken : BoundModule.TakesOn
      { BoundModule.reopen (.of store generation) with imports := imports }
      joined new) :
    Entrusted store new := by
  have host : new.host = generation := taken.host
  have carried : new.required = store.carriedProvisions new.host := by
    rw [host, Store.carriedProvisions_eq resolved]
    exact taken.required
  have fragments : new.fragments = store.fragments generation ++ joined :=
    taken.fragments
  have requires := taken.requires_eq_append
  have suppressed : ∀ fragment require,
      require ∈ BoundModule.pendingRequires
        { BoundModule.reopen (.of store generation) with imports := imports }
        fragment ↔
      require ∈ fragment.manifest.requires ∧
        ¬ store.Covers new.host require := by
    intro fragment require
    rw [host]
    simp [BoundModule.pendingRequires, Store.Covers,
      Store.carriedProvisions_eq resolved, BoundModule.reopen]
  refine ⟨?_, ?_, ?_, ?_⟩
  · rw [carried]
    exact List.Subset.refl _
  · intro provision member
    exact .inl (carried ▸ member)
  · intro require member
    rw [requires] at member
    obtain ⟨fragment, _, needed⟩ := List.mem_flatMap.1 member
    exact ((suppressed fragment require).1 needed).2
  · intro member listed isNew require needed _
    by_cases covered : store.Covers new.host require
    · exact .inl covered
    · have joins : member ∈ joined := by
        rw [host] at listed isNew
        rw [fragments] at listed
        simp only [Store.resolvedMembers, resolved, if_true,
          List.mem_cons, not_or] at isNew
        rcases List.mem_cons.1 listed with own | fragment
        · exact absurd own isNew.1
        · exact (List.mem_append.1 fragment).resolve_left isNew.2
      refine .inr (.inl ?_)
      rw [requires]
      exact List.mem_flatMap.2
        ⟨member, joins, (suppressed member require).2 ⟨needed, covered⟩⟩

/-- Requires that are decided stay accounted for. -/
theorem deciding
    {draft after : Draft} (entrusted : Entrusted store bound)
    (step : Deciding search draft after bound new) :
    Entrusted store new := by
  cases step with
  | leaveImport _ _ _ =>
      exact ⟨entrusted.kept, entrusted.chosen, entrusted.pending,
        entrusted.accounted⟩
  | wire _ _ _ _ _ _ _ =>
      exact ⟨entrusted.kept, entrusted.chosen, entrusted.pending,
        entrusted.accounted⟩
  | @leaveRequire _ left rest _ next optional =>
      refine ⟨entrusted.kept, entrusted.chosen, ?_, ?_⟩
      · exact fun require member =>
          entrusted.pending require (next ▸ List.mem_cons_of_mem _ member)
      · intro member listed isNew require needed mandatory
        rcases entrusted.accounted member listed isNew require needed
          mandatory with covered | waits | met
        · exact .inl covered
        · rw [next] at waits
          rcases List.mem_cons.1 waits with rfl | later
          · rw [mandatory] at optional
            cases optional
          · exact .inr (.inl later)
        · exact .inr (.inr met)
  | @provide _ _ decided rest provider _ next offered _ _ _ =>
      have isMet : decided.IsMetBy provider :=
        isMetBy_of_provides (mem_requireChoices offered).2.2
      refine ⟨?_, ?_, ?_, ?_⟩
      · exact fun provision member =>
          List.mem_append_left _ (entrusted.kept member)
      · intro provision member
        rcases List.mem_append.1 member with old | last
        · exact entrusted.chosen provision old
        · rw [List.mem_singleton.1 last]
          exact .inr ⟨isMet,
            entrusted.pending decided (next ▸ List.mem_cons_self)⟩
      · exact fun require member =>
          entrusted.pending require (next ▸ List.mem_cons_of_mem _ member)
      · intro member listed isNew require needed mandatory
        rcases entrusted.accounted member listed isNew require needed
          mandatory with covered | waits | ⟨provision, provided, met⟩
        · exact .inl covered
        · rw [next] at waits
          rcases List.mem_cons.1 waits with rfl | later
          · exact .inr (.inr ⟨⟨require, provider⟩,
              List.mem_append_right _ List.mem_cons_self, isMet⟩)
          · exact .inr (.inl later)
        · exact .inr (.inr
            ⟨provision, List.mem_append_left _ provided, met⟩)

end Entrusted

variable {search : Search} {store : Store}

theorem entrusted_of_line
    {node final : Node} (line : search.problem.Line node final)
    (scheduled : Scheduled node)
    (given : Everywhere (Candidate.IsGiven store) node) :
    Everywhere (StoredOr store (Entrusted store)) final := by
  refine storedOr_of_line line scheduled given ?_
    (fun wasResolved taken => .of_reopened wasResolved taken)
    fun step entrusted => entrusted.deciding step
  intro installed joined new begun taken
  refine .of_fresh ?_ taken
  rcases begun with notResolved | waiting
  · exact Store.carriedProvisions_eq_nil notResolved
  · exact List.subset_nil.1 waiting.kept

end Search

open Search

/-- When all requires of a bound module are decided, one that it has taken on is met
unless the host covers it, and then only a wire that the host brought with it can
meet it. -/
theorem Search.Entrusted.exists_isMetBy_iff
    {store : Store} {bound : BoundModule}
    (entrusted : Entrusted store bound) (through : bound.requires = [])
    {member : Generation} {require : Require}
    (listed : member ∈ bound.host :: bound.fragments)
    (isNew : member ∉ store.resolvedMembers bound.host)
    (needed : require ∈ member.manifest.requires)
    (mandatory : require.isOptional = false) :
    (∃ provision ∈ bound.required, require.IsMetBy provision.provider) ↔
      (store.Covers bound.host require →
        ∃ provision ∈ store.carriedProvisions bound.host,
          require.IsMetBy provision.provider) := by
  constructor
  · rintro ⟨provision, provided, met⟩ covered
    rcases entrusted.chosen provision provided with carried | ⟨own, other⟩
    · exact ⟨provision, carried, met⟩
    · -- A chosen provider bears the name of its own require.
      have sameName : provision.require.symbolicName =
          require.symbolicName := own.1.symm.trans met.1
      refine absurd ?_ other
      unfold Store.Covers
      rw [sameName]
      exact covered
  · intro kept
    rcases entrusted.accounted member listed isNew require needed
      mandatory with covered | waits | met
    · obtain ⟨provision, carried, met⟩ := kept covered
      exact ⟨provision, entrusted.kept carried, met⟩
    · rw [through] at waits
      cases waits
    · exact met

/-- A mandatory require that an answer takes on, of a module that is newly resolved
or of a fragment that newly joins one, is met by a required wire exactly if the host
did not have a required wire of that name before or had one that meets it. -/
theorem Resolver.meets_require_iff
    {resolver : Resolver} {store : Store} {target : Generation}
    {answer : List Solution}
    (solved : resolver.resolve store target = .ok answer)
    {solution : Solution} (answered : solution ∈ answer)
    {member : Generation} (listed : member ∈ solution.members)
    (isNew : member ∉ store.resolvedMembers solution.host)
    {require : Require} (needed : require ∈ member.manifest.requires)
    (mandatory : require.isOptional = false) :
    (∃ required ∈ solution.required, require.IsMetBy required.exporter) ↔
      ((∃ carried ∈ store.carriedRequired solution.host,
          carried.require.symbolicName = require.symbolicName) →
        ∃ carried ∈ store.carriedRequired solution.host,
          require.IsMetBy carried.exporter) := by
  obtain ⟨final, result, rfl⟩ := exists_of_solutions solved
  obtain ⟨framework, start, _, _, run⟩ := exists_run_of_attempt result
  obtain ⟨id, settled, bound, found, rfl⟩ :=
    Draft.exists_of_mem_solutions answered
  have entrusted : Entrusted store bound :=
    entrusted_of_line run.line run.scheduled
      (fun _ _ hit => (run.begins.given hit).2) found
  obtain ⟨other, otherFound, _, through⟩ := run.finished.settled id settled
  rw [found] at otherFound
  cases otherFound
  have exactly := entrusted.exists_isMetBy_iff through listed isNew needed
    mandatory
  simpa [Draft.solutionOf, Store.Covers, Store.carriedProvisions]
    using exactly

namespace Sample

/-- A mandatory require of the versions of a bundle with one major number. -/
def need (name : String) (major : UInt64) : Require :=
  { Require.of name with range := (wish name major).range }

/-- A host that requires a bundle. -/
def anchored : Manifest :=
  { bundle "h" [] [] with requires := [need "b" 1] }

/-- The bundle, of the version that the host requires. -/
def library : Manifest :=
  bundle "b" [] []

/-- A fragment of the host, which requires a later version of the bundle. -/
def upgrading : Manifest :=
  { fragment "f" "h" [] [] with requires := [need "b" 2] }

/-- The world of the two bundles in which the host is resolved before the fragment
is installed. -/
def outdated : World :=
  ((world [anchored, library]).applying (generation 0 anchored)
    fun _ => true).installing (id 2, upgrading)

/-- How the fragment is resolved in that world: the host keeps its required
wire. -/
def unmet : Solution where
  host := generation 0 anchored
  fragments := [generation 2 upgrading]
  wires := []
  required := [⟨need "b" 1, generation 1 library, false, []⟩]

end Sample

/-- A fragment joins a host although no required wire meets its mandatory
require. -/
theorem Resolver.outdated_require_unmet :
    Sample.outdated.resolver.resolve Sample.outdated.store
        (Sample.generation 2 Sample.upgrading) = .ok [Sample.unmet] ∧
      Sample.need "b" 2 ∈ Sample.upgrading.requires ∧
      (Sample.need "b" 2).isOptional = false ∧
      ¬ ∃ required ∈ Sample.unmet.required,
        (Sample.need "b" 2).IsMetBy required.exporter := by
  have solved : Sample.outdated.resolver.resolve Sample.outdated.store
      (Sample.generation 2 Sample.upgrading) = .ok [Sample.unmet] :=
    Search.eq_ok_of_toOption (by decide +kernel)
  have joined : Sample.generation 2 Sample.upgrading ∈
      Sample.unmet.members := by decide +kernel
  have isNew : Sample.generation 2 Sample.upgrading ∉
      Sample.outdated.store.resolvedMembers Sample.unmet.host := by
    decide +kernel
  refine ⟨solved, List.mem_cons_self, rfl, ?_⟩
  rw [Resolver.meets_require_iff solved List.mem_cons_self joined isNew
    List.mem_cons_self rfl]
  decide +kernel

end ModuleWiring
