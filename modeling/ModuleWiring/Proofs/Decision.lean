import ModuleWiring.Proofs.Backtracking
import ModuleWiring.Proofs.Choices

/-!
# What one move decides

Every step of a search is one of a few decisions.  Each of them says under which
conditions it is taken and which draft it makes, so that no other proof has to
look into the moves again.
-/

namespace ModuleWiring

namespace Draft

/-- A candidate takes part from now on: it did so already, it was resolved
before, or it is bound and queued. -/
inductive Engaged (draft : Draft) (id : GenerationId) : Draft → Prop where
  | already :
      (∀ installed, draft.candidate? id ≠ some (.unresolved installed)) →
      Engaged draft id draft
  | use :
      (∀ installed, draft.candidate? id ≠ some (.unresolved installed)) →
      Engaged draft id (draft.use id)
  | enlist {installed : Generation} {singletons : Table String GenerationId} :
      draft.candidate? id = some (.unresolved installed) →
      Engaged draft id
        { (draft.put (.bound (.of installed))).use id with
          queue := draft.queue ++ [id], singletons := singletons }

theorem engaged_of_enlist
    {draft result : Draft} {id : GenerationId} {installed : Generation}
    (found : draft.candidate? id = some (.unresolved installed))
    (done : draft.enlist id = .ok result) :
    draft.Engaged id result := by
  simp only [enlist, found] at done
  cases registered : draft.registerSingleton installed with
  | error conflict =>
      rw [registered] at done
      cases done
  | ok middle =>
      rw [registered] at done
      cases done
      rw [registerSingleton_eq registered]
      exact .enlist found

theorem engaged_of_engage
    {draft result : Draft} {id : GenerationId}
    (done : draft.engage id = .ok result) :
    draft.Engaged id result := by
  unfold engage at done
  split at done
  · rename_i installed found
    exact engaged_of_enlist found done
  · rename_i wired found
    cases done
    split
    · exact .use (by simp [found])
    · exact .already (by simp [found])
  · rename_i notUnresolved _
    cases done
    exact .already notUnresolved

theorem Engaged.resolving
    {draft result : Draft} {id : GenerationId}
    (engaged : draft.Engaged id result) :
    result.resolving = draft.resolving := by
  cases engaged <;> rfl

theorem Engaged.settled
    {draft result : Draft} {id : GenerationId}
    (engaged : draft.Engaged id result) :
    result.settled = draft.settled := by
  cases engaged <;> rfl

theorem Engaged.store
    {draft result : Draft} {id : GenerationId}
    (engaged : draft.Engaged id result) :
    result.store = draft.store := by
  cases engaged <;> rfl

/-- Whoever takes part goes on to do so. -/
theorem Engaged.used
    {draft result : Draft} {id other : GenerationId}
    (engaged : draft.Engaged id result)
    (before : draft.used.contains other = true) :
    result.used.contains other = true := by
  cases engaged with
  | already _ => exact before
  | use _ => exact (Roster.contains_insert _ _ _).2 (.inr before)
  | enlist _ => exact (Roster.contains_insert _ _ _).2 (.inr before)

/-- Engaging a candidate changes no other one. -/
theorem Engaged.candidate?_of_ne
    {draft result : Draft} {id other : GenerationId}
    (engaged : draft.Engaged id result) (different : id ≠ other) :
    result.candidate? other = draft.candidate? other := by
  cases engaged with
  | already _ => rfl
  | use _ => rfl
  | @enlist installed singletons found =>
      have same : installed.id = id := id_of_candidate? found
      have put := candidate?_put draft (.bound (.of installed)) other
      rw [if_neg (by rw [id_bound]; exact same ▸ different)] at put
      exact put

/-- A candidate that is engaged stays as it is, unless it is bound. -/
theorem Engaged.candidate?_self
    {draft result : Draft} {id : GenerationId}
    (engaged : draft.Engaged id result) :
    result.candidate? id = draft.candidate? id ∨
      ∃ installed, draft.candidate? id = some (.unresolved installed) ∧
        result.candidate? id = some (.bound (.of installed)) := by
  cases engaged with
  | already _ => exact .inl rfl
  | use _ => exact .inl rfl
  | @enlist installed singletons found =>
      have same : installed.id = id := id_of_candidate? found
      have put := candidate?_put draft (.bound (.of installed)) id
      rw [if_pos (by rw [id_bound]; exact same)] at put
      exact .inr ⟨installed, found, put⟩

theorem Engaged.generation?
    {draft result : Draft} {id : GenerationId}
    (engaged : draft.Engaged id result) (other : GenerationId) :
    result.generation? other = draft.generation? other := by
  unfold Draft.generation?
  by_cases different : id = other
  · subst different
    rcases engaged.candidate?_self with same | ⟨installed, before, after⟩
    · rw [same]
    · rw [before, after]
      rfl
  · rw [engaged.candidate?_of_ne different]

theorem Engaged.resolvingBound?
    {draft result : Draft} {id : GenerationId}
    (engaged : draft.Engaged id result)
    (other : draft.resolving ≠ some id) :
    result.resolvingBound? = draft.resolvingBound? :=
  resolvingBound?_eq_of_others engaged.resolving
    (fun _ different => engaged.candidate?_of_ne different) other

/-- A candidate that is engaged is not untouched any more. -/
theorem Engaged.notUnresolved
    {draft result : Draft} {id : GenerationId}
    (engaged : draft.Engaged id result) (installed : Generation) :
    result.candidate? id ≠ some (.unresolved installed) := by
  cases engaged with
  | already notUnresolved => exact notUnresolved installed
  | use notUnresolved => exact notUnresolved installed
  | @enlist generation _ found =>
      have same : generation.id = id := id_of_candidate? found
      intro hit
      change (draft.put (.bound (.of generation))).candidate? id = _ at hit
      rw [candidate?_put, id_bound, if_pos (by exact same)] at hit
      cases hit

/-- It is not, whatever module is bound after that. -/
theorem Engaged.notUnresolved_put
    {draft middle : Draft} {id : GenerationId}
    (engaged : draft.Engaged id middle) (new : BoundModule)
    (installed : Generation) :
    (middle.put (.bound new)).candidate? id ≠
      some (.unresolved installed) := by
  intro hit
  rw [candidate?_put] at hit
  split at hit
  · cases hit
  · exact engaged.notUnresolved installed hit

/-- Accepting a provider for the next require. -/
theorem acceptRequire_eq
    {draft : Draft} {bound : BoundModule} {provider : Generation}
    {require : Require} {rest : List Require}
    (known : draft.generation? provider.id = some provider)
    (resolving : draft.resolvingBound? = some bound)
    (next : bound.requires = require :: rest) :
    draft.acceptRequire provider.id =
      draft.put (.bound ({ bound with requires := rest }.addProvision
        ⟨require, provider⟩
        (if require.isReexport then draft.visible provider else []))) := by
  simp only [acceptRequire, known, resolving, next]

/-- The next require of a module is met by a provider that has been engaged. -/
theorem Engaged.acceptRequire_eq
    {draft middle : Draft} {bound : BoundModule} {provider : Generation}
    {require : Require} {rest : List Require}
    (engaged : draft.Engaged provider.id middle)
    (known : draft.generation? provider.id = some provider)
    (other : draft.resolving ≠ some provider.id)
    (resolving : draft.resolvingBound? = some bound)
    (next : bound.requires = require :: rest) :
    middle.acceptRequire provider.id =
      middle.put (.bound ({ bound with requires := rest }.addProvision
        ⟨require, provider⟩
        (if require.isReexport then middle.visible provider else []))) :=
  Draft.acceptRequire_eq ((engaged.generation? _).trans known)
    ((engaged.resolvingBound? other).trans resolving) next

/-- To skip a require is to put the module back with the others. -/
theorem skipRequire_eq
    {draft : Draft} {bound : BoundModule} {require : Require}
    {rest : List Require}
    (resolving : draft.resolvingBound? = some bound)
    (next : bound.requires = require :: rest) :
    draft.skipRequire =
      draft.put (.bound { bound with requires := rest }) := by
  simp only [skipRequire, changeResolving, resolving, next, List.tail_cons]

theorem skipImport_eq
    {draft : Draft} {bound : BoundModule} {requirement : PackageImport}
    {rest : List PackageImport}
    (resolving : draft.resolvingBound? = some bound)
    (next : bound.imports = requirement :: rest) :
    draft.skipImport = draft.put (.bound { bound with imports := rest }) := by
  simp only [skipImport, changeResolving, resolving, next, List.tail_cons]

/-- Wiring the next import engages the exporter and gives the host the wire in
place of its own offers. -/
theorem exists_of_wire
    {draft result : Draft} {exporter : Generation} {declared : Export}
    {bound : BoundModule} {requirement : PackageImport}
    {rest : List PackageImport}
    (other : draft.resolving ≠ some exporter.id)
    (resolving : draft.resolvingBound? = some bound)
    (next : bound.imports = requirement :: rest)
    (done : draft.wire exporter declared = .ok result) :
    ∃ middle, draft.engage exporter.id = .ok middle ∧
      result = middle.put (.bound { bound with
        imports := rest
        wirings := bound.wirings.insert requirement.package
          ⟨requirement.package, declared, exporter⟩
        offers := bound.offers.filter
          (·.package ≠ requirement.package) }) := by
  unfold wire at done
  cases engaged : draft.engage exporter.id with
  | error conflict =>
      rw [engaged] at done
      cases done
  | ok middle =>
      have kept := (engaged_of_engage engaged).resolvingBound? other
      rw [resolving] at kept
      simp only [engaged, bind, Except.bind, kept, next] at done
      unfold BoundModule.addWiring at done
      split at done
      · cases done
      · rename_i added
        split at added
        · cases added
        · cases added
          cases done
          exact ⟨middle, rfl, rfl⟩

/-- The next import of a module can be wired, if the exporter can be engaged and
the package has no wire. -/
theorem wire_eq_ok
    {draft middle : Draft} {exporter : Generation} (declared : Export)
    {bound : BoundModule} {requirement : PackageImport}
    {rest : List PackageImport}
    (engaged : draft.engage exporter.id = .ok middle)
    (other : draft.resolving ≠ some exporter.id)
    (resolving : draft.resolvingBound? = some bound)
    (next : bound.imports = requirement :: rest)
    (unwired : bound.wirings.find? requirement.package = none) :
    draft.wire exporter declared = .ok (middle.put (.bound { bound with
      imports := rest
      wirings := bound.wirings.insert requirement.package
        ⟨requirement.package, declared, exporter⟩
      offers := bound.offers.filter
        (·.package ≠ requirement.package) })) := by
  have kept := (engaged_of_engage engaged).resolvingBound? other
  rw [resolving] at kept
  have absent : bound.wirings.contains requirement.package = false := by
    simp [Table.contains, unwired]
  simp [wire, engaged, bind, Except.bind, kept, next, BoundModule.addWiring,
    absent, pure, Except.pure]

end Draft

namespace Search

/-- The next import needs no wire: the package has one already, the import is
optional, the runtime serves the package or the module does. -/
def MayLeave (search : Search) (bound : BoundModule)
    (requirement : PackageImport) : Prop :=
  (∃ wire, bound.wirings.find? requirement.package = some wire ∧
      requirement.accepts wire.declared wire.exporter = true) ∨
    requirement.isOptional = true ∨
    search.framework.bootDelegation.covers requirement.package = true ∨
    (bound.wirings.find? requirement.package = none ∧
      isSelfServed bound requirement = true)

/-- The decisions that a search can take, with the positions that they lead
to. -/
inductive Decision (search : Search) : Node → Node → Prop where
  | idle {draft : Draft} :
      draft.resolving = none →
      Decision search ⟨.start, draft⟩ ⟨.requires, draft⟩
  | attach {draft result : Draft} {fragment host : Generation} :
      draft.resolving = some fragment.id →
      draft.candidate? fragment.id = some (.unresolved fragment) →
      fragment.isFragment = true →
      host ∈ search.hostChoices draft fragment →
      draft.attachFragment fragment.id host.id = .ok result →
      Decision search ⟨.start, draft⟩ ⟨.requires, result⟩
  | bind {draft result : Draft} {id : GenerationId} {candidate : Candidate}
      {fragments : List GenerationId} :
      draft.resolving = some id →
      draft.candidate? id = some candidate →
      candidate.generation.isFragment = false →
      fragments.Sublist ((search.fragmentChoices draft
        candidate.generation).map Generation.id) →
      bind? draft id fragments = some result →
      Decision search ⟨.start, draft⟩ ⟨.requires, result⟩
  | toImports {draft : Draft} :
      draft.resolving.isSome = true → draft.nextRequire? = none →
      Decision search ⟨.requires, draft⟩ ⟨.imports, draft⟩
  | leaveRequire {draft : Draft} {bound : BoundModule} {require : Require}
      {rest : List Require} :
      draft.resolvingBound? = some bound →
      bound.requires = require :: rest →
      require.isOptional = true →
      Decision search ⟨.requires, draft⟩
        ⟨.requires, draft.put (.bound { bound with requires := rest })⟩
  | provide {draft middle : Draft} {bound : BoundModule} {require : Require}
      {rest : List Require} {provider : Generation} :
      draft.resolvingBound? = some bound →
      bound.requires = require :: rest →
      provider ∈ search.requireChoices draft require →
      isRequireConsistent draft provider = true →
      draft.Engaged provider.id middle →
      Decision search ⟨.requires, draft⟩
        ⟨.requires, middle.put (.bound
          ({ bound with requires := rest }.addProvision ⟨require, provider⟩
            (if require.isReexport then middle.visible provider else [])))⟩
  | leaveImport {draft : Draft} {bound : BoundModule}
      {requirement : PackageImport} {rest : List PackageImport} :
      draft.resolvingBound? = some bound →
      bound.imports = requirement :: rest →
      search.MayLeave bound requirement →
      Decision search ⟨.imports, draft⟩
        ⟨.imports, draft.put (.bound { bound with imports := rest })⟩
  | wire {draft middle : Draft} {bound : BoundModule}
      {requirement : PackageImport} {rest : List PackageImport}
      {choice : WireChoice} :
      draft.resolvingBound? = some bound →
      bound.imports = requirement :: rest →
      bound.wirings.find? requirement.package = none →
      search.framework.bootDelegation.covers requirement.package = false →
      choice ∈ search.wireChoices draft requirement →
      isWireConsistent draft bound requirement.package choice = true →
      draft.Engaged choice.exporter.id middle →
      Decision search ⟨.imports, draft⟩
        ⟨.imports, middle.put (.bound { bound with
          imports := rest
          wirings := bound.wirings.insert requirement.package
            ⟨requirement.package, choice.declared, choice.exporter⟩
          offers := bound.offers.filter
            (·.package ≠ requirement.package) })⟩
  | settle {phase : Phase} {draft : Draft} :
      phase = .requires ∧ draft.resolving = none ∨
        phase = .imports ∧ (∀ bound, draft.resolvingBound? = some bound →
          bound.imports = []) →
      Decision search ⟨phase, draft⟩ (settle draft)

variable {search : Search}

theorem eq_ok_of_toOption
    {ε α : Type} {outcome : Except ε α} {result : α}
    (done : outcome.toOption = some result) :
    outcome = .ok result := by
  cases outcome with
  | error fault => cases done
  | ok value =>
      cases done
      rfl

theorem decision_of_startMoves
    {draft : Draft} {move : Move} {result : Node}
    (member : move ∈ (search.startMoves draft).toList)
    (played : play? ⟨.start, draft⟩ move = some result) :
    Decision search ⟨.start, draft⟩ result := by
  unfold startMoves at member
  split at member
  · rename_i resolving
    cases List.mem_singleton.1 member
    cases played
    exact .idle resolving
  · rename_i id resolving
    split at member
    · cases member
    · rename_i candidate found
      split at member
      · rename_i isFragment
        split at member
        · rename_i free
          simp only [Bool.and_eq_true, Bool.not_eq_true'] at free
          rw [Alternatives.toList_ofList] at member
          obtain ⟨host, offered, rfl⟩ := List.mem_map.1 member
          obtain ⟨next, attached, rfl⟩ := Option.map_eq_some_iff.1 played
          cases candidate with
          | unresolved installed =>
              have same : installed.id = id := Draft.id_of_candidate? found
              subst same
              exact .attach resolving found isFragment offered
                (eq_ok_of_toOption attached)
          | resolved wired => simp [isUnresolved] at free
          | bound binding => simp [isUnresolved] at free
        · cases member
      · rename_i notFragment
        rw [Alternatives.toList_map] at member
        obtain ⟨fragments, chosen, rfl⟩ := List.mem_map.1 member
        obtain ⟨next, bound, rfl⟩ := Option.map_eq_some_iff.1 played
        exact .bind resolving found (Bool.eq_false_iff.2 notFragment)
          (sublist_of_mem_subsets chosen) bound

theorem engaged_of_provide?
    {draft result : Draft} {provider : Generation} {bound : BoundModule}
    {require : Require} {rest : List Require}
    (resolving : draft.resolvingBound? = some bound)
    (next : bound.requires = require :: rest)
    (known : draft.generation? provider.id = some provider)
    (other : draft.resolving ≠ some provider.id)
    (played : provide? draft provider = some result) :
    isRequireConsistent draft provider = true ∧
      ∃ middle, draft.Engaged provider.id middle ∧
        result = middle.put (.bound
          ({ bound with requires := rest }.addProvision ⟨require, provider⟩
            (if require.isReexport then middle.visible provider
              else []))) := by
  have accepted : ∀ {middle : Draft}, draft.Engaged provider.id middle →
      middle.acceptRequire provider.id = middle.put (.bound
        ({ bound with requires := rest }.addProvision ⟨require, provider⟩
          (if require.isReexport then middle.visible provider
            else []))) :=
    fun engaged => engaged.acceptRequire_eq known other resolving next
  unfold provide? at played
  split at played
  · rename_i consistent
    refine ⟨consistent, ?_⟩
    split at played
    · rename_i wired found
      have notUnresolved : ∀ installed, draft.candidate? provider.id ≠
          some (.unresolved installed) := by simp [found]
      cases played
      unfold Draft.requireResolved
      split
      · exact ⟨_, .use notUnresolved, accepted (.use notUnresolved)⟩
      · exact ⟨_, .already notUnresolved,
          accepted (.already notUnresolved)⟩
    · rename_i binding found
      have notUnresolved : ∀ installed, draft.candidate? provider.id ≠
          some (.unresolved installed) := by simp [found]
      cases played
      exact ⟨_, .already notUnresolved, accepted (.already notUnresolved)⟩
    · rename_i installed found
      have done := eq_ok_of_toOption played
      unfold Draft.requireUnresolved at done
      cases enlisted : draft.enlist provider.id with
      | error conflict =>
          rw [enlisted] at done
          cases done
      | ok middle =>
          rw [enlisted] at done
          cases done
          have engaged := Draft.engaged_of_enlist found enlisted
          exact ⟨middle, engaged, accepted engaged⟩
    · cases played
  · cases played

/-- A consistent provider that can be engaged meets the next require. -/
theorem provide?_eq_some
    {draft middle : Draft} {provider : Generation} {bound : BoundModule}
    {require : Require} {rest : List Require}
    (resolving : draft.resolvingBound? = some bound)
    (next : bound.requires = require :: rest)
    (known : draft.generation? provider.id = some provider)
    (other : draft.resolving ≠ some provider.id)
    (consistent : isRequireConsistent draft provider = true)
    (engaged : draft.engage provider.id = .ok middle) :
    provide? draft provider = some (middle.put (.bound
      ({ bound with requires := rest }.addProvision ⟨require, provider⟩
        (if require.isReexport then middle.visible provider else [])))) := by
  have accepted := (Draft.engaged_of_engage engaged).acceptRequire_eq known
    other resolving next
  obtain ⟨candidate, found, _⟩ := Option.map_eq_some_iff.1 known
  unfold Draft.engage at engaged
  unfold provide?
  rw [if_pos consistent, ← accepted]
  rw [found] at engaged ⊢
  cases candidate with
  | unresolved installed =>
      simp only [Draft.requireUnresolved, engaged, bind, Except.bind, pure,
        Except.pure, Except.toOption]
  | resolved wired =>
      cases engaged
      rfl
  | bound binding =>
      cases engaged
      rfl

theorem decision_of_requireMoves
    {draft : Draft} {move : Move} {result : Node}
    (member : move ∈ search.requireMoves draft)
    (played : play? ⟨.requires, draft⟩ move = some result) :
    Decision search ⟨.requires, draft⟩ result := by
  unfold requireMoves at member
  split at member
  · rename_i resolving
    cases List.mem_singleton.1 member
    cases played
    exact .settle (.inl ⟨rfl, resolving⟩)
  · rename_i id resolving
    split at member
    · rename_i through
      cases List.mem_singleton.1 member
      cases played
      exact .toImports (by rw [resolving]; rfl) through
    · rename_i require next
      obtain ⟨bound, current, head⟩ := Option.bind_eq_some_iff.1 next
      obtain ⟨rest, requires⟩ : ∃ rest, bound.requires = require :: rest :=
        List.head?_eq_some_iff.1 head
      rcases List.mem_append.1 member with provided | left
      · obtain ⟨provider, offered, rfl⟩ := List.mem_map.1 provided
        obtain ⟨after, done, rfl⟩ := Option.map_eq_some_iff.1 played
        obtain ⟨known, other, _⟩ := mem_requireChoices offered
        obtain ⟨consistent, middle, engaged, rfl⟩ :=
          engaged_of_provide? current requires known other done
        exact .provide current requires offered consistent engaged
      · split at left
        · rename_i optional
          cases List.mem_singleton.1 left
          cases played
          rw [Draft.skipRequire_eq current requires]
          exact .leaveRequire current requires optional
        · cases left

theorem decision_of_importChoices
    {draft : Draft} {bound : BoundModule} {requirement : PackageImport}
    {rest : List PackageImport} {move : Move} {result : Node}
    (resolving : draft.resolvingBound? = some bound)
    (next : bound.imports = requirement :: rest)
    (member : move ∈ search.importChoices draft bound requirement)
    (played : play? ⟨.imports, draft⟩ move = some result) :
    Decision search ⟨.imports, draft⟩ result := by
  have left : search.MayLeave bound requirement →
      play? ⟨.imports, draft⟩ .leaveImport = some result →
        Decision search ⟨.imports, draft⟩ result := by
    intro allowed done
    cases done
    rw [Draft.skipImport_eq resolving next]
    exact .leaveImport resolving next allowed
  unfold importChoices at member
  split at member
  · rename_i existing wired
    split at member
    · rename_i allowed
      cases List.mem_singleton.1 member
      rcases (Bool.or_eq_true _ _).mp allowed with accepted | optional
      · exact left (.inl ⟨existing, wired, accepted⟩) played
      · exact left (.inr (.inl optional)) played
    · cases member
  · rename_i unwired
    split at member
    · rename_i delegated
      cases List.mem_singleton.1 member
      exact left (.inr (.inr (.inl delegated))) played
    · rename_i undelegated
      rcases List.mem_append.1 member with wired | skipped
      · obtain ⟨choice, offered, rfl⟩ := List.mem_map.1 wired
        obtain ⟨after, done, rfl⟩ := Option.map_eq_some_iff.1 played
        simp only [wire?, resolving, next] at done
        split at done
        · rename_i consistent
          obtain ⟨middle, engaged, rfl⟩ := Draft.exists_of_wire
            (ne_resolving_of_mem_wireChoices offered) resolving next
            (eq_ok_of_toOption done)
          exact .wire resolving next unwired
            (Bool.eq_false_iff.2 undelegated) offered consistent
            (Draft.engaged_of_engage engaged)
        · cases done
      · split at skipped
        · rename_i allowed
          cases List.mem_singleton.1 skipped
          rcases (Bool.or_eq_true _ _).mp allowed with selfServed | optional
          · exact left (.inr (.inr (.inr ⟨unwired, selfServed⟩))) played
          · exact left (.inr (.inl optional)) played
        · cases skipped

theorem decision_of_importMoves
    {draft : Draft} {move : Move} {result : Node}
    (member : move ∈ search.importMoves draft)
    (played : play? ⟨.imports, draft⟩ move = some result) :
    Decision search ⟨.imports, draft⟩ result := by
  unfold importMoves at member
  split at member
  · rename_i resolving
    cases List.mem_singleton.1 member
    cases played
    exact .settle (.inr ⟨rfl, by simp [resolving]⟩)
  · rename_i bound resolving
    split at member
    · rename_i through
      cases List.mem_singleton.1 member
      cases played
      refine .settle (.inr ⟨rfl, ?_⟩)
      intro other same
      rw [resolving] at same
      cases same
      exact through
    · rename_i requirement rest next
      exact decision_of_importChoices resolving next member played

/-- Every step of a search is a decision. -/
theorem decision_of_step
    {node result : Node} (step : search.problem.Step node result) :
    Decision search node result := by
  obtain ⟨move, member, played⟩ := step
  obtain ⟨phase, draft⟩ := node
  cases phase with
  | start => exact decision_of_startMoves member played
  | requires =>
      refine decision_of_requireMoves ?_ played
      simpa [problem, moves] using member
  | imports =>
      refine decision_of_importMoves ?_ played
      simpa [problem, moves] using member
  | finished => cases member

end Search

end ModuleWiring
