import ModuleWiring.Proofs.Exhaustive
import ModuleWiring.Proofs.Failing
import ModuleWiring.Proofs.ReorderedDrafts

/-!
# What a search can be refused

A search registers the name of a singleton whenever it binds one, and it wires a
package whenever an import asks for that.  Neither can go wrong: whatever is left
to bind has had its name from the start, and a package that has a wire is not
wired again.  Main statement: fragments are all that a search is ever refused.
-/

namespace ModuleWiring

namespace BoundModule

theorem exists_fault_of_pendingImports
    {bound : BoundModule} {fragment : Generation} {conflict : Incompatible}
    {requirements : List PackageImport}
    (refused : bound.pendingImports fragment requirements =
      .error conflict) :
    ∃ fault, conflict =
      .fragmentAttachment fragment.id bound.host.id fault := by
  induction requirements with
  | nil => cases refused
  | cons requirement rest inductionHypothesis =>
      rw [pendingImports] at refused
      split at refused
      · rcases bind_eq_error_iff.1 refused with later | ⟨_, _, impossible⟩
        · exact inductionHypothesis later
        · cases impossible
      · split at refused
        · exact inductionHypothesis refused
        · cases refused
          exact ⟨_, rfl⟩

theorem exists_fault_of_attach
    {bound : BoundModule} {fragment : Generation} {conflict : Incompatible}
    (refused : bound.attach fragment = .error conflict) :
    ∃ fault, conflict =
      .fragmentAttachment fragment.id bound.host.id fault := by
  unfold attach at refused
  dsimp only at refused
  split at refused
  · cases refused
    exact ⟨_, rfl⟩
  · rcases bind_eq_error_iff.1 refused with unsatisfied | ⟨_, _, impossible⟩
    · exact exists_fault_of_pendingImports unsatisfied
    · cases impossible

end BoundModule

/-- The module that a candidate is opened as for a fragment. -/
def Candidate.opened : Candidate → BoundModule
  | .unresolved installed => .of installed
  | .resolved wired => .reopen wired
  | .bound binding => binding

theorem Candidate.host_opened (candidate : Candidate) :
    candidate.opened.host = candidate.generation := by
  cases candidate <;> rfl

namespace Draft

variable {draft middle result : Draft} {id : GenerationId}
  {installed : Generation}

/-! ## Names -/

/-- Whatever can still be bound has its name already. -/
def ReservesNames (draft : Draft) : Prop :=
  ∀ ⦃id installed⦄, draft.candidate? id = some (.unresolved installed) →
    installed.isSingleton = true →
      draft.singletons.find? installed.symbolicName = some id

/-- The names stay with those who have them, and nothing new can be bound. -/
structure KeepsNames (draft result : Draft) : Prop where
  singletons : result.singletons = draft.singletons
  unresolved : ∀ ⦃id installed⦄,
    result.candidate? id = some (.unresolved installed) →
      draft.candidate? id = some (.unresolved installed)

theorem KeepsNames.refl (draft : Draft) : draft.KeepsNames draft :=
  ⟨rfl, fun _ _ found => found⟩

theorem KeepsNames.trans
    (first : draft.KeepsNames middle) (second : middle.KeepsNames result) :
    draft.KeepsNames result :=
  ⟨second.singletons.trans first.singletons,
    fun _ _ found => first.unresolved (second.unresolved found)⟩

theorem KeepsNames.reservesNames
    (keeps : draft.KeepsNames result) (reserves : draft.ReservesNames) :
    result.ReservesNames := by
  intro id installed found isSingleton
  rw [keeps.singletons]
  exact reserves (keeps.unresolved found) isSingleton

theorem IsRegistered.reservesNames
    (registered : draft.IsRegistered) : draft.ReservesNames :=
  fun _ _ found isSingleton => registered found isSingleton

theorem keepsNames_put_bound
    (draft : Draft) (bound : BoundModule) :
    draft.KeepsNames (draft.put (.bound bound)) := by
  refine ⟨rfl, fun id installed found => ?_⟩
  rw [candidate?_put] at found
  split at found
  · cases found
  · exact found

/-! ## What is never refused -/

/-- A name that is registered once more stays as it is. -/
theorem ReservesNames.registerSingleton_eq
    (reserves : draft.ReservesNames)
    (found : draft.candidate? id = some (.unresolved installed)) :
    draft.registerSingleton installed = .ok draft := by
  have sameId : installed.id = id := id_of_candidate? found
  unfold registerSingleton
  dsimp only
  split
  · rename_i isSingleton
    have reserved := reserves found isSingleton
    rw [← sameId] at reserved
    simp only [reserved, Table.insert_of_find? reserved, if_true]
  · rfl

theorem ReservesNames.exists_enlist
    (reserves : draft.ReservesNames) (id : GenerationId) :
    ∃ result, draft.enlist id = .ok result ∧ draft.KeepsNames result := by
  unfold enlist
  split
  · rename_i installed found
    rw [reserves.registerSingleton_eq found]
    have keeps := draft.keepsNames_put_bound (.of installed)
    exact ⟨_, rfl, keeps.singletons, keeps.unresolved⟩
  · exact ⟨draft, rfl, .refl draft⟩

theorem ReservesNames.exists_engage
    (reserves : draft.ReservesNames) (id : GenerationId) :
    ∃ result, draft.engage id = .ok result ∧ draft.KeepsNames result := by
  unfold engage
  split
  · exact reserves.exists_enlist id
  · refine ⟨_, rfl, ?_⟩
    split
    · exact ⟨rfl, fun _ _ found => found⟩
    · exact .refl draft
  · exact ⟨draft, rfl, .refl draft⟩

theorem keepsNames_acceptRequire
    (draft : Draft) (id : GenerationId) :
    draft.KeepsNames (draft.acceptRequire id) := by
  unfold acceptRequire
  split
  · split
    · exact .refl draft
    · exact keepsNames_put_bound draft _
  · exact .refl draft

theorem keepsNames_changeResolving
    (draft : Draft) (change : BoundModule → BoundModule) :
    draft.KeepsNames (draft.changeResolving change) := by
  unfold changeResolving
  split
  · exact .refl draft
  · exact keepsNames_put_bound draft _

theorem keepsNames_requireResolved
    (draft : Draft) (id : GenerationId) :
    draft.KeepsNames (draft.requireResolved id) := by
  unfold requireResolved
  split
  · have keeps := (draft.use id).keepsNames_acceptRequire id
    exact ⟨keeps.singletons, keeps.unresolved⟩
  · exact draft.keepsNames_acceptRequire id

theorem ReservesNames.exists_requireUnresolved
    (reserves : draft.ReservesNames) (id : GenerationId) :
    ∃ result, draft.requireUnresolved id = .ok result ∧
      draft.KeepsNames result := by
  obtain ⟨middle, enlisted, keeps⟩ := reserves.exists_enlist id
  refine ⟨middle.acceptRequire id, ?_,
    keeps.trans (middle.keepsNames_acceptRequire id)⟩
  simp [requireUnresolved, enlisted, bind, Except.bind, pure, Except.pure]

/-- What comes of requiring a candidate, whatever its stage of resolution. -/
def meet (draft : Draft) (candidate : Candidate) : Except Incompatible Draft :=
  match candidate with
  | .resolved _ => .ok (draft.requireResolved candidate.id)
  | .bound _ => .ok (draft.requireBound candidate.id)
  | .unresolved _ => draft.requireUnresolved candidate.id

theorem ReservesNames.exists_meet
    (reserves : draft.ReservesNames) (candidate : Candidate) :
    ∃ result, draft.meet candidate = .ok result ∧
      draft.KeepsNames result := by
  cases candidate with
  | resolved wired => exact ⟨_, rfl, draft.keepsNames_requireResolved _⟩
  | bound binding => exact ⟨_, rfl, draft.keepsNames_acceptRequire _⟩
  | unresolved installed => exact reserves.exists_requireUnresolved _

/-- A package that has no wire can be wired. -/
theorem ReservesNames.exists_wire
    {exporter : Generation} {bound : BoundModule}
    {requirement : PackageImport} {rest : List PackageImport}
    (reserves : draft.ReservesNames) (declared : Export)
    (other : draft.resolving ≠ some exporter.id)
    (current : draft.resolvingBound? = some bound)
    (next : bound.imports = requirement :: rest)
    (unwired : bound.wirings.find? requirement.package = none) :
    ∃ result, draft.wire exporter declared = .ok result ∧
      draft.KeepsNames result := by
  obtain ⟨middle, engaged, keeps⟩ := reserves.exists_engage exporter.id
  exact ⟨_, wire_eq_ok declared engaged other current next unwired,
    keeps.trans (keepsNames_put_bound middle _)⟩

/-! ## Fragments -/

theorem exists_fault_of_checkAttachment
    {fragment : GenerationId} {host : Candidate} {conflict : Incompatible}
    (refused : checkAttachment fragment host = .error conflict) :
    ∃ fault, conflict = .fragmentAttachment fragment host.id fault := by
  unfold checkAttachment at refused
  split at refused
  · cases refused
    exact ⟨_, rfl⟩
  · cases refused
    exact ⟨_, rfl⟩
  · cases refused

theorem keepsNames_of_attachAll
    {host : Candidate} {fragments : List GenerationId}
    {bound new : BoundModule}
    (done : attachAll host fragments draft bound = .ok (result, new)) :
    draft.KeepsNames result := by
  induction fragments generalizing draft bound with
  | nil =>
      cases done
      exact .refl _
  | cons fragment rest inductionHypothesis =>
      rw [attachAll] at done
      split at done
      · exact inductionHypothesis done
      · obtain ⟨_, _, accepted⟩ := bind_eq_ok_iff.1 done
        obtain ⟨_, _, later⟩ := bind_eq_ok_iff.1 accepted
        have keeps := inductionHypothesis later
        exact ⟨keeps.singletons, keeps.unresolved⟩

theorem exists_fault_of_attachAll
    {host : Candidate} {fragments : List GenerationId} {bound : BoundModule}
    {conflict : Incompatible} (sameHost : bound.host.id = host.id)
    (refused : attachAll host fragments draft bound = .error conflict) :
    ∃ fragment ∈ fragments, ∃ fault,
      conflict = .fragmentAttachment fragment host.id fault := by
  induction fragments generalizing draft bound with
  | nil => cases refused
  | cons fragment rest inductionHypothesis =>
      have later : ∀ {draft : Draft} {bound : BoundModule},
          bound.host.id = host.id →
          attachAll host rest draft bound = .error conflict →
            ∃ other ∈ fragment :: rest, ∃ fault,
              conflict = .fragmentAttachment other host.id fault := by
        intro draft bound same failed
        obtain ⟨other, member, fault⟩ := inductionHypothesis same failed
        exact ⟨other, List.mem_cons_of_mem _ member, fault⟩
      rw [attachAll] at refused
      split at refused
      · exact later sameHost refused
      · rename_i generation found
        rcases bind_eq_error_iff.1 refused with unwanted | ⟨_, _, accepted⟩
        · exact ⟨fragment, List.mem_cons_self,
            exists_fault_of_checkAttachment unwanted⟩
        · rcases bind_eq_error_iff.1 accepted with failed | ⟨new, joined, rest⟩
          · have fault := BoundModule.exists_fault_of_attach failed
            rw [id_of_generation? found, sameHost] at fault
            exact ⟨fragment, List.mem_cons_self, fault⟩
          · exact later (by rw [(pending_attach joined).1, sameHost]) rest

theorem keepsNames_of_bindFragments
    {host : GenerationId} {fragments : List GenerationId}
    (done : draft.bindFragments host fragments = .ok result) :
    draft.KeepsNames result := by
  unfold bindFragments at done
  split at done
  · obtain ⟨⟨middle, new⟩, attached, put⟩ := bind_eq_ok_iff.1 done
    cases put
    exact (keepsNames_of_attachAll attached).trans
      (middle.keepsNames_put_bound new)
  · cases done
    exact .refl draft

/-- If a host cannot take on some fragments, one of them is refused. -/
theorem exists_fault_of_bindFragments
    {host : GenerationId} {fragments : List GenerationId}
    {conflict : Incompatible}
    (refused : draft.bindFragments host fragments = .error conflict) :
    ∃ fragment ∈ fragments, ∃ fault,
      conflict = .fragmentAttachment fragment host fault := by
  unfold bindFragments at refused
  split at refused
  · rename_i binding found
    rcases bind_eq_error_iff.1 refused with failed | ⟨_, _, impossible⟩
    · rw [← id_of_candidate? found]
      exact exists_fault_of_attachAll rfl failed
    · cases impossible
  · cases refused

/-- To attach a fragment is to check that the host accepts it, to let the module
that the host is opened as take it on, and to go on with that module. -/
theorem ReservesNames.exists_attachFragment_eq
    {fragment host : GenerationId} {generation : Generation}
    {candidate : Candidate} (reserves : draft.ReservesNames)
    (known : draft.generation? fragment = some generation)
    (found : draft.candidate? host = some candidate) :
    ∃ opening : BoundModule → Draft,
      (∀ new, draft.KeepsNames (opening new)) ∧
        draft.attachFragment fragment host =
          (do
            checkAttachment fragment candidate
            let new ← candidate.opened.attach generation
            return opening new) := by
  have keeps : ∀ new, draft.KeepsNames
      ((draft.openHost new host).claim fragment host) := fun new =>
    ⟨rfl, (draft.keepsNames_put_bound new).unresolved⟩
  unfold attachFragment
  rw [known, found]
  cases candidate with
  | resolved wired => exact ⟨_, keeps, by rfl⟩
  | unresolved installed =>
      refine ⟨_, keeps, ?_⟩
      simp only [reserves.registerSingleton_eq found]
      rfl
  | bound binding =>
      -- Only here does the rest depend on what was decided about the host.
      refine ⟨fun new => { (draft.put (.bound new)).claim fragment host with
          settled :=
            if draft.isSettled host then draft.settled.filter (· ≠ host)
            else draft.settled
          resolving := if draft.isSettled host then some host else none },
        fun new => ⟨rfl, (draft.keepsNames_put_bound new).unresolved⟩, ?_⟩
      cases settled : draft.isSettled host with
      | true =>
          have still : ∀ new, (draft.put (.bound new)).isSettled host = true :=
            fun _ => settled
          simp only [still]
          rfl
      | false =>
          have still : ∀ new, (draft.put (.bound new)).isSettled host = false :=
            fun _ => settled
          simp only [still]
          rfl

theorem ReservesNames.keepsNames_of_attachFragment
    {fragment host : GenerationId} (reserves : draft.ReservesNames)
    (done : draft.attachFragment fragment host = .ok result) :
    draft.KeepsNames result := by
  cases known : draft.generation? fragment with
  | none =>
      simp only [attachFragment, known, Except.ok.injEq] at done
      exact done ▸ .refl draft
  | some generation =>
      cases found : draft.candidate? host with
      | none =>
          simp only [attachFragment, known, found, Except.ok.injEq] at done
          exact done ▸ .refl draft
      | some candidate =>
          obtain ⟨opening, keeps, same⟩ :=
            reserves.exists_attachFragment_eq known found
          rw [same] at done
          obtain ⟨_, _, accepted⟩ := bind_eq_ok_iff.1 done
          obtain ⟨new, _, opened⟩ := bind_eq_ok_iff.1 accepted
          cases opened
          exact keeps new

theorem ReservesNames.exists_fault_of_attachFragment
    {fragment host : GenerationId} {conflict : Incompatible}
    (reserves : draft.ReservesNames)
    (refused : draft.attachFragment fragment host = .error conflict) :
    ∃ fault, conflict = .fragmentAttachment fragment host fault := by
  cases known : draft.generation? fragment with
  | none => simp [attachFragment, known] at refused
  | some generation =>
      cases found : draft.candidate? host with
      | none => simp [attachFragment, known, found] at refused
      | some candidate =>
          obtain ⟨_, _, same⟩ := reserves.exists_attachFragment_eq known found
          rw [same] at refused
          rw [← id_of_candidate? found]
          rcases bind_eq_error_iff.1 refused with unwanted | ⟨_, _, accepted⟩
          · exact exists_fault_of_checkAttachment unwanted
          · rcases bind_eq_error_iff.1 accepted with
              failed | ⟨_, _, impossible⟩
            · have fault := BoundModule.exists_fault_of_attach failed
              rw [id_of_generation? known, candidate.host_opened] at fault
              exact fault
            · cases impossible

/-! ## Going on -/

theorem keepsNames_completeResolving (draft : Draft) :
    draft.KeepsNames draft.completeResolving := by
  unfold completeResolving
  split
  · exact .refl draft
  · exact ⟨rfl, fun _ _ found => found⟩

theorem keepsNames_of_startNext?
    (started : draft.startNext? = some result) :
    draft.KeepsNames result := by
  unfold startNext? at started
  split at started
  · cases started
  · cases started
    exact ⟨rfl, fun _ _ found => found⟩

end Draft

namespace Search

variable {search : Search} {leaves : BoundModule → PackageImport → Prop}
  {first last : Checkpoint} {draft : Draft}

/-! ## Along the transitions -/

/-- What a transition binds had its name before. -/
theorem keepsNames_of_transition
    (reserves : first.draft.ReservesNames)
    (transition : search.Transition leaves first last) :
    first.draft.KeepsNames last.draft := by
  cases transition with
  | attach _ _ _ _ done => exact reserves.keepsNames_of_attachFragment done
  | bind _ _ _ _ done => exact Draft.keepsNames_of_bindFragments done
  | requireResolved _ _ _ _ => exact Draft.keepsNames_requireResolved _ _
  | requireBound _ _ _ _ => exact Draft.keepsNames_acceptRequire _ _
  | @requireUnresolved _ _ _ provider _ _ _ _ _ done =>
      obtain ⟨result, same, keeps⟩ :=
        reserves.exists_requireUnresolved provider.id
      cases same.symm.trans done
      exact keeps
  | leaveRequire _ _ => exact Draft.keepsNames_changeResolving _ _
  | @wire _ _ _ _ choice _ current next _ offered _ done =>
      obtain ⟨bound, rest, also, imports⟩ := resolving_of_nextImport? next
      cases also.symm.trans current
      have other := ne_resolving_of_mem_wireChoices offered
      -- The import has been wired, so that its package had no wire before.
      obtain ⟨result, same, keeps⟩ := reserves.exists_wire choice.declared
        other current imports (Draft.unwired_of_wire other current imports done)
      cases same.symm.trans done
      exact keeps
  | leaveImport _ _ _ _ => exact Draft.keepsNames_changeResolving _ _
  | complete _ _ _ => exact Draft.keepsNames_completeResolving _
  | startNext _ started => exact Draft.keepsNames_of_startNext? started

theorem reservesNames_of_isFirst
    (isFirst : first.IsFirst) : first.draft.ReservesNames := by
  cases isFirst with
  | initial begun => exact (Draft.isRegistered_of_initial begun).reservesNames
  | @dynamic store _ _ imports _ begun =>
      obtain ⟨middle, reopened, pooled, _, _, same⟩ :=
        Draft.exists_of_forDynamicImport begun
      have reserves := (Draft.isRegistered_of_pool pooled).reservesNames
      have keeps := middle.keepsNames_put_bound
        { BoundModule.reopen (.of store reopened) with imports := imports }
      rw [same]
      exact keeps.reservesNames reserves

/-- The names that were taken at the start of a search are taken for good. -/
theorem keepsNames_of_path
    (reserves : first.draft.ReservesNames)
    (path : search.Path leaves first last) :
    first.draft.KeepsNames last.draft := by
  induction path with
  | refl => exact .refl _
  | tail _ transition inductionHypothesis =>
      exact inductionHypothesis.trans (keepsNames_of_transition
        (inductionHypothesis.reservesNames reserves) transition)

/-! ## Refusals -/

/-- A search is refused nothing but fragments where it stands.  What it asks for
to meet a require or an import is turned down if it is inconsistent, and for no
other reason. -/
structure RefusesFragmentsOnly (search : Search) (draft : Draft) : Prop where
  provide : ∀ {provider}, .provide provider ∈ search.requireMoves draft →
    ∃ candidate result,
      draft.candidate? provider.id = some candidate ∧
        draft.meet candidate = .ok result ∧
          provide? draft provider =
            if isRequireConsistent draft provider then some result else none
  wire : ∀ {choice}, .wire choice ∈ search.importMoves draft →
    ∃ bound requirement result,
      draft.resolvingBound? = some bound ∧
        draft.nextImport? = some requirement ∧
          draft.wire choice.exporter choice.declared = .ok result ∧
            wire? draft choice =
              if isWireConsistent draft bound requirement.package choice then
                some result
              else
                none
  attach : ∀ {fragment host conflict},
    draft.attachFragment fragment host = .error conflict →
      ∃ fault, conflict = .fragmentAttachment fragment host fault
  bind : ∀ {host fragments conflict},
    draft.bindFragments host fragments = .error conflict →
      ∃ fragment ∈ fragments, ∃ fault,
        conflict = .fragmentAttachment fragment host fault

theorem exists_of_provide_mem
    {provider : Generation}
    (member : .provide provider ∈ search.requireMoves draft) :
    ∃ require, draft.nextRequire? = some require ∧
      provider ∈ search.requireChoices draft require := by
  unfold requireMoves at member
  split at member
  · cases List.mem_singleton.1 member
  · split at member
    · cases List.mem_singleton.1 member
    · rename_i require next
      refine ⟨require, next, ?_⟩
      rcases List.mem_append.1 member with provided | left
      · obtain ⟨other, offered, same⟩ := List.mem_map.1 provided
        cases same
        exact offered
      · split at left
        · cases List.mem_singleton.1 left
        · cases left

/-- A wire is asked for only if the package has none. -/
theorem unwired_of_wire_mem
    {bound : BoundModule} {requirement : PackageImport} {choice : WireChoice}
    (member : .wire choice ∈ search.importChoices draft bound requirement) :
    bound.wirings.find? requirement.package = none ∧
      choice ∈ search.wireChoices draft requirement := by
  unfold importChoices at member
  cases wired : bound.wirings.find? requirement.package with
  | some wire =>
      rw [wired] at member
      dsimp only at member
      split at member
      · cases List.mem_singleton.1 member
      · cases member
  | none =>
      refine ⟨rfl, ?_⟩
      rw [wired] at member
      dsimp only at member
      split at member
      · cases List.mem_singleton.1 member
      · rcases List.mem_append.1 member with offered | left
        · obtain ⟨other, offered, same⟩ := List.mem_map.1 offered
          cases same
          exact offered
        · split at left
          · cases List.mem_singleton.1 left
          · cases left

theorem exists_of_wire_mem
    {choice : WireChoice}
    (member : .wire choice ∈ search.importMoves draft) :
    ∃ bound requirement rest, draft.resolvingBound? = some bound ∧
      bound.imports = requirement :: rest ∧
        bound.wirings.find? requirement.package = none ∧
          choice ∈ search.wireChoices draft requirement := by
  unfold importMoves at member
  split at member
  · cases List.mem_singleton.1 member
  · rename_i bound current
    split at member
    · cases List.mem_singleton.1 member
    · rename_i requirement rest imports
      exact ⟨bound, requirement, rest, current, imports,
        unwired_of_wire_mem member⟩

theorem provide?_of_meet
    {provider : Generation} {candidate : Candidate} {result : Draft}
    (found : draft.candidate? provider.id = some candidate)
    (met : draft.meet candidate = .ok result) :
    provide? draft provider =
      if isRequireConsistent draft provider then some result else none := by
  have sameId : candidate.id = provider.id := Draft.id_of_candidate? found
  unfold provide?
  rw [found]
  unfold Draft.meet at met
  rw [sameId] at met
  cases candidate with
  | resolved wired =>
      cases met
      rfl
  | bound binding =>
      cases met
      rfl
  | unresolved installed =>
      dsimp only at met ⊢
      rw [met]
      rfl

theorem refusesFragmentsOnly_of_reservesNames
    (reserves : draft.ReservesNames) :
    search.RefusesFragmentsOnly draft where
  provide := by
    intro provider member
    obtain ⟨require, _, offered⟩ := exists_of_provide_mem member
    obtain ⟨candidate, found, _⟩ :=
      Option.map_eq_some_iff.1 (mem_requireChoices offered).1
    obtain ⟨result, met, _⟩ := reserves.exists_meet candidate
    exact ⟨candidate, result, found, met, provide?_of_meet found met⟩
  wire := by
    intro choice member
    obtain ⟨bound, requirement, rest, current, imports, unwired, offered⟩ :=
      exists_of_wire_mem member
    obtain ⟨result, done, _⟩ := reserves.exists_wire choice.declared
      (ne_resolving_of_mem_wireChoices offered) current imports unwired
    refine ⟨bound, requirement, result, current, ?_, done, ?_⟩
    · simp [Draft.nextImport?, current, imports]
    · simp [wire?, current, imports, done, Except.toOption]
  attach := reserves.exists_fault_of_attachFragment
  bind := Draft.exists_fault_of_bindFragments

/-- Wherever the transitions of a search lead, whatever it asks for to meet a
require or an import succeeds.  No singleton is in the way of another, and no
package would be wired twice; only a fragment may be refused by its host. -/
theorem refused_fragments_along_paths
    (isFirst : first.IsFirst) (path : search.Path leaves first last) :
    search.RefusesFragmentsOnly last.draft :=
  have reserves := reservesNames_of_isFirst isFirst
  refusesFragmentsOnly_of_reservesNames
    ((keepsNames_of_path reserves path).reservesNames reserves)

end Search

namespace Sample

/-- An exporter that is a singleton. -/
def soleExporter : Manifest :=
  { exporter with singleton := true }

/-- The world of an importer and that exporter. -/
def solePair : World :=
  world [importer, soleExporter]

/-- Whether a move wires the exporter. -/
def wiresSole : Move → Bool
  | .wire choice => choice.exporter = generation 1 soleExporter
  | _ => false

end Sample

namespace Search

/-- An exporter that is a singleton and still to be bound is wired. -/
theorem solePair_wired :
    ∃ (first last : Checkpoint) (choice : WireChoice) (result : Draft),
      first.IsFirst ∧
      (Sample.search Sample.solePair).Path
        (Sample.search Sample.solePair).LeavesKeeping first last ∧
      choice.exporter = Sample.generation 1 Sample.soleExporter ∧
      last.draft.generation? (Sample.id 1) = some choice.exporter ∧
      (last.draft.bound? (Sample.id 1)).isNone = true ∧
      last.draft.wire choice.exporter choice.declared = .ok result := by
  have facts : (Draft.initial Sample.solePair.store
      (Sample.solePair.resolver.canonical Sample.solePair.store)
      (Sample.generation 0 Sample.importer)).toOption.any (fun draft =>
        decide (draft.resolving = some (Sample.id 0)) &&
          decide (draft.generation? (Sample.id 0) =
            some (Sample.generation 0 Sample.importer)) &&
          (draft.bindFragments (Sample.id 0) []).toOption.any fun bound =>
            decide (bound.generation? (Sample.id 1) =
              some (Sample.generation 1 Sample.soleExporter)) &&
            (bound.bound? (Sample.id 1)).isNone &&
              ((Sample.search Sample.solePair).importMoves bound).any
                Sample.wiresSole) = true := by
    decide +kernel
  obtain ⟨draft, made, holds⟩ := Option.any_eq_true _ _ |>.1 facts
  simp only [Bool.and_eq_true, decide_eq_true_eq] at holds
  obtain ⟨⟨resolving, known⟩, opened⟩ := holds
  obtain ⟨bound, bindsAs, holds⟩ := Option.any_eq_true _ _ |>.1 opened
  simp only [Bool.and_eq_true, decide_eq_true_eq] at holds
  obtain ⟨⟨exporter, unbound⟩, offered⟩ := holds
  obtain ⟨move, member, wires⟩ := List.any_eq_true.1 offered
  have isFirst : Checkpoint.IsFirst ⟨true, draft⟩ :=
    .initial (eq_ok_of_toOption made)
  have path : (Sample.search Sample.solePair).Path
      (Sample.search Sample.solePair).LeavesKeeping ⟨true, draft⟩
        ⟨false, bound⟩ :=
    .single (.bind resolving known rfl (List.nil_sublist _)
      (eq_ok_of_toOption bindsAs))
  cases move with
  | wire choice =>
      have same : choice.exporter = Sample.generation 1 Sample.soleExporter :=
        of_decide_eq_true wires
      obtain ⟨_, _, result, _, _, done, _⟩ :=
        (refused_fragments_along_paths isFirst path).wire member
      exact ⟨_, _, choice, result, isFirst, path, same, same ▸ exporter,
        unbound, done⟩
  | _ => cases wires

end Search

end ModuleWiring
