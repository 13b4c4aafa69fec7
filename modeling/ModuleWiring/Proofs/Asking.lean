import ModuleWiring.Proofs.Calls
import ModuleWiring.Proofs.LighterChoices
import ModuleWiring.Proofs.Replacement

/-!
# What comes after an import

The imports that the module in charge has left to decide are nobody else's concern.
Main statement: the next import can be decided in the same ways, whatever imports
come after it.
-/

namespace ModuleWiring

namespace Roster

variable {α : Type} {key : α → GenerationId}

theorem insert_insert
    {first second : α} (same : key first = key second)
    (roster : Roster key) :
    (roster.insert first).insert second = roster.insert second := by
  refine ext_find? fun id => ?_
  simp only [find?_insert, same]
  split <;> rfl

theorem insert_comm
    {first second : α} (different : key first ≠ key second)
    (roster : Roster key) :
    (roster.insert first).insert second =
      (roster.insert second).insert first := by
  refine ext_find? fun id => ?_
  simp only [find?_insert]
  by_cases isFirst : key first = id
  · have notSecond : key second ≠ id := fun isSecond =>
      different (isFirst.trans isSecond.symm)
    rw [if_pos isFirst, if_neg notSecond, if_pos isFirst]
  · rw [if_neg isFirst, if_neg isFirst]

end Roster

/-- The same candidate, or a module that has other imports to decide. -/
inductive BoundModule.AsksElse (bound : BoundModule)
    (imports : List PackageImport) : Candidate → Candidate → Prop where
  | same (candidate : Candidate) : AsksElse bound imports candidate candidate
  | changed :
      AsksElse bound imports (.bound bound)
        (.bound { bound with imports := imports })

namespace Draft

/-- The draft in which the module in charge has other imports to decide. -/
def asking (draft : Draft) (imports : List PackageImport) : Draft :=
  draft.changeResolving fun bound => { bound with imports := imports }

/-! ## A candidate in the place of another -/

theorem put_put
    {first second : Candidate} (same : first.id = second.id)
    (draft : Draft) :
    (draft.put first).put second = draft.put second := by
  unfold put
  rw [Roster.insert_insert same]

theorem registerSingleton_put
    (draft : Draft) (candidate : Candidate) (generation : Generation) :
    (draft.put candidate).registerSingleton generation =
      (draft.registerSingleton generation).map (·.put candidate) := by
  unfold registerSingleton put
  dsimp only
  split
  · split
    · rfl
    · split <;> rfl
  · rfl

/-- Other candidates are engaged in the same way, whatever a module is bound to. -/
theorem engage_put
    (draft : Draft) (bound : BoundModule) {id : GenerationId}
    (different : bound.host.id ≠ id) :
    (draft.put (.bound bound)).engage id =
      (draft.engage id).map (·.put (.bound bound)) := by
  unfold engage enlist
  rw [candidate?_put_of_ne different]
  cases found : draft.candidate? id with
  | none => rfl
  | some other =>
      cases other with
      | bound _ => rfl
      | resolved _ =>
          change Except.ok (if draft.unused.contains id then _ else _) = _
          dsimp only
          split <;> rfl
      | unresolved installed =>
          have apart : (Candidate.bound bound).id ≠
              (Candidate.bound (.of installed)).id := by
            rw [id_bound, id_bound]
            exact fun same => different (same.trans (id_of_candidate? found))
          dsimp only
          rw [registerSingleton_put]
          cases draft.registerSingleton installed with
          | error conflict => rfl
          | ok named =>
              simp only [Except.map, bind, Except.bind, pure, Except.pure,
                put, use]
              rw [Roster.insert_comm apart]

/-! ## What is seen -/

section Seen

variable {draft : Draft} {bound : BoundModule}
  (current : draft.resolvingBound? = some bound)
  (imports : List PackageImport)

include current

theorem asking_eq :
    draft.asking imports =
      draft.put (.bound { bound with imports := imports }) := by
  simp only [asking, changeResolving, current]

theorem replaces_asking :
    draft.Replaces (draft.asking imports) bound
      { bound with imports := imports } := by
  rw [asking_eq current]
  exact replaces_put current rfl

theorem resolvingBound?_asking :
    (draft.asking imports).resolvingBound? =
      some { bound with imports := imports } :=
  (replaces_asking current imports).resolvingBound?_eq

omit current in
/-- A module that is put in charge can be asked for other imports. -/
theorem asking_put
    {new : BoundModule} (current : draft.resolvingBound? = some bound)
    (host : new.host = bound.host) :
    (draft.put (.bound new)).asking imports =
      draft.put (.bound { new with imports := imports }) := by
  rw [asking_eq (replaces_put current host).resolvingBound?_eq]
  refine put_put ?_ draft
  rfl

theorem put_asking
    {new : BoundModule} (host : new.host = bound.host) :
    (draft.asking imports).put (.bound new) = draft.put (.bound new) := by
  rw [asking_eq current]
  refine put_put ?_ draft
  rw [id_bound, id_bound, host]

theorem asking_asking (others : List PackageImport) :
    (draft.asking others).asking imports = draft.asking imports := by
  rw [asking_eq current others, asking_eq current imports]
  exact asking_put imports current rfl

theorem target?_asking (view : View) :
    (draft.asking imports).target? view = draft.target? view := by
  have replaces := replaces_asking current imports
  by_cases same : bound.host.id = view.owner.id
  · obtain ⟨after, before⟩ := replaces.target?_here same
    exact after.trans before.symm
  · exact replaces.target?_of_ne same

theorem implied_asking (start : Wire) :
    (draft.asking imports).implied start = draft.implied start := by
  have nextViews : ∀ view, (draft.asking imports).nextViews view =
      draft.nextViews view := by
    intro view
    unfold Draft.nextViews
    rw [target?_asking current]
  refine congrArg (start :: ·) ((List.filterMap_congr fun view _ =>
    target?_asking current imports view).trans
      (congrArg (List.filterMap draft.target?) ?_))
  exact Network.walk_congr rfl fun view _ => nextViews view

theorem agrees_asking (wires : List Wire) :
    (draft.asking imports).agrees wires = draft.agrees wires := by
  have seen : ∀ id,
      ((draft.asking imports).candidate? id).map Candidate.wirings =
        (draft.candidate? id).map Candidate.wirings := by
    intro id
    rw [asking_eq current, candidate?_put, id_bound]
    split
    · rename_i same
      have found := candidate?_of_resolvingBound? current
      change bound.host.id = id at same
      rw [← same, found]
      rfl
    · rfl
  have used : (draft.asking imports).used = draft.used := by
    rw [asking_eq current]
    rfl
  unfold agrees
  rw [used]
  refine congrArg _ (congrArg (List.all _) (funext fun id => ?_))
  have alike := seen id
  cases before : draft.candidate? id <;>
    cases after : (draft.asking imports).candidate? id <;>
      simp_all

theorem isWireConsistent_asking (package : String) (choice : WireChoice) :
    Search.isWireConsistent (draft.asking imports)
        { bound with imports := imports } package choice =
      Search.isWireConsistent draft bound package choice := by
  unfold Search.isWireConsistent accepted
  rw [agrees_asking current, implied_asking current,
    funext (implied_asking current imports)]

/-- All other candidates are as before. -/
theorem members_asking :
    List.Forall₂ (bound.AsksElse imports) draft.candidates.members
      (draft.asking imports).candidates.members := by
  refine Roster.forall₂_members (fun alike => by cases alike <;> rfl)
    fun id => ?_
  change Option.Rel _ (draft.candidate? id)
    ((draft.asking imports).candidate? id)
  rw [asking_eq current, candidate?_put, id_bound]
  split
  · rename_i same
    change bound.host.id = id at same
    rw [← same, candidate?_of_resolvingBound? current]
    exact .some .changed
  · cases draft.candidate? id with
    | none => exact .none
    | some candidate => exact .some (.same candidate)

/-- The exports that could meet an import are the same. -/
theorem wireChoices_asking
    (search : Search) (requirement : PackageImport) :
    search.wireChoices (draft.asking imports) requirement =
      search.wireChoices draft requirement := by
  have members := members_asking current imports
  unfold Search.wireChoices Search.groupChoices
  refine List.flatMap_congr fun group _ => congrArg _ ?_
  refine (flatMap_eq_of_forall₂
    (List.rel_filter (fun candidate changed alike => ?_) members)
      fun alike => ?_).trans (List.map_id _)
  · rw [asking_eq current]
    cases alike <;> rfl
  · cases alike <;> exact (List.map_id _).symm

end Seen

/-! ## What is decided -/

section Decided

variable {draft : Draft} {bound : BoundModule} {requirement : PackageImport}
  {rest : List PackageImport}
  (current : draft.resolvingBound? = some bound)
  (pending : bound.imports = requirement :: rest)
  (imports : List PackageImport)

include current pending

omit pending in
theorem skipImport_eq_asking :
    draft.skipImport = draft.asking bound.imports.tail := by
  unfold skipImport asking changeResolving
  rw [current]

omit pending in
theorem skipImport_asking :
    (draft.asking (requirement :: imports)).skipImport =
      draft.skipImport.asking imports := by
  rw [skipImport_eq_asking (resolvingBound?_asking current _),
    skipImport_eq_asking current, asking_asking current, asking_asking current]
  rfl

omit pending in
theorem engage_asking
    {id : GenerationId} (other : draft.resolving ≠ some id) :
    (draft.asking imports).engage id =
      (draft.engage id).map (·.asking imports) := by
  have resolving := (replaces_asking current imports).resolving_eq
  have apart : bound.host.id ≠ id := fun same =>
    other (resolving.trans (congrArg some same))
  rw [asking_eq current, engage_put _ { bound with imports := imports } apart]
  cases engaged : draft.engage id with
  | error conflict => rfl
  | ok middle =>
      have kept := ((engaged_of_engage engaged).resolvingBound? other).trans
        current
      exact congrArg Except.ok (asking_eq kept imports).symm

theorem wire_asking
    {exporter : Generation} (declared : Export)
    (other : draft.resolving ≠ some exporter.id) :
    (draft.asking (requirement :: imports)).wire exporter declared =
      (draft.wire exporter declared).map (·.asking imports) := by
  unfold wire
  rw [engage_asking current _ other]
  cases engaged : draft.engage exporter.id with
  | error conflict => rfl
  | ok middle =>
      have kept := ((engaged_of_engage engaged).resolvingBound? other).trans
        current
      simp only [Except.map, bind, Except.bind]
      rw [resolvingBound?_asking kept, kept]
      dsimp only
      rw [pending]
      cases wired : bound.wirings.contains requirement.package with
      | true => simp only [BoundModule.addWiring, wired, if_true]
      | false =>
          simp only [BoundModule.addWiring, wired, Bool.false_eq_true,
            if_false]
          refine congrArg Except.ok ?_
          rw [put_asking kept, asking_put imports kept]
          · rfl
          · rfl

/-- The import can be wired to the same choices. -/
theorem wire?_asking
    {choice : WireChoice} (other : draft.resolving ≠ some choice.exporter.id) :
    Search.wire? (draft.asking (requirement :: imports)) choice =
      (Search.wire? draft choice).map (·.asking imports) := by
  unfold Search.wire?
  rw [resolvingBound?_asking current, current]
  dsimp only
  rw [pending]
  dsimp only
  rw [isWireConsistent_asking current, wire_asking current pending _ _ other]
  split
  · cases draft.wire choice.exporter choice.declared <;> rfl
  · rfl

/-- An import is decided in the same ways, whatever comes after it. -/
theorem decideImport_asking (search : Search) :
    search.decideImport (draft.asking (requirement :: imports))
        { bound with imports := requirement :: imports } requirement =
      (search.decideImport draft bound requirement).map
        (·.asking imports) := by
  have sameMoves : search.importChoices (draft.asking (requirement :: imports))
      { bound with imports := requirement :: imports } requirement =
        search.importChoices draft bound requirement := by
    unfold Search.importChoices
    rw [wireChoices_asking current]
    rfl
  unfold Search.decideImport Search.drafts
  rw [sameMoves, List.map_filterMap]
  refine List.filterMap_congr fun move member => ?_
  rcases Search.kind_of_importChoices member with
    rfl | ⟨choice, offered, rfl⟩
  · simp only [Search.play?, Option.map_some]
    rw [skipImport_asking current]
  · simp only [Search.play?, Option.map_map]
    rw [wire?_asking current pending imports
      (Search.ne_resolving_of_mem_wireChoices offered), Option.map_map]
    rfl

end Decided

end Draft

end ModuleWiring
