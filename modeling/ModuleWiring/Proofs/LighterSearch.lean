import ModuleWiring.Proofs.LighterDrafts
import ModuleWiring.Proofs.Partition

/-!
# Searches with less to decide

A search leaves what is optional until it has the same to decide next as a search for
a lighter draft, and then decides the same.  Main statement: where transitions lead
from a lighter draft in which something is bound, they lead from the draft itself as
well.
-/

namespace ModuleWiring

open Search

/-- If every item that may be left can be left by a step, steps lead to where the
lists begin alike. -/
theorem Thins.exists_aligned
    {α State : Type} {optional : α → Bool} {items fewer : List α}
    (Step : State → State → Prop) (Holds : List α → State → Prop)
    (leave : ∀ {item rest state}, optional item = true →
      Thins optional rest fewer → Holds (item :: rest) state →
        ∃ next, Step state next ∧ Holds rest next)
    {state : State} (thins : Thins optional items fewer)
    (holds : Holds items state) :
    ∃ kept next, Relation.ReflTransGen Step state next ∧ Holds kept next ∧
      kept.head? = fewer.head? ∧ Thins optional kept.tail fewer.tail := by
  induction thins generalizing state with
  | nil => exact ⟨[], state, .refl, holds, rfl, .nil⟩
  | keep item thins _ => exact ⟨_, state, .refl, holds, rfl, thins⟩
  | leave isOptional thins inductionHypothesis =>
      obtain ⟨next, step, later⟩ := leave isOptional thins holds
      obtain ⟨kept, last, path, aligned⟩ := inductionHypothesis leave later
      exact ⟨kept, last, .head step path, aligned⟩

namespace Draft

/-- A draft and a lighter one, and the modules that are in charge there. -/
structure Decides (revision : Revision) (draft other : Draft)
    (bound light : BoundModule) : Prop where
  lightens : draft.Lightens revision other
  current : draft.resolvingBound? = some bound
  lightCurrent : other.resolvingBound? = some light
  lighter : bound.Lightens revision light

namespace Decides

variable {revision : Revision} {draft other : Draft}
  {bound light new : BoundModule}

theorem exists_of_resolvingBound?
    (lightens : draft.Lightens revision other)
    (lightCurrent : other.resolvingBound? = some light) :
    ∃ bound, Decides revision draft other bound light := by
  obtain ⟨bound, current, lighter⟩ :=
    lightens.exists_resolvingBound lightCurrent
  exact ⟨bound, lightens, current, lightCurrent, lighter⟩

variable (decides : Decides revision draft other bound light)

include decides

theorem nextRequire?_eq
    (head : bound.requires.head? = light.requires.head?) :
    draft.nextRequire? = other.nextRequire? := by
  simp only [Draft.nextRequire?, decides.current, decides.lightCurrent,
    Option.bind_some, head]

theorem nextImport?_eq
    (head : bound.imports.head? = light.imports.head?) :
    draft.nextImport? = other.nextImport? := by
  simp only [Draft.nextImport?, decides.current, decides.lightCurrent,
    Option.bind_some, head]

/-- The module in charge may change as long as the lighter one is lighter still. -/
theorem put_left
    (host : new.host = bound.host) (lighter : new.Lightens revision light) :
    Decides revision (draft.put (.bound new)) other new light := by
  have found := candidate?_of_resolvingBound? decides.lightCurrent
  rw [lighter.host, (revision.revises new.host).id] at found
  exact ⟨decides.lightens.put_left found (.bound lighter),
    resolvingBound?_put decides.current host, decides.lightCurrent, lighter⟩

theorem use (id : GenerationId) :
    Decides revision (draft.use id) (other.use id) bound light :=
  ⟨decides.lightens.use id, decides.current, decides.lightCurrent,
    decides.lighter⟩

theorem useUnused (id : GenerationId) :
    Decides revision
      (if draft.unused.contains id then draft.use id else draft)
      (if other.unused.contains id then other.use id else other)
      bound light := by
  rw [decides.lightens.unused]
  split
  · exact decides.use id
  · exact decides

/-- Who is in charge stays so while others come to take part. -/
theorem engaged
    {id : GenerationId} {middle otherMiddle : Draft}
    (engaged : draft.Engaged id middle)
    (otherEngaged : other.Engaged id otherMiddle)
    (kept : middle.Lightens revision otherMiddle)
    (different : draft.resolving ≠ some id) :
    Decides revision middle otherMiddle bound light :=
  ⟨kept, (engaged.resolvingBound? different).trans decides.current,
    (otherEngaged.resolvingBound?
      (decides.lightens.resolving ▸ different)).trans decides.lightCurrent,
    decides.lighter⟩

/-! ## Decisions about the next require or import -/

theorem skipRequire
    (thins : Thins Require.isOptional bound.requires.tail
      light.requires.tail) :
    draft.skipRequire.Lightens revision other.skipRequire := by
  unfold Draft.skipRequire changeResolving
  rw [decides.current, decides.lightCurrent]
  exact decides.lightens.put
    (.bound { decides.lighter with requires := thins })

theorem skipImport
    (thins : Thins PackageImport.isOptional bound.imports.tail
      light.imports.tail) :
    draft.skipImport.Lightens revision other.skipImport := by
  unfold Draft.skipImport changeResolving
  rw [decides.current, decides.lightCurrent]
  exact decides.lightens.put
    (.bound { decides.lighter with imports := thins })

theorem acceptRequire
    (next : bound.requires.head? = light.requires.head?)
    (thins : Thins Require.isOptional bound.requires.tail
      light.requires.tail) (id : GenerationId) :
    (draft.acceptRequire id).Lightens revision (other.acceptRequire id) := by
  unfold Draft.acceptRequire
  rw [decides.lightens.generation?_eq, decides.current, decides.lightCurrent]
  cases draft.generation? id with
  | none => exact decides.lightens
  | some provider =>
      have tails : BoundModule.Lightens revision
          { bound with requires := bound.requires.tail }
          { light with requires := light.requires.tail } :=
        { decides.lighter with requires := thins }
      cases requires : bound.requires with
      | nil =>
          rw [requires, List.head?_nil, eq_comm, List.head?_eq_none_iff]
            at next
          simp only [Option.map_some, requires, next]
          exact decides.lightens
      | cons require more =>
          rw [requires, List.head?_cons, eq_comm,
            List.head?_eq_some_iff] at next
          obtain ⟨rest, lightRequires⟩ := next
          have provided := tails.addProvision require provider
            (if require.isReexport then draft.visible provider else [])
          rw [apply_ite (List.map revision.wire),
            ← decides.lightens.visible_eq, requires, lightRequires]
            at provided
          simp only [Option.map_some, requires, lightRequires]
          exact decides.lightens.put (.bound provided)

/-- The next import can be wired as in the lighter draft. -/
theorem wire
    {requirement : PackageImport} {rest : List PackageImport}
    {exporter : Generation} {declared : Export}
    (thinning : revision.IsThinning)
    (lightNext : light.imports = requirement :: rest)
    (head : bound.imports.head? = light.imports.head?)
    (thins : Thins PackageImport.isOptional bound.imports.tail
      light.imports.tail)
    (different : draft.resolving ≠ some exporter.id) :
    Recovers (Lightens revision) (draft.wire exporter declared)
      (other.wire (revision exporter) declared) := by
  intro after done
  rw [lightNext, List.head?_cons, List.head?_eq_some_iff] at head
  obtain ⟨more, next⟩ := head
  rw [lightNext, next] at thins
  have sameId : (revision exporter).id = exporter.id :=
    (revision.revises exporter).id
  have otherDifferent : other.resolving ≠ some (revision exporter).id := by
    rw [decides.lightens.resolving, sameId]
    exact different
  have unwired := unwired_of_wire otherDifferent decides.lightCurrent
    lightNext done
  rw [Lightens.find?_wirings decides.lighter, Option.map_eq_none_iff]
    at unwired
  obtain ⟨otherMiddle, otherEngaged, rfl⟩ :=
    exists_of_wire otherDifferent decides.lightCurrent lightNext done
  rw [sameId] at otherEngaged
  obtain ⟨middle, engaged, kept⟩ :=
    (decides.lightens.engage thinning exporter.id).exists_left otherEngaged
  refine ⟨_, wire_eq_ok declared engaged different decides.current next
    unwired, Lightens.put kept (.bound ?_)⟩
  refine { decides.lighter with imports := thins, offers := ?_, wirings := ?_ }
  · rw [decides.lighter.offers, List.filter_map]
    rfl
  · rw [decides.lighter.wirings, Table.mapValues_insert]
    rfl

end Decides

end Draft

namespace Search

variable {search : Search} {revision : Revision} {draft other : Draft}
  {bound light module : BoundModule}

/-! ## Leaving what is optional -/

/-- Optional requires are left until the same one comes next as in the lighter
draft. -/
theorem exists_requires_aligned
    (search : Search) (lightens : draft.Lightens revision other)
    (lightCurrent : other.resolvingBound? = some light) :
    ∃ middle new,
      search.Path search.LeavesKeeping ⟨false, draft⟩ ⟨false, middle⟩ ∧
        Draft.Decides revision middle other new light ∧
          new.requires.head? = light.requires.head? ∧
            Thins Require.isOptional new.requires.tail
              light.requires.tail := by
  obtain ⟨bound, decides⟩ :=
    Draft.Decides.exists_of_resolvingBound? lightens lightCurrent
  have aligned := Thins.exists_aligned
    (search.Transition search.LeavesKeeping)
    (fun requires checkpoint => ∃ middle new, checkpoint = ⟨false, middle⟩ ∧
      Draft.Decides revision middle other new light ∧ new.requires = requires)
    ?_ decides.lighter.requires ⟨draft, bound, rfl, decides, rfl⟩
  · obtain ⟨_, _, path, ⟨middle, new, rfl, holds, rfl⟩, alike⟩ := aligned
    exact ⟨middle, new, path, holds, alike⟩
  · rintro require rest _ isOptional thins ⟨middle, new, rfl, holds, next⟩
    have isNext : middle.nextRequire? = some require := by
      simp [Draft.nextRequire?, holds.current, next]
    refine ⟨_, .leaveRequire isNext isOptional, _,
      { new with requires := rest }, rfl, ?_, rfl⟩
    rw [Draft.skipRequire_eq holds.current next]
    exact holds.put_left rfl { holds.lighter with requires := thins }

/-- Once no require is left, optional imports are left until the same one comes next
as in the lighter draft. -/
theorem exists_imports_aligned
    (search : Search) (lightens : draft.Lightens revision other)
    (lightCurrent : other.resolvingBound? = some light)
    (through : other.nextRequire? = none) :
    ∃ middle new,
      search.Path search.LeavesKeeping ⟨false, draft⟩ ⟨false, middle⟩ ∧
        Draft.Decides revision middle other new light ∧
          middle.nextRequire? = none ∧
            new.imports.head? = light.imports.head? ∧
              Thins PackageImport.isOptional new.imports.tail
                light.imports.tail := by
  obtain ⟨first, start, before, holds, head, _⟩ :=
    search.exists_requires_aligned lightens lightCurrent
  have decided : start.requires = [] := by
    have none := (holds.nextRequire?_eq head).trans through
    simpa [Draft.nextRequire?, holds.current] using none
  have isThrough : ∀ {middle : Draft} {new : BoundModule},
      middle.resolvingBound? = some new → new.requires = [] →
        middle.nextRequire? = none := by
    intro middle new current none
    simp [Draft.nextRequire?, current, none]
  have aligned := Thins.exists_aligned
    (search.Transition search.LeavesKeeping)
    (fun imports checkpoint => ∃ middle new, checkpoint = ⟨false, middle⟩ ∧
      Draft.Decides revision middle other new light ∧ new.requires = [] ∧
        new.imports = imports)
    ?_ holds.lighter.imports ⟨first, start, rfl, holds, decided, rfl⟩
  · obtain ⟨_, _, path, ⟨middle, new, rfl, holds, decided, rfl⟩, alike⟩ :=
      aligned
    exact ⟨middle, new, before.trans path, holds,
      isThrough holds.current decided, alike⟩
  · rintro requirement rest _ isOptional thins
      ⟨middle, new, rfl, holds, decided, next⟩
    have isNext : middle.nextImport? = some requirement := by
      simp [Draft.nextImport?, holds.current, next]
    refine ⟨_, .leaveImport (isThrough holds.current decided) holds.current
      isNext (leavesKeeping_of_isOptional isOptional), _,
      { new with imports := rest }, rfl, ?_, decided, rfl⟩
    rw [Draft.skipImport_eq holds.current next]
    exact holds.put_left rfl { holds.lighter with imports := thins }

/-! ## Taking the same transitions -/

/-- A provider that is chosen for a lighter draft can be chosen once what is optional
has been left. -/
theorem exists_provider
    (lightens : draft.Lightens revision other) {require : Require}
    {provider : Generation} (next : other.nextRequire? = some require)
    (offered : provider ∈ search.requireChoices other require)
    (consistent : isRequireConsistent other provider = true) :
    ∃ middle bound light chosen,
      search.Path search.LeavesKeeping ⟨false, draft⟩ ⟨false, middle⟩ ∧
        Draft.Decides revision middle other bound light ∧
          bound.requires.head? = light.requires.head? ∧
            Thins Require.isOptional bound.requires.tail
              light.requires.tail ∧
            revision chosen = provider ∧
              middle.nextRequire? = some require ∧
                chosen ∈ search.requireChoices middle require ∧
                  isRequireConsistent middle chosen = true := by
  obtain ⟨light, rest, lightCurrent, requires⟩ :=
    resolving_of_nextRequire? next
  obtain ⟨middle, bound, path, holds, head, thins⟩ :=
    search.exists_requires_aligned lightens lightCurrent
  rw [holds.lightens.requireChoices_eq] at offered
  obtain ⟨chosen, member, rfl⟩ := List.mem_map.1 offered
  have same := holds.lightens.isRequireConsistent_eq holds.current
    holds.lightCurrent holds.lighter chosen
  exact ⟨middle, bound, light, chosen, path, holds, head, thins, rfl,
    (holds.nextRequire?_eq head).trans next, member,
    same.symm.trans consistent⟩

/-- A position in order in which a module is bound, with its fragments at least. -/
def Binds (module : BoundModule) (node : Node) : Prop :=
  IsOrderly node ∧ ∃ bound,
    node.draft.candidate? module.host.id = some (.bound bound) ∧
      bound.host = module.host ∧ module.fragments ⊆ bound.fragments

/-- What is bound stays so. -/
theorem isSustained_binds (search : Search) (module : BoundModule) :
    search.IsSustained search.LeavesKeeping (Binds module) := by
  have step : ∀ {node result : Node}, Binds module node →
      search.problem.Step node result → Binds module result := by
    rintro node result ⟨orderly, bound, found, sameHost, kept⟩ step
    have decision := decision_of_step step
    obtain ⟨candidate, hit, evolution⟩ :=
      exists_later_candidate orderly.scheduled decision found
    obtain ⟨new, rfl, host, more⟩ := evolution.exists_bound
    exact ⟨isOrderly_of_decision orderly decision, new, hit,
      host.trans sameHost, List.Subset.trans kept more⟩
  exact ⟨And.left, step, fun binds current next allowed =>
    step binds (step_of_leaveImport current next allowed)⟩

/-- No fragment has its turn where something is bound. -/
theorem Binds.notFragment
    {id : GenerationId} {generation : Generation}
    (binds : Binds module ⟨.start, draft⟩)
    (resolving : draft.resolving = some id)
    (known : draft.generation? id = some generation) :
    generation.isFragment = false := by
  obtain ⟨orderly, bound, found, _⟩ := binds
  rcases orderly.scheduled.stage with
    ⟨installed, current, hit⟩ | ⟨_, _, _, _, untouched⟩
  · cases current.symm.trans resolving
    change draft.candidate? installed.id = _ at hit
    have same : installed = generation := by
      simpa [Draft.generation?, hit, Candidate.generation, BoundModule.of]
        using known
    exact same ▸ orderly.bundles (.inr ⟨rfl, current⟩) hit
  · exact absurd found (untouched _ bound)

/-- What a lighter host takes on in its turn, the host can take on. -/
theorem exists_bind
    {id : GenerationId} {host : Generation} {fragments : List Generation}
    {result : Draft} (thinning : revision.IsThinning)
    (lightens : draft.Lightens revision other)
    (orderly : IsOrderly ⟨.start, other⟩)
    (resolving : other.resolving = some id)
    (known : other.generation? id = some host)
    (notFragment : host.isFragment = false)
    (chosen : fragments.Sublist (search.fragmentChoices other host))
    (done : other.bindFragments id (fragments.map Generation.id) =
      .ok result) :
    ∃ later,
      search.Transition search.LeavesKeeping ⟨true, draft⟩ ⟨false, later⟩ ∧
        later.Lightens revision result := by
  obtain ⟨candidate, found, rfl⟩ := Option.map_eq_some_iff.1 known
  have fresh := orderly.scheduled.fresh_of_start resolving found notFragment
  rw [lightens.generation?_eq] at known
  obtain ⟨own, ownKnown, same⟩ := Option.map_eq_some_iff.1 known
  rw [← same, lightens.fragmentChoices_eq] at chosen
  rw [← same, (revision.revises own).isFragment] at notFragment
  obtain ⟨ownFragments, sublist, rfl⟩ := List.sublist_map_iff.1 chosen
  have sameIds : (ownFragments.map revision).map Generation.id =
      ownFragments.map Generation.id := by
    rw [List.map_map]
    exact List.map_congr_left fun fragment _ => (revision.revises fragment).id
  rw [sameIds] at done
  rw [fresh] at found
  obtain ⟨later, binds, kept⟩ :=
    lightens.bindFragments thinning found (fun _ => rfl) _ _ done
  exact ⟨later, .bind (lightens.resolving.symm.trans resolving) ownKnown
    notFragment sublist binds, kept⟩

/-- What is required for a lighter draft and is not resolved can be required once
what is optional has been left. -/
theorem exists_path_of_requireUnresolved
    {require : Require} {provider installed : Generation} {result : Draft}
    (thinning : revision.IsThinning)
    (lightens : draft.Lightens revision other)
    (next : other.nextRequire? = some require)
    (offered : provider ∈ search.requireChoices other require)
    (consistent : isRequireConsistent other provider = true)
    (found : other.candidate? provider.id = some (.unresolved installed))
    (done : other.requireUnresolved provider.id = .ok result) :
    ∃ later,
      search.Path search.LeavesKeeping ⟨false, draft⟩ ⟨false, later⟩ ∧
        later.Lightens revision result := by
  obtain ⟨middle, bound, light, chosen, path, holds, head, thins, rfl,
    isNext, member, alike⟩ := exists_provider lightens next offered consistent
  rw [(revision.revises chosen).id] at found done
  obtain ⟨_, different, _⟩ := mem_requireChoices member
  obtain ⟨_, hit, both⟩ :=
    exists_left_of_rel (holds.lightens.candidates chosen.id) found
  cases both with
  | unresolved installed =>
      have required := (holds.lightens.enlist thinning
        chosen.id).recovers.bind fun enlisted _ did otherDid kept =>
          .ok ((holds.engaged (Draft.engaged_of_enlist hit did)
            (Draft.engaged_of_enlist found otherDid) kept
            different).acceptRequire head thins chosen.id)
      obtain ⟨later, requires, kept⟩ := required _ done
      exact ⟨later, path.tail (.requireUnresolved isNext member alike hit
        requires), kept⟩

/-- What is wired in a lighter draft can be wired once what is optional has been
left. -/
theorem exists_path_of_wire
    {requirement : PackageImport} {choice : WireChoice} {result : Draft}
    (thinning : revision.IsThinning)
    (lightens : draft.Lightens revision other)
    (through : other.nextRequire? = none)
    (lightCurrent : other.resolvingBound? = some light)
    (next : other.nextImport? = some requirement)
    (needed : ¬ search.NeedsNoWire light requirement)
    (offered : choice ∈ search.wireChoices other requirement)
    (consistent :
      isWireConsistent other light requirement.package choice = true)
    (done : other.wire choice.exporter choice.declared = .ok result) :
    ∃ later,
      search.Path search.LeavesKeeping ⟨false, draft⟩ ⟨false, later⟩ ∧
        later.Lightens revision result := by
  obtain ⟨middle, bound, path, holds, isThrough, head, thins⟩ :=
    search.exists_imports_aligned lightens lightCurrent through
  have isNext := (holds.nextImport?_eq head).trans next
  obtain ⟨_, rest, same, imports⟩ := resolving_of_nextImport? next
  cases lightCurrent.symm.trans same
  rw [holds.lightens.wireChoices_eq] at offered
  obtain ⟨chosen, member, rfl⟩ := List.mem_map.1 offered
  have alike := holds.lightens.isWireConsistent_eq holds.lighter
    requirement.package chosen
  have alsoNeeded := mt
    (Draft.Lightens.needsNoWire_iff holds.lighter).2 needed
  obtain ⟨later, wired, kept⟩ := holds.wire thinning imports head thins
    (ne_resolving_of_mem_wireChoices member) _ done
  exact ⟨later, path.tail (.wire isThrough holds.current isNext alsoNeeded
    member (alike.symm.trans consistent) wired), kept⟩

/-- Whatever transition is taken from a lighter draft in which something is bound,
transitions from the draft itself lead to as much. -/
theorem exists_path_of_transition
    {checkpoint result : Checkpoint} (thinning : revision.IsThinning)
    (lightens : draft.Lightens revision checkpoint.draft)
    (reflects : Reflects (Binds module) checkpoint)
    (transition : search.Transition search.LeavesKeeping checkpoint result) :
    ∃ later,
      search.Path search.LeavesKeeping ⟨checkpoint.isStarting, draft⟩
        ⟨result.isStarting, later⟩ ∧
          later.Lightens revision result.draft := by
  cases transition with
  | attach resolving known isFragment _ _ =>
      cases reflects with
      | start binds =>
          rw [binds.notFragment resolving known] at isFragment
          cases isFragment
  | bind resolving known notFragment chosen done =>
      cases reflects with
      | start binds =>
          obtain ⟨later, bind, kept⟩ := exists_bind thinning lightens binds.1
            resolving known notFragment chosen done
          exact ⟨later, .single bind, kept⟩
  | requireResolved next offered consistent found =>
      obtain ⟨middle, bound, light, chosen, path, holds, head, thins, rfl,
        isNext, member, alike⟩ := exists_provider lightens next offered
          consistent
      rw [(revision.revises chosen).id] at found ⊢
      obtain ⟨candidate, hit, both⟩ :=
        exists_left_of_rel (holds.lightens.candidates chosen.id) found
      cases both with
      | resolved wired =>
          exact ⟨_, path.tail (.requireResolved isNext member alike hit),
            (holds.useUnused chosen.id).acceptRequire head thins chosen.id⟩
  | requireBound next offered consistent found =>
      obtain ⟨middle, bound, light, chosen, path, holds, head, thins, rfl,
        isNext, member, alike⟩ := exists_provider lightens next offered
          consistent
      rw [(revision.revises chosen).id] at found ⊢
      obtain ⟨_, hit, _⟩ := holds.lightens.exists_bound found
      exact ⟨_, path.tail (.requireBound isNext member alike hit),
        holds.acceptRequire head thins chosen.id⟩
  | requireUnresolved next offered consistent found done =>
      exact exists_path_of_requireUnresolved thinning lightens next offered
        consistent found done
  | leaveRequire next isOptional =>
      obtain ⟨light, _, lightCurrent, _⟩ := resolving_of_nextRequire? next
      obtain ⟨middle, bound, path, holds, head, thins⟩ :=
        search.exists_requires_aligned lightens lightCurrent
      have isNext := (holds.nextRequire?_eq head).trans next
      exact ⟨_, path.tail (.leaveRequire isNext isOptional),
        holds.skipRequire thins⟩
  | wire through lightCurrent next needed offered consistent done =>
      exact exists_path_of_wire thinning lightens through lightCurrent next
        needed offered consistent done
  | leaveImport through lightCurrent next allowed =>
      obtain ⟨middle, bound, path, holds, isThrough, head, thins⟩ :=
        search.exists_imports_aligned lightens lightCurrent through
      have isNext := (holds.nextImport?_eq head).trans next
      have alsoAllowed :=
        (Draft.Lightens.leavesKeeping_iff holds.lighter).1 allowed
      exact ⟨_, path.tail (.leaveImport isThrough holds.current isNext
        alsoAllowed), holds.skipImport thins⟩
  | complete resolving through decided =>
      have binds := reflects.imports_of_none
        (search.isSustained_binds module) (by rw [resolving]; rfl) through
      obtain ⟨light, lightCurrent, _⟩ := binds.1.scheduled.stage
      obtain ⟨middle, bound, path, holds, isThrough, head, thins⟩ :=
        search.exists_imports_aligned lightens lightCurrent through
      have isDecided := (holds.nextImport?_eq head).trans decided
      exact ⟨_, path.tail (.complete
        (holds.lightens.resolving.symm.trans resolving) isThrough isDecided),
        holds.lightens.completeResolving⟩
  | startNext resolving started =>
      obtain ⟨later, starts, kept⟩ := lightens.startNext? started
      exact ⟨later, .single (.startNext
        (lightens.resolving.symm.trans resolving) starts), kept⟩

/-- Where transitions lead from a lighter draft in which something is bound, they
lead from the draft itself as well. -/
theorem exists_path
    {first last : Checkpoint} (thinning : revision.IsThinning)
    (lightens : draft.Lightens revision first.draft)
    (reflects : Reflects (Binds module) first)
    (path : search.Path search.LeavesKeeping first last) :
    ∃ later,
      search.Path search.LeavesKeeping ⟨first.isStarting, draft⟩
        ⟨last.isStarting, later⟩ ∧
          later.Lightens revision last.draft := by
  induction path with
  | refl => exact ⟨draft, .refl, lightens⟩
  | tail before transition inductionHypothesis =>
      obtain ⟨middle, path, kept⟩ := inductionHypothesis
      have sustained := reflects_of_path (search.isSustained_binds module) reflects
        before
      obtain ⟨later, onward, lightensThen⟩ :=
        exists_path_of_transition thinning kept sustained transition
      exact ⟨later, path.trans onward, lightensThen⟩

end Search

end ModuleWiring
