import ModuleWiring.Proofs.Joining
import ModuleWiring.Proofs.LighterSearch

/-!
# Optional requirements

A generation that can be resolved without its optional imports and requires can be
resolved with them.  The one exception is a fragment that would join a host that was
resolved before: the wires of that host have to suit its optional imports as well.
-/

namespace ModuleWiring

/-- The generation without what is optional in its manifest. -/
def Generation.trimmed (generation : Generation) : Generation :=
  { generation with
    manifest := { generation.manifest with
      imports := generation.manifest.imports.filter (!·.isOptional)
      requires := generation.manifest.requires.filter (!·.isOptional) } }

namespace Revision

/-- The change of one generation that leaves out what is optional. -/
def trimming (target : Generation) : Revision :=
  .of target target.trimmed ⟨_, _, rfl⟩

theorem trimming_self (target : Generation) :
    trimming target target = target.trimmed :=
  if_pos rfl

theorem isThinning_trimming (target : Generation) :
    (trimming target).IsThinning := by
  constructor
  · intro generation
    change Thins _ _ (if generation = target then target.trimmed
      else generation).imports
    split
    · rename_i isTarget
      rw [isTarget]
      refine (Thins.of_filter target.manifest.imports).flatMap ?_
      rintro wanted isOptional _ member
      obtain ⟨package, _, rfl⟩ := List.mem_map.1 member
      exact isOptional
    · exact .refl _
  · intro generation
    change Thins _ _ (if generation = target then target.trimmed
      else generation).manifest.requires
    split
    · rename_i isTarget
      rw [isTarget]
      exact .of_filter _
    · exact .refl _

end Revision

/-- A host was resolved with a wire that does not suit an optional import of a
fragment. -/
structure Store.TurnsDown (store : Store) (host fragment : Generation) :
    Prop where
  isResolved : (store.state host).isResolved = true
  exists_wire : ∃ requirement ∈ fragment.imports,
    requirement.isOptional = true ∧ ∃ wire ∈ store.wires host,
      wire.package = requirement.package ∧
        requirement.accepts wire.declared wire.exporter = false

theorem Store.turnsDown_of_not_suits
    {store : Store} {host fragment : Generation}
    (isResolved : (store.state host).isResolved = true)
    (unsuited : ¬ (BoundModule.reopen (.of store host)).Suits
      fragment.imports) :
    store.TurnsDown host fragment := by
  unfold BoundModule.Suits at unsuited
  push Not at unsuited
  obtain ⟨requirement, member, isOptional, wire, wired, rejected⟩ := unsuited
  change (Wirings.ofList (store.wires host)).find? _ = _ at wired
  have keyed := Wirings.isKeyed_ofList (store.wires host)
  exact ⟨isResolved, requirement, member, isOptional, wire,
    Wirings.mem_of_find?_ofList wired, keyed wired, by simpa using rejected⟩

namespace Search

variable {search : Search} {revision : Revision} {draft other final : Draft}
  {store : Store} {generations : List Generation} {target : Generation}

/-- A lighter draft is done exactly when the draft itself is. -/
theorem isDone_eq (lightens : draft.Lightens revision other) :
    other.isDone = draft.isDone := by
  unfold Draft.isDone
  rw [lightens.queue, lightens.resolving]

theorem isSome_found_of_path
    {last : Checkpoint} (orderly : IsOrderly ⟨.start, draft⟩)
    (path : search.Path search.LeavesKeeping ⟨true, draft⟩ last)
    (isDone : last.draft.isDone = true) :
    (search.run draft).found.isSome = true :=
  (isExact_explore orderly id fun _ _ _ allowed => allowed).isSome_iff.2
    ⟨last, path, isDone⟩

/-- A fragment that attaches to a host is one of its fragments from then on. -/
theorem exists_binds_of_attach
    {id : GenerationId} {fragment host : Generation} {result : Draft}
    (orderly : IsOrderly ⟨.start, draft⟩)
    (resolving : draft.resolving = some id)
    (known : draft.generation? id = some fragment)
    (isFragment : fragment.isFragment = true)
    (offered : host ∈ search.hostChoices draft fragment)
    (done : draft.attachFragment id host.id = .ok result) :
    ∃ module, Binds module ⟨.requires, result⟩ ∧ module.host = host ∧
      fragment ∈ module.fragments := by
  have found := orderly.unresolved_of_turn resolving known isFragment
  have same : fragment.id = id := Draft.id_of_candidate? found
  subst same
  obtain ⟨candidate, base, new, _, attaches⟩ :=
    orderly.scheduled.exists_attaches resolving found offered done
  obtain ⟨hostKnown, _⟩ := hosted_of_mem_hostChoices offered
  have isHost : new.host = host := by
    rw [attaches.host_eq]
    simpa [Draft.generation?, attaches.found] using hostKnown
  have step := step_of_attach orderly resolving known isFragment offered done
  refine ⟨new, ⟨isOrderly_of_decision orderly (decision_of_step step), new,
    (attaches.candidate?_eq _).trans (if_pos ?_), rfl,
    List.Subset.refl _⟩, isHost, ?_⟩
  · rw [isHost]
  · rw [attaches.taken.fragments]
    exact List.mem_append_right _ List.mem_cons_self

/-- A fragment begins its search unresolved. -/
theorem turn_of_initial
    (isFragment : target.isFragment = true)
    (begun : Draft.initial store generations target = .ok draft) :
    draft.resolving = some target.id ∧
      draft.generation? target.id = some target := by
  obtain ⟨middle, _, ⟨_, same⟩ | ⟨notFragment, _⟩⟩ :=
    Draft.exists_of_initial begun
  · rw [same]
    refine ⟨rfl, ?_⟩
    change Option.map _ ((middle.put (.unresolved target)).candidate?
      target.id) = _
    rw [Draft.candidate?_put]
    exact congrArg _ (if_pos rfl)
  · rw [isFragment] at notFragment
    cases notFragment

/-- A resolved host turns down a fragment that its wires do not suit. -/
theorem turnsDown_of_found
    {host : Generation} {wired : ResolvedModule}
    (begins : draft.Begins store generations target)
    (found : draft.candidate? host.id = some (.resolved wired))
    (known : draft.generation? host.id = some host)
    (unsuited : ¬ (BoundModule.reopen wired).Suits target.imports) :
    store.TurnsDown host target := by
  have isHost : wired.generation = host := by
    simpa [Draft.generation?, found, Candidate.generation] using known
  cases (begins.given found).2 with
  | @resolved generation isResolved _ =>
      obtain rfl : generation = host := isHost
      exact Store.turnsDown_of_not_suits isResolved unsuited

/-- A fragment can join the host that takes on the lighter one and go on from there,
or the host turns it down. -/
theorem exists_path_or_turnsDown
    {host : Generation} {result : Draft} (thinning : revision.IsThinning)
    (begins : draft.Begins store generations target)
    (lightens : draft.Lightens revision other)
    (lightOrderly : IsOrderly ⟨.start, other⟩)
    (isFragment : target.isFragment = true)
    (turn : draft.resolving = some target.id)
    (known : draft.generation? target.id = some target)
    (offered : host ∈ search.hostChoices other (revision target))
    (done : other.attachFragment target.id host.id = .ok result)
    (path : search.Path search.LeavesKeeping ⟨false, result⟩ ⟨false, final⟩)
    (isDone : final.isDone = true) :
    (∃ later, search.Path search.LeavesKeeping ⟨true, draft⟩ ⟨false, later⟩ ∧
      later.Lightens revision final) ∨
        ∃ host, store.TurnsDown host target ∧
          ∃ bound, final.candidate? host.id = some (.bound bound) ∧
            bound.host = revision host ∧
              revision target ∈ bound.fragments := by
  have lightTurn : other.resolving = some target.id :=
    lightens.resolving.trans turn
  have lightKnown : other.generation? target.id = some (revision target) := by
    rw [lightens.generation?_eq, known]
    rfl
  have lightIsFragment : (revision target).isFragment = true :=
    (revision.revises target).isFragment.trans isFragment
  obtain ⟨module, binds, sameHost, listed⟩ := exists_binds_of_attach
    lightOrderly lightTurn lightKnown lightIsFragment offered done
  obtain ⟨untouched, _, _⟩ := lightOrderly.scheduled.untouched_of_start
    lightTurn (lightOrderly.unresolved_of_turn lightTurn lightKnown
      lightIsFragment)
  rw [lightens.hostChoices_eq] at offered
  obtain ⟨chosen, member, rfl⟩ := List.mem_map.1 offered
  have sameId := (revision.revises chosen).id
  rw [sameId] at done
  by_cases suits : ∀ wired,
      draft.candidate? chosen.id = some (.resolved wired) →
        (BoundModule.reopen wired).Suits target.imports
  · obtain ⟨middle, attaches, kept⟩ :=
      lightens.attachFragment thinning known untouched suits _ done
    obtain ⟨later, reached, keptThen⟩ :=
      exists_path thinning kept (.requires binds) path
    exact .inl ⟨later, .head (.attach turn known isFragment member attaches)
      reached, keptThen⟩
  · right
    push Not at suits
    obtain ⟨wired, found, unsuited⟩ := suits
    obtain ⟨hostKnown, _⟩ := hosted_of_mem_hostChoices member
    have last := (reflects_of_path (search.isSustained_binds module)
      (.requires binds) path).finished_of_isDone
        (search.isSustained_binds module) isDone
    obtain ⟨_, bound, here, bindsHost, kept⟩ := last
    rw [sameHost, sameId] at here
    exact ⟨chosen, turnsDown_of_found begins found hostKnown unsuited, bound,
      here, bindsHost.trans sameHost, kept listed⟩

/-- If a search for lighter generations leads to a wiring, so does the one for the
generations themselves, unless a host turns the target down that takes on the lighter
one. -/
theorem isSome_found_or_turnsDown
    (thinning : revision.IsThinning)
    (installed : store.state target = .installed)
    (begun : Draft.initial store generations target = .ok draft)
    (lightBegun : Draft.initial (revision.store store)
      (generations.map revision) (revision target) = .ok other)
    (lightens : draft.Lightens revision other)
    (path : search.Path search.LeavesKeeping ⟨true, other⟩ ⟨false, final⟩)
    (isDone : final.isDone = true) :
    (search.run draft).found.isSome = true ∨
      target.isFragment = true ∧ ∃ host, store.TurnsDown host target ∧
        ∃ bound, final.candidate? host.id = some (.bound bound) ∧
          bound.host = revision host ∧ revision target ∈ bound.fragments := by
  have orderly := isOrderly_of_initial begun
  have lightOrderly := isOrderly_of_initial lightBegun
  have sameKind := (revision.revises target).isFragment
  have finds : ∀ {last : Draft},
      search.Path search.LeavesKeeping ⟨true, draft⟩ ⟨false, last⟩ →
        last.Lightens revision final → (search.run draft).found.isSome = true :=
    fun reached kept => isSome_found_of_path orderly reached
      ((isDone_eq kept).symm.trans isDone)
  cases isFragment : target.isFragment with
  | false =>
      have found := Draft.candidate?_target_of_initial lightBegun
        (sameKind.trans isFragment)
      have reflects : Reflects (Binds (.of (revision target)))
          ⟨true, other⟩ :=
        .start ⟨lightOrderly, _, found, rfl, List.Subset.refl _⟩
      obtain ⟨later, reached, kept⟩ :=
        exists_path thinning lightens reflects path
      exact .inl (finds reached kept)
  | true =>
      obtain ⟨begins, _⟩ :=
        Draft.begins_of_initial (by rw [installed]; rfl) begun
      obtain ⟨turn, known⟩ := turn_of_initial isFragment begun
      have lightTurn := lightens.resolving.trans turn
      have lightKnown := lightens.generation?_eq target.id
      rw [known, Option.map_some] at lightKnown
      rcases path.cases_head with same | ⟨next, transition, rest⟩
      · cases same
      cases transition with
      | bind resolving isKnown notFragment _ _ =>
          cases lightTurn.symm.trans resolving
          cases lightKnown.symm.trans isKnown
          rw [sameKind, isFragment] at notFragment
          cases notFragment
      | attach resolving isKnown _ offered done =>
          cases lightTurn.symm.trans resolving
          cases lightKnown.symm.trans isKnown
          rcases exists_path_or_turnsDown thinning begins lightens lightOrderly
            isFragment turn known offered done rest isDone with
            ⟨later, reached, kept⟩ | turnedDown
          · exact .inl (finds reached kept)
          · exact .inr ⟨rfl, turnedDown⟩

end Search

/-- What is optional is no reason that a generation cannot be resolved, unless a host
that was resolved before turns it down. -/
theorem Resolver.exists_resolve_of_trimmed
    {resolver : Resolver} {store : Store} {target : Generation}
    {answer : List Solution}
    (solved : ((Revision.trimming target).resolver resolver).resolve
      ((Revision.trimming target).store store) target.trimmed = .ok answer) :
    (∃ another, resolver.resolve store target = .ok another) ∨
      target.isFragment = true ∧ ∃ host, store.TurnsDown host target ∧
        ∃ solution ∈ answer,
          solution.host = host ∧ target.trimmed ∈ solution.fragments := by
  let trimming := Revision.trimming target
  have isTrimmed : trimming target = target.trimmed :=
    Revision.trimming_self target
  obtain ⟨final, result, rfl⟩ := exists_of_solutions solved
  rw [← isTrimmed] at result
  obtain ⟨framework, other, lightInstalled, lightBegun, run⟩ :=
    exists_run_of_attempt result
  rw [trimming.canonical_resolver] at lightBegun
  have installed : store.state target = .installed :=
    (trimming.state_store store target).symm.trans lightInstalled
  have thinning := Revision.isThinning_trimming target
  obtain ⟨draft, begun, lightens⟩ := (Draft.matches_initial
    trimming.carries_lightens
    (fun generation => .bound (BoundModule.lightens_of thinning generation))
    .unresolved store (resolver.canonical store) target).exists_left lightBegun
  obtain ⟨path, lastOrderly⟩ :=
    Search.path_of_line (Search.isOrderly_of_initial lightBegun) run.line
  have started : resolver.framework = some framework := run.started
  have tracks : resolver.tracks target = true :=
    (trimming.tracks_resolver resolver target).symm.trans run.tracks
  rcases Search.isSome_found_or_turnsDown thinning installed begun lightBegun
    lightens path lastOrderly.scheduled.stage with
    found | ⟨isFragment, host, turnsDown, bound, here, sameHost, listed⟩
  · obtain ⟨another, isFound⟩ := Option.isSome_iff_exists.1 found
    refine .inl ⟨another.solutions, ?_⟩
    have attempt := attempt_eq started tracks installed begun
    change (resolver.attempt store target).solutions = _
    rw [attempt, solutions_ofOutcome]
    exact ⟨another, isFound, rfl⟩
  · obtain ⟨solution, member, isHost, fragments⟩ :=
      run.finished.exists_solution here
    have notTarget : host ≠ target := by
      rintro rfl
      have isResolved := turnsDown.isResolved
      rw [installed] at isResolved
      cases isResolved
    refine .inr ⟨isFragment, host, turnsDown, solution, member, ?_, ?_⟩
    · rw [isHost, sameHost]
      exact if_neg notTarget
    · rw [fragments, ← isTrimmed]
      exact listed

namespace Sample

/-- A host that imports a package. -/
def pickyHost : Manifest :=
  bundle "h" [] [wish "p" 1]

/-- A fragment that would rather have a newer version of the package. -/
def wishfulFragment : Manifest :=
  fragment "f" "h" [] [(wish "p" 2).asOptional]

/-- The world in which the host was resolved before the fragment came. -/
def settledHost : World :=
  ((world [pickyHost, bundle "x" [offer "p" 1] []]).applying
    (generation 0 pickyHost) fun _ => true).installing (id 2, wishfulFragment)

/-- The fragment that came. -/
def wishful : Generation :=
  generation 2 wishfulFragment

end Sample

/-- A fragment that could join its host without its optional import is turned down
with it. -/
theorem World.wishful_fragment_turned_down :
    Sample.settledHost.resolver.resolve Sample.settledHost.store
        Sample.wishful = .error (.noSolution Sample.wishful) ∧
      ∃ answer,
        ((Revision.trimming Sample.wishful).resolver
            Sample.settledHost.resolver).resolve
          ((Revision.trimming Sample.wishful).store
            Sample.settledHost.store) Sample.wishful.trimmed =
          .ok answer ∧
        ∃ host, Sample.settledHost.store.TurnsDown host Sample.wishful ∧
          ∃ solution ∈ answer, solution.host = host ∧
            Sample.wishful.trimmed ∈ solution.fragments := by
  have fails : Sample.settledHost.resolver.resolve Sample.settledHost.store
      Sample.wishful = .error (.noSolution Sample.wishful) := by
    decide +kernel
  have solved : (((Revision.trimming Sample.wishful).resolver
      Sample.settledHost.resolver).resolve
        ((Revision.trimming Sample.wishful).store Sample.settledHost.store)
        Sample.wishful.trimmed).toOption.isSome = true := by
    decide +kernel
  obtain ⟨answer, found⟩ := Option.isSome_iff_exists.1 solved
  have resolved := Search.eq_ok_of_toOption found
  refine ⟨fails, answer, resolved, ?_⟩
  rcases Resolver.exists_resolve_of_trimmed resolved with
    ⟨another, succeeds⟩ | ⟨_, turnedDown⟩
  · rw [fails] at succeeds
    cases succeeds
  · exact turnedDown

end ModuleWiring
