import ModuleWiring.Proofs.Checkpoints
import ModuleWiring.Proofs.Retracing

/-!
# Repeating a finished wiring

Wherever a search goes by a template there is one more move that does so.  The
search finds some wiring in the end, whether or not it is that of the template.
-/

namespace ModuleWiring

namespace Draft

variable {reordering : Reordering} {template draft : Draft} {search : Search}
  {carried : Generation → List Generation}

namespace Follows

theorem of_same
    {result : Draft} (follows : template.Follows reordering draft)
    (store : result.store = draft.store)
    (candidates : result.candidates = draft.candidates)
    (used : result.used = draft.used) (unused : result.unused = draft.unused)
    (attached : result.attached = draft.attached)
    (singletons : result.singletons = draft.singletons) :
    template.Follows reordering result := by
  have same : ∀ id, result.candidate? id = draft.candidate? id := by
    intro id
    unfold candidate?
    rw [candidates]
  constructor
  · exact store.trans follows.store
  · intro id
    rw [same]
    exact follows.fits id
  · intro id wired contained found
    rw [used] at contained
    rw [same] at found
    exact follows.used contained found
  · intro fragment available
    rw [unused]
    refine follows.loose ⟨same _ ▸ available.found, available.isFragment, ?_⟩
    have unattached := available.unattached
    unfold hostOf? at unattached ⊢
    rwa [attached] at unattached
  · intro id candidate found isSingleton
    rw [singletons]
    rw [same] at found
    exact follows.registered found isSingleton

/-- A candidate is bound, or decided upon, as in the template. -/
theorem put
    {id : GenerationId} {candidate : Candidate} {bound new : BoundModule}
    (follows : template.Follows reordering draft)
    (found : draft.candidate? id = some candidate)
    (here : template.candidate? id = some (.bound bound))
    (sameHost : new.host = candidate.generation)
    (keeps : bound.Keeps template reordering new) :
    template.Follows reordering (draft.put (.bound new)) := by
  have sameId : new.host.id = id :=
    (congrArg Generation.id sameHost).trans (id_of_candidate? found)
  have candidates : ∀ other, (draft.put (.bound new)).candidate? other =
      if id = other then some (.bound new) else draft.candidate? other := by
    intro other
    rw [candidate?_put, id_bound, sameId]
  constructor
  · exact follows.store
  · intro other
    rw [candidates]
    split
    · rename_i isHere
      rw [← isHere, here]
      exact .some (.bound keeps)
    · exact follows.fits other
  · intro other wired contained hit
    rw [candidates] at hit
    split at hit
    · cases hit
    · exact follows.used contained hit
  · intro fragment available
    have hit := available.found
    rw [candidates] at hit
    split at hit
    · cases hit
    · exact follows.loose ⟨hit, available.isFragment, available.unattached⟩
  · intro other theirs hit isSingleton
    rw [candidates] at hit
    split at hit
    · rename_i isHere
      cases hit
      subst isHere
      change new.host.isSingleton = true at isSingleton
      change draft.singletons.find? new.host.symbolicName = some _
      rw [sameHost] at isSingleton ⊢
      exact follows.registered found isSingleton
    · exact follows.registered hit isSingleton

/-- A module of the template that waits can be bound. -/
theorem exists_enlist
    {id : GenerationId} {bound : BoundModule}
    (follows : template.Follows reordering draft)
    (here : template.candidate? id = some (.bound bound))
    (found : draft.candidate? id =
      some (.unresolved (reordering bound.host))) :
    ∃ middle, draft.enlist id = .ok middle ∧
      template.Follows reordering middle := by
  obtain ⟨named, done⟩ := follows.registered.exists_registerSingleton found
  replace done : draft.registerSingleton (reordering bound.host) =
    .ok named := done
  have put : template.Follows reordering
      (draft.put (.bound (.of (reordering bound.host)))) :=
    follows.put found here rfl
      (BoundModule.keeps_of template reordering bound)
  have atHost : (draft.put (.bound (.of (reordering bound.host)))).candidate?
      id = some (.bound (.of (reordering bound.host))) := by
    have sameId : (reordering.change bound.host).id = id :=
      id_of_candidate? found
    rw [candidate?_put, id_bound]
    exact if_pos sameId
  have registered : (named.put (.bound
      (.of (reordering bound.host)))).IsRegistered :=
    follows.registered.put done
  refine ⟨{ (named.put (.bound (.of (reordering bound.host)))).use id with
    queue := named.queue ++ [id] }, ?_, ?_⟩
  · simp [enlist, found, done, bind, Except.bind, pure, Except.pure, use,
      Draft.put]
  rw [registerSingleton_eq done] at registered ⊢
  refine { put with used := ?_, loose := ?_, registered := registered }
  · intro other wired contained hit
    rcases (Roster.contains_insert _ _ _).1 contained with isHost | before
    · obtain rfl : id = other := isHost
      cases atHost.symm.trans hit
    · exact put.used before hit
  · intro fragment available
    have loose := put.loose
      ⟨available.found, available.isFragment, available.unattached⟩
    refine (Roster.contains_erase _ _ _).2 ⟨?_, loose⟩
    rintro rfl
    cases atHost.symm.trans available.found

/-- What a module of the template is wired to or has to require can be engaged. -/
theorem exists_engage
    {id : GenerationId} {candidate : Candidate}
    (follows : template.Follows reordering draft)
    (here : template.candidate? id = some candidate)
    (touched : ∀ installed, candidate ≠ .unresolved installed)
    (needed : ∃ bound ∈ template.modules, ∃ partner ∈ bound.partners,
      partner.id = id) :
    ∃ middle, draft.engage id = .ok middle ∧
      template.Follows reordering middle := by
  obtain ⟨changed, found, fits⟩ := follows.exists_of_template here
  unfold engage
  rw [found]
  cases fits with
  | idle installed => exact absurd rfl (touched installed)
  | waiting bound => exact follows.exists_enlist here found
  | bound keeps => exact ⟨draft, rfl, follows⟩
  | resolved wired =>
      dsimp only
      refine ⟨_, rfl, ?_⟩
      split
      · refine { follows with used := ?_, loose := ?_ }
        · intro other module contained hit
          by_cases isHere : id = other
          · exact isHere ▸ needed
          · refine follows.used ?_ hit
            change (draft.used.insert id).contains other = true at contained
            simpa [Roster.contains, isHere] using contained
        · intro fragment available
          have hit : draft.candidate? fragment.id = some (.unresolved fragment) :=
            available.found
          have loose := follows.loose
            ⟨hit, available.isFragment, available.unattached⟩
          have different : id ≠ fragment.id := by
            rintro rfl
            rw [found] at hit
            cases hit
          change (draft.unused.erase id).contains fragment.id = true
          simpa [Roster.contains, different] using loose
      · exact follows

/-- Fragments are free that the template attaches to a host which has not begun to
be decided. -/
theorem available
    {installed : Generation} {bound : BoundModule}
    (follows : template.Follows reordering draft)
    (isTemplate : template.IsTemplate search)
    (balanced : draft.IsBalanced carried)
    (found : draft.candidate? installed.id = some (.bound (.of installed)))
    (here : template.candidate? installed.id = some (.bound bound)) :
    ∀ fragment ∈ bound.fragments.map reordering,
      draft.IsAvailable fragment := by
  intro fragment member
  obtain ⟨original, listed, rfl⟩ := List.mem_map.1 member
  have reorders := reordering.reorders original
  have repeatable := isTemplate.repeatable here
  obtain ⟨attached, known, isFragment⟩ :=
    repeatable.attached original listed
  obtain ⟨changed, hit, fits⟩ := follows.exists_of_template known
  cases fits with
  | idle _ =>
      refine ⟨reorders.id ▸ hit, reorders.isFragment ▸ isFragment, ?_⟩
      rw [reorders.id]
      cases claimed : draft.hostOf? original.id with
      | none => rfl
      | some host =>
          obtain ⟨_, joined, module, joinedHit, hostHit, inside⟩ :=
            balanced.claimed claimed
          rw [hit] at joinedHit
          cases joinedHit
          obtain ⟨theirs, theirsHere, keeps⟩ := follows.exists_keeps hostHit
          have sameHost : theirs.host.id = host := id_of_candidate? theirsHere
          have mine : bound.host.id = installed.id := id_of_candidate? here
          have isHost : host = installed.id := by
            rcases keeps.fragments with alone | all
            · rw [alone] at inside
              cases inside
            · rw [all] at inside
              obtain ⟨twin, twinListed, same⟩ := List.mem_map.1 inside
              have sameId : twin.id = original.id :=
                (reordering.reorders twin).id.symm.trans
                  ((congrArg Generation.id same).trans reorders.id)
              have twinAttached :=
                ((isTemplate.repeatable theirsHere).attached twin
                  twinListed).1
              rw [sameId, attached, mine, sameHost] at twinAttached
              exact (Option.some.inj twinAttached).symm
          rw [isHost, found] at hostHit
          cases hostHit
          cases inside

/-- A host takes on the fragments that it has in the template. -/
theorem bind
    {installed : Generation} {bound new : BoundModule} {result : Draft}
    {joined : List Generation} (follows : template.Follows reordering draft)
    (here : template.candidate? installed.id = some (.bound bound))
    (binds : draft.Binds result installed joined new)
    (keeps : bound.Keeps template reordering new) :
    template.Follows reordering result := by
  have put := follows.put binds.found here binds.taken.host keeps
  have annotated := binds.annotated
  rw [annotated]
  refine { put with loose := ?_ }
  intro fragment available
  have unattached : result.hostOf? fragment.id = none := by
    rw [annotated]
    exact available.unattached
  have found : (draft.put (.bound new)).candidate? fragment.id =
    some (.unresolved fragment) := available.found
  rw [binds.same] at unattached ⊢
  change (draft.claimAll installed.id joined).hostOf? fragment.id = none
    at unattached
  change (draft.claimAll installed.id joined).unused.contains fragment.id =
    true
  rw [hostOf?_claimAll] at unattached
  split at unattached
  · cases unattached
  · rename_i apart
    refine (unused_claimAll _ _ _ _).2 ⟨put.loose
      ⟨found, available.isFragment, unattached⟩, ?_⟩
    intro other member same
    exact apart (same ▸ List.mem_map_of_mem member)

end Follows

end Draft

namespace Search

variable {reordering : Reordering} {template draft : Draft} {search : Search}
  {carried : Generation → List Generation}

/-- A search goes by a template.  The module in charge has its fragments, and no
wires before it has its providers. -/
structure Retraces (reordering : Reordering) (template : Draft)
    (node : Node) : Prop where
  follows : template.Follows reordering node.draft
  touched : ¬ node.draft.IsUntouched
  joined : node.phase ≠ .start → ∀ {new bound : BoundModule},
    node.draft.resolvingBound? = some new →
      template.candidate? new.host.id = some (.bound bound) →
        new.fragments = bound.fragments.map reordering
  unwired : node.phase = .requires → ∀ {new : BoundModule},
    node.draft.resolvingBound? = some new → new.wirings = ∅

namespace Retraces

/-- The module in charge is one of the template. -/
theorem exists_keeps
    {node : Node} {new : BoundModule}
    (retraces : Retraces reordering template node)
    (current : node.draft.resolvingBound? = some new) :
    ∃ bound, template.candidate? new.host.id = some (.bound bound) ∧
      bound.Keeps template reordering new :=
  retraces.follows.exists_keeps (Draft.candidate?_of_resolvingBound? current)

/-- The module in charge goes on as in the template. -/
theorem revise
    {phase : Phase} {old new bound : BoundModule}
    (retraces : Retraces reordering template ⟨phase, draft⟩)
    (begun : phase ≠ .start) {middle : Draft}
    (follows : template.Follows reordering middle)
    (before : draft.resolvingBound? = some old)
    (current : middle.resolvingBound? = some old)
    (here : template.candidate? old.host.id = some (.bound bound))
    (keeps : bound.Keeps template reordering new)
    (sameHost : new.host = old.host)
    (sameFragments : new.fragments = old.fragments)
    (sameWirings : phase = .requires → new.wirings = old.wirings) :
    Retraces reordering template ⟨phase, middle.put (.bound new)⟩ where
  follows := follows.put (Draft.candidate?_of_resolvingBound? current) here
    sameHost keeps
  touched := fun untouched => untouched _ new
    (Draft.candidate?_put_self
      (Draft.candidate?_of_resolvingBound? current) sameHost)
  joined := by
    intro _ other theirs otherCurrent otherHere
    dsimp only at otherCurrent
    rw [Draft.resolvingBound?_put current sameHost] at otherCurrent
    cases otherCurrent
    rw [sameHost] at otherHere
    rw [sameFragments]
    exact retraces.joined begun before otherHere
  unwired := by
    intro inRequires other otherCurrent
    dsimp only at otherCurrent
    rw [Draft.resolvingBound?_put current sameHost] at otherCurrent
    cases otherCurrent
    exact (sameWirings inRequires).trans (retraces.unwired inRequires before)

/-- A host takes on the fragments that it has in the template. -/
theorem exists_step_of_start
    (retraces : Retraces reordering template ⟨.start, draft⟩)
    (isTemplate : template.IsTemplate search)
    (scheduled : Scheduled ⟨.start, draft⟩)
    (balanced : draft.IsBalanced carried) :
    ∃ result, search.problem.Step ⟨.start, draft⟩ result ∧
      Retraces reordering template result := by
  have follows := retraces.follows
  rcases scheduled.stage with
    ⟨installed, resolving, found⟩ | ⟨_, _, _, _, untouched⟩
  · dsimp only at follows resolving found
    obtain ⟨bound, here, fits⟩ := follows.exists_keeps found
    have isHost : installed = reordering bound.host := fits.host
    have repeatable := isTemplate.repeatable here
    have notFragment : installed.isFragment = false := by
      rw [isHost, (reordering.reorders _).isFragment]
      exact repeatable.notFragment
    have available := follows.available isTemplate balanced found here
    have suits : search.Suits { bound with
        host := reordering bound.host
        fragments := bound.fragments.map reordering } :=
      repeatable.suits.reorder reordering rfl rfl
    obtain ⟨result, new, step, binds⟩ := exists_step_of_suits resolving found
      notFragment isHost.symm suits available
      fun fragment member => follows.loose (available fragment member)
    have taken := binds.taken
    rw [isHost] at taken
    have keeps : bound.Keeps template reordering new := .of_takesOn taken
    have current := Draft.resolvingBound?_eq_some resolving found
    have after : result.resolvingBound? = some new := by
      rw [binds.annotated]
      exact Draft.resolvingBound?_put current binds.taken.host
    refine ⟨_, step, follows.bind here binds keeps, ?_, ?_, ?_⟩
    · exact fun untouched => untouched _ new
        (Draft.candidate?_of_resolvingBound? after)
    · intro _ other theirs otherCurrent otherHere
      dsimp only at otherCurrent
      rw [after] at otherCurrent
      cases otherCurrent
      have sameId : new.host.id = installed.id :=
        congrArg Generation.id binds.taken.host
      rw [sameId, here] at otherHere
      cases otherHere
      exact taken.fragments
    · intro _ other otherCurrent
      dsimp only at otherCurrent
      rw [after] at otherCurrent
      cases otherCurrent
      exact taken.wirings
  · exact absurd untouched retraces.touched

/-- Another generation than the host is not in charge. -/
theorem resolving_ne
    {new bound : BoundModule} {id : GenerationId}
    (current : draft.resolvingBound? = some new)
    (here : template.candidate? new.host.id = some (.bound bound))
    (foreign : id ≠ bound.host.id) :
    draft.resolving ≠ some id := by
  obtain ⟨inCharge, resolving, found⟩ :=
    Draft.exists_of_resolvingBound? current
  have mine : bound.host.id = new.host.id := Draft.id_of_candidate? here
  have isNew : new.host.id = inCharge := Draft.id_of_candidate? found
  rw [resolving, ← isNew, ← mine]
  exact fun same => foreign (Option.some.inj same).symm

/-- The provider that the template has for a mandatory require is among the
choices. -/
theorem mem_requireChoices
    {new bound : BoundModule} {provision : Provision}
    (retraces : Retraces reordering template ⟨.requires, draft⟩)
    (isTemplate : template.IsTemplate search)
    (scheduled : Scheduled ⟨.requires, draft⟩)
    (balanced : draft.IsBalanced carried)
    (current : draft.resolvingBound? = some new)
    (here : template.candidate? new.host.id = some (.bound bound))
    (needed : provision ∈ bound.needed) :
    draft.generation? (reordering provision.provider).id =
        some (reordering provision.provider) ∧
      draft.resolving ≠ some (reordering provision.provider).id ∧
        reordering provision.provider ∈
          search.requireChoices draft provision.require := by
  obtain ⟨foreign, provided, candidate, known, isProvider, touched⟩ :=
    (isTemplate.repeatable here).required provision
      (BoundModule.mem_needed.1 needed).1
  rw [← (reordering.reorders provision.provider).provides] at provided
  have sameId : (reordering provision.provider).id = provision.provider.id :=
    (reordering.reorders _).id
  have other : draft.resolving ≠ some (reordering provision.provider).id :=
    resolving_ne current here (sameId ▸ foreign)
  obtain ⟨changed, hit, fits⟩ := retraces.follows.exists_of_template known
  dsimp only at hit
  rw [← sameId] at hit
  have generation : changed.generation = reordering provision.provider :=
    fits.generation.trans (congrArg reordering isProvider)
  have present : draft.generation? (reordering provision.provider).id =
      some (reordering provision.provider) := by
    unfold Draft.generation?
    rw [hit, Option.map_some, generation]
  refine ⟨present, other,
    mem_requireChoices_of_provides present other provided ?_⟩
  cases fits with
  | idle installed => exact absurd rfl (touched installed)
  | resolved wired => exact (balanced.resolved hit).1
  | waiting exporting =>
      have same : reordering exporting.host =
        reordering provision.provider := generation
      have notFragment : (reordering exporting.host).isFragment = false := by
        rw [same]
        simp only [provides, Bool.and_eq_true, Bool.not_eq_true'] at provided
        exact provided.1.1
      exact .inr (balanced.free hit notFragment)
  | bound _ => exact .inl (scheduled.used hit)

/-- A mandatory require is met as in the template. -/
theorem exists_step_of_provide
    {new bound : BoundModule} {provision : Provision} {rest : List Require}
    (retraces : Retraces reordering template ⟨.requires, draft⟩)
    (isTemplate : template.IsTemplate search)
    (scheduled : Scheduled ⟨.requires, draft⟩)
    (balanced : draft.IsBalanced carried)
    (current : draft.resolvingBound? = some new)
    (here : template.candidate? new.host.id = some (.bound bound))
    (keeps : bound.Keeps template reordering new)
    (next : new.requires = provision.require :: rest)
    (needed : provision ∈ bound.needed) :
    ∃ result, search.problem.Step ⟨.requires, draft⟩ result ∧
      Retraces reordering template result := by
  have bindings := Draft.mem_modules_of_candidate? here
  obtain ⟨known, other, choice⟩ := retraces.mem_requireChoices isTemplate
    scheduled balanced current here needed
  obtain ⟨_, _, candidate, found, _, touched⟩ :=
    (isTemplate.repeatable here).required provision
      (BoundModule.mem_needed.1 needed).1
  have consistent := retraces.follows.isRequireConsistent
    isTemplate.unanimous bindings needed current
      (retraces.unwired rfl current)
  obtain ⟨middle, engaged, follows⟩ := retraces.follows.exists_engage found
    touched ⟨bound, bindings, provision.provider,
      List.mem_append_right _ (List.mem_map_of_mem needed), rfl⟩
  dsimp only at engaged consistent
  have sameId : (reordering provision.provider).id = provision.provider.id :=
    (reordering.reorders _).id
  rw [← sameId] at engaged
  have provided := provide?_eq_some current next known other consistent
    engaged
  have kept := ((Draft.engaged_of_engage engaged).resolvingBound? other).trans
    current
  have isNext : draft.nextRequire? = some provision.require := by
    simp [Draft.nextRequire?, current, next]
  refine ⟨_, step_of_provide isNext choice provided,
    retraces.revise (by simp) follows current kept here
      (keeps.provide next needed ?_) rfl rfl fun _ => rfl⟩
  intro wire visible
  split at visible
  · exact follows.exists_mayShow_of_visible
      (reordering.reorders provision.provider) visible
  · cases visible

/-- What has to be required is met as in the template, and nothing else is
required. -/
theorem exists_step_of_requires
    (retraces : Retraces reordering template ⟨.requires, draft⟩)
    (isTemplate : template.IsTemplate search)
    (scheduled : Scheduled ⟨.requires, draft⟩)
    (balanced : draft.IsBalanced carried) :
    ∃ result, search.problem.Step ⟨.requires, draft⟩ result ∧
      Retraces reordering template result := by
  obtain ⟨new, current⟩ := scheduled.stage
  obtain ⟨bound, here, keeps⟩ := retraces.exists_keeps current
  obtain ⟨id, resolving, _⟩ := Draft.exists_of_resolvingBound? current
  dsimp only at current resolving
  cases next : new.requires with
  | nil =>
      refine ⟨⟨.imports, draft⟩, ⟨.toImports, ?_, rfl⟩, retraces.follows,
        retraces.touched, fun _ => retraces.joined (by simp), by simp⟩
      change _ ∈ (Alternatives.ofList (search.requireMoves draft)).toList
      simp [requireMoves, resolving, Draft.nextRequire?, current, next]
  | cons require rest =>
      have joined := retraces.joined (by simp) current here
      have requested : require ∈ bound.requested := by
        rw [← keeps.requested_eq joined]
        exact keeps.requires (next ▸ List.mem_cons_self)
      cases optional : require.isOptional with
      | true =>
          have isNext : draft.nextRequire? = some require := by
            simp [Draft.nextRequire?, current, next]
          refine ⟨_, step_of_leaveRequire isNext optional, ?_⟩
          rw [Draft.skipRequire_eq current next]
          exact retraces.revise (by simp) retraces.follows current current
            here (keeps.leaveRequire next) rfl rfl fun _ => rfl
      | false =>
          obtain ⟨provision, provided, rfl⟩ :=
            (isTemplate.repeatable here).requested require requested optional
          exact retraces.exists_step_of_provide isTemplate scheduled balanced
            current here keeps next
            (BoundModule.mem_needed.2 ⟨provided, optional⟩)

/-- The wire that the template has for an import is among the choices. -/
theorem mem_wireChoices
    {new bound : BoundModule} {requirement : PackageImport} {wire : Wire}
    (retraces : Retraces reordering template ⟨.imports, draft⟩)
    (isTemplate : template.IsTemplate search)
    (balanced : draft.IsBalanced carried)
    (current : draft.resolvingBound? = some new)
    (here : template.candidate? new.host.id = some (.bound bound))
    (held : bound.wirings.find? requirement.package = some wire)
    (accepted : requirement.accepts wire.declared wire.exporter = true) :
    draft.resolving ≠ some wire.exporter.id ∧
      ⟨reordering wire.exporter, wire.declared⟩ ∈
        search.wireChoices draft requirement := by
  obtain ⟨package, foreign, _, candidate, known, isExporter, provides⟩ :=
    (isTemplate.repeatable here).provided held
  have other := resolving_ne current here foreign
  refine ⟨other, ?_⟩
  rw [← (reordering.reorders wire.exporter).accepts] at accepted
  obtain ⟨changed, hit, fits⟩ := retraces.follows.exists_of_template known
  dsimp only at hit
  have sameId : changed.id = wire.exporter.id := Draft.id_of_candidate? hit
  have generation : changed.generation = reordering wire.exporter :=
    fits.generation.trans (congrArg reordering isExporter)
  rw [← generation] at accepted ⊢
  obtain ⟨offered, worthwhile⟩ := fits.mem_offers provides
  rw [package] at offered worthwhile
  have grouped : (group? draft changed).isSome = true := by
    refine isSome_group? (sameId ▸ other) ?_
    rintro installed rfl
    cases fits with
    | idle _ => cases provides
    | waiting exporting =>
        have notFragment :
            (reordering.change exporting.host).isFragment = false := by
          rw [(reordering.reorders _).isFragment]
          exact (isTemplate.repeatable known).notFragment
        exact ⟨notFragment, sameId ▸ balanced.free hit notFragment⟩
  exact mem_wireChoices_of_offer (Draft.mem_of_candidate? hit) grouped
    worthwhile offered rfl rfl accepted

theorem exists_step_of_leaveImport
    (search : Search) {new bound : BoundModule} {requirement : PackageImport}
    {rest : List PackageImport}
    (retraces : Retraces reordering template ⟨.imports, draft⟩)
    (current : draft.resolvingBound? = some new)
    (here : template.candidate? new.host.id = some (.bound bound))
    (keeps : bound.Keeps template reordering new)
    (next : new.imports = requirement :: rest)
    (allowed : .leaveImport ∈ search.importChoices draft new requirement) :
    ∃ result, search.problem.Step ⟨.imports, draft⟩ result ∧
      Retraces reordering template result := by
  refine ⟨⟨.imports, draft.skipImport⟩, ⟨.leaveImport, ?_, rfl⟩, ?_⟩
  · change _ ∈ (Alternatives.ofList (search.importMoves draft)).toList
    simpa only [Alternatives.toList_ofList, importMoves, current, next]
      using allowed
  · rw [Draft.skipImport_eq current next]
    exact retraces.revise (by simp) retraces.follows current current here
      (keeps.leaveImport next) rfl rfl (by simp)

theorem exists_step_of_wire
    {new bound : BoundModule} {requirement : PackageImport}
    {rest : List PackageImport} {wire : Wire}
    (retraces : Retraces reordering template ⟨.imports, draft⟩)
    (isTemplate : template.IsTemplate search)
    (balanced : draft.IsBalanced carried)
    (current : draft.resolvingBound? = some new)
    (here : template.candidate? new.host.id = some (.bound bound))
    (keeps : bound.Keeps template reordering new)
    (next : new.imports = requirement :: rest)
    (unwired : new.wirings.find? requirement.package = none)
    (held : bound.wirings.find? requirement.package = some wire)
    (accepted : requirement.accepts wire.declared wire.exporter = true) :
    ∃ result, search.problem.Step ⟨.imports, draft⟩ result ∧
      Retraces reordering template result := by
  have bindings := Draft.mem_modules_of_candidate? here
  obtain ⟨package, _, undelegated, candidate, known, _, provides⟩ :=
    (isTemplate.repeatable here).provided held
  obtain ⟨other, choice⟩ := retraces.mem_wireChoices isTemplate balanced
    current here held accepted
  have sameId : (reordering wire.exporter).id = wire.exporter.id :=
    (reordering.reorders _).id
  have touched : ∀ installed, candidate ≠ .unresolved installed := by
    rintro installed rfl
    cases provides
  have agrees : isWireConsistent draft new requirement.package
      ⟨reordering wire.exporter, wire.declared⟩ = true := by
    rw [← package]
    exact retraces.follows.isWireConsistent isTemplate.unanimous bindings
      keeps (package ▸ held)
  obtain ⟨middle, engaged, follows⟩ := retraces.follows.exists_engage known
    touched ⟨bound, bindings, wire.exporter, List.mem_append_left _
      (List.mem_map_of_mem (Table.mem_values_of_find? held)), rfl⟩
  dsimp only at engaged
  rw [← sameId] at engaged other
  have isEngaged := Draft.engaged_of_engage engaged
  have kept := (isEngaged.resolvingBound? other).trans current
  have done := Draft.wire_eq_ok wire.declared engaged other current next
    unwired
  have same : (⟨requirement.package, wire.declared,
      reordering wire.exporter⟩ : Wire) = reordering.wire wire := by
    rw [← package]
    rfl
  rw [same, ← package] at done
  have keepsOn := keeps.wire next (package ▸ held)
  have needed : ¬ search.NeedsNoWire new requirement := by
    rintro (⟨_, wired, _⟩ | delegated)
    · rw [unwired] at wired
      cases wired
    · rw [undelegated] at delegated
      cases delegated
  exact ⟨_, step_of_wire current next needed choice agrees done,
    retraces.revise (by simp) follows current kept here keepsOn rfl rfl
      (by simp)⟩

/-- The next import may be left, or else is to be wired as in the template. -/
theorem leaves_or_wires
    {new bound : BoundModule} {requirement : PackageImport}
    {rest : List PackageImport}
    (retraces : Retraces reordering template ⟨.imports, draft⟩)
    (isTemplate : template.IsTemplate search)
    (current : draft.resolvingBound? = some new)
    (here : template.candidate? new.host.id = some (.bound bound))
    (keeps : bound.Keeps template reordering new)
    (next : new.imports = requirement :: rest) :
    .leaveImport ∈ search.importChoices draft new requirement ∨
      new.wirings.find? requirement.package = none ∧
        ∃ wire, bound.wirings.find? requirement.package = some wire ∧
          requirement.accepts wire.declared wire.exporter = true := by
  have joined := retraces.joined (by simp) current here
  have repeatable := isTemplate.repeatable here
  have demanded : requirement ∈ bound.demanded :=
    (keeps.mem_demanded joined).1 (keeps.imports (next ▸ List.mem_cons_self))
  have satisfied := repeatable.satisfied requirement demanded
  cases wired : new.wirings.find? requirement.package with
  | some wire =>
      left
      obtain ⟨original, held, rfl⟩ := keeps.wirings wired
      simp only [importChoices, wired]
      cases optional : requirement.isOptional with
      | true => simp
      | false =>
          obtain ⟨_, _, undelegated, _⟩ := repeatable.provided held
          rcases satisfied optional undelegated with
            ⟨wire, same, accepted⟩ | ⟨unwired, _⟩
          · rw [held] at same
            cases same
            have alsoAccepted : requirement.accepts original.declared
                (reordering original.exporter) = true := by
              rw [(reordering.reorders _).accepts]
              exact accepted
            simp [Revision.wire, alsoAccepted]
          · rw [held] at unwired
            cases unwired
  | none =>
      have allowed :
          isSelfServed new requirement = true ∨
            requirement.isOptional = true ∨
            search.framework.bootDelegation.covers requirement.package =
              true →
            .leaveImport ∈ search.importChoices draft new requirement := by
        intro may
        simp only [importChoices, wired]
        split
        · exact List.mem_cons_self
        · rename_i undelegated
          rcases may with served | optional | delegated
          · simp [served]
          · simp [optional]
          · exact absurd delegated undelegated
      cases optional : requirement.isOptional with
      | true => exact .inl (allowed (.inr (.inl optional)))
      | false =>
          cases delegated : search.framework.bootDelegation.covers
              requirement.package with
          | true => exact .inl (allowed (.inr (.inr delegated)))
          | false =>
              rcases satisfied optional delegated with
                wire | ⟨_, offer, own, accepted⟩
              · exact .inr ⟨rfl, wire⟩
              · refine .inl (allowed (.inl ?_))
                have first := keeps.offers.find?_offers wired
                  ((keeps.ownOffer?_of_joined joined _).trans own)
                have source := BoundModule.source_of_mem_ownOffers
                  (List.mem_of_find?_eq_some own)
                have alsoAccepted : requirement.accepts offer.declared
                    new.host = true := by
                  rw [keeps.host, (reordering.reorders _).accepts]
                  exact accepted
                simp [isSelfServed, first, Offer.exporter, source,
                  alsoAccepted]

/-- An import is decided as in the template. -/
theorem exists_step_of_imports
    (retraces : Retraces reordering template ⟨.imports, draft⟩)
    (isTemplate : template.IsTemplate search)
    (scheduled : Scheduled ⟨.imports, draft⟩)
    (balanced : draft.IsBalanced carried) :
    ∃ result, search.problem.Step ⟨.imports, draft⟩ result ∧
      Retraces reordering template result := by
  obtain ⟨new, current, _⟩ := scheduled.stage
  obtain ⟨bound, here, keeps⟩ := retraces.exists_keeps current
  obtain ⟨id, resolving, found⟩ := Draft.exists_of_resolvingBound? current
  dsimp only at current resolving found
  cases next : new.imports with
  | nil =>
      refine ⟨settle draft, ⟨.settle, ?_, rfl⟩, ?_⟩
      · change _ ∈ (Alternatives.ofList (search.importMoves draft)).toList
        simp [importMoves, current, next]
      · rw [scheduled.settle_eq resolving found]
        split
        · refine ⟨retraces.follows.of_same rfl rfl rfl rfl rfl rfl,
            retraces.touched, ?_, by simp⟩
          intro _ _ _ impossible
          cases impossible
        · exact ⟨retraces.follows.of_same rfl rfl rfl rfl rfl rfl,
            retraces.touched, fun later => absurd rfl later, by simp⟩
  | cons requirement rest =>
      rcases retraces.leaves_or_wires isTemplate current here keeps next with
        allowed | ⟨unwired, wire, held, accepted⟩
      · exact retraces.exists_step_of_leaveImport search current here keeps
          next allowed
      · exact retraces.exists_step_of_wire isTemplate balanced current here
          keeps next unwired held accepted

/-- A search that goes by a template finds a wiring. -/
theorem isSome_found
    {node : Node} (retraces : Retraces reordering template node)
    (isTemplate : template.IsTemplate search) (scheduled : Scheduled node)
    (balanced : node.draft.IsBalanced carried) :
    (search.problem.explore node).found.isSome = true := by
  have progress : ∀ {node : Node},
      Retraces reordering template node ∧ Scheduled node ∧
        node.draft.IsBalanced carried →
          (search.problem.goal? node).isSome = true ∨
            ∃ result, search.problem.Step node result ∧
              Retraces reordering template result ∧ Scheduled result ∧
                result.draft.IsBalanced carried := by
    rintro ⟨phase, draft⟩ ⟨retraces, scheduled, balanced⟩
    have onward : (∃ result,
        search.problem.Step ⟨phase, draft⟩ result ∧
          Retraces reordering template result) →
            ∃ result, search.problem.Step ⟨phase, draft⟩ result ∧
              Retraces reordering template result ∧ Scheduled result ∧
                result.draft.IsBalanced carried := by
      rintro ⟨result, step, kept⟩
      have decision := decision_of_step step
      exact ⟨result, step, kept, scheduled_of_decision scheduled decision,
        isBalanced_of_decision scheduled decision balanced⟩
    cases phase with
    | start =>
        exact .inr (onward (retraces.exists_step_of_start isTemplate
          scheduled balanced))
    | requires =>
        exact .inr (onward (retraces.exists_step_of_requires isTemplate
          scheduled balanced))
    | imports =>
        exact .inr (onward (retraces.exists_step_of_imports isTemplate
          scheduled balanced))
    | finished => exact .inl rfl
  exact Problem.isSome_found_of_progress progress
    ⟨retraces, scheduled, balanced⟩

end Retraces

end Search

end ModuleWiring
