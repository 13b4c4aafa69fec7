import ModuleWiring.Proofs.Inquiry

/-!
# What a host allows

A fragment that an answer attaches was installed, and the host of the solution
allows it.  No other solution of the answer has the fragment, but for one: the
solution about a fragment that has asked for more packages repeats the fragments
which that one was resolved with.
-/

namespace ModuleWiring

/-- A fragment is the only one of its name. -/
theorem DistinctNames.filter_eq
    {fragments : List Generation} {fragment : Generation}
    (distinct : DistinctNames fragments) (member : fragment ∈ fragments) :
    fragments.filter (·.symbolicName = fragment.symbolicName) =
      [fragment] := by
  induction fragments with
  | nil => cases member
  | cons first rest inductionHypothesis =>
      obtain ⟨new, restDistinct⟩ := List.nodup_cons.1 distinct
      rcases List.mem_cons.1 member with rfl | later
      · have others : rest.filter
            (·.symbolicName = fragment.symbolicName) = [] := by
          rw [List.filter_eq_nil_iff]
          intro other listed same
          apply new
          rw [← of_decide_eq_true same]
          exact List.mem_map_of_mem listed
        rw [List.filter_cons_of_pos (by simp), others]
      · have other : first.symbolicName ≠ fragment.symbolicName := by
          intro same
          apply new
          rw [same]
          exact List.mem_map_of_mem later
        rw [List.filter_cons_of_neg (by simpa using other)]
        exact inductionHypothesis restDistinct later

open Search

namespace World

variable {world : World} {target : Generation} {framework : Framework}
  {start : Node} {final : Draft} {solution other : Solution}
  {fragment : Generation}

/-- The fragments of a solution that its host has not been resolved with. -/
def newFragments (world : World) (solution : Solution) : List Generation :=
  solution.fragments.filter (· ∉ world.store.carried solution.host)

/-- A fragment may join the host of a solution: it is installed, the host accepts
fragments and does so now, and no other fragment of the solution has the same
name. -/
structure MayJoin (world : World) (solution : Solution)
    (fragment : Generation) : Prop where
  installed : world.store.state fragment = .installed
  accepted : solution.host.manifest.fragmentAttachment ≠ .never
  timely : solution.host.manifest.fragmentAttachment = .resolveTime →
    (world.store.state solution.host).isResolved = false
  distinct : solution.fragments.filter
    (·.symbolicName = fragment.symbolicName) = [fragment]

theorem mem_newFragments :
    fragment ∈ world.newFragments solution ↔
      fragment ∈ solution.fragments ∧
        fragment ∉ world.store.carried solution.host := by
  unfold newFragments
  rw [List.mem_filter, decide_eq_true_eq]

namespace Inquires

/-- What is attached by the search has not been resolved before, and so it was
installed. -/
theorem installed_of_unresolved
    (inquires : world.Inquires target framework start final)
    (found : final.candidate? fragment.id = some (.unresolved fragment))
    (unresolved : (world.store.state fragment).isResolved = false) :
    world.store.state fragment = .installed := by
  have present := (inquires.canonical_of_found found).2
  change world.store.state fragment ≠ .uninstalled at present
  cases state : world.store.state fragment with
  | installed => rfl
  | uninstalled => exact absurd state present
  | resolved | starting | active | stopping =>
      rw [state] at unresolved
      cases unresolved

theorem mayJoin
    (inquires : world.Inquires target framework start final)
    (reachable : world.Reachable) (answered : solution ∈ final.solutions)
    (isNew : fragment ∈ world.newFragments solution) :
    world.MayJoin solution fragment := by
  obtain ⟨listed, notCarried⟩ := mem_newFragments.1 isNew
  have admits := (inquires.carried_or_admits answered listed).resolve_left
    notCarried
  have distinct : DistinctNames solution.fragments := by
    apply inquires.run.distinctNames _ answered
    rintro generation (tracked | rfl)
    · exact inquires.consistent.distinctNames_fragments
        reachable.distinctNames (inquires.consistent.tracked tracked)
    · exact inquires.consistent.distinctNames_fragments
        reachable.distinctNames inquires.made
  obtain ⟨bound, found, rfl⟩ := Draft.candidate?_of_mem_solutions answered
  have attached := (inquires.carried_or_attached found listed).resolve_left
    notCarried
  exact ⟨inquires.installed_of_unresolved attached.2 admits.unresolved,
    admits.accepted, admits.timely, distinct.filter_eq listed⟩

/-- If a fragment that is attached occurs in another solution, that solution is
about a fragment which has been resolved with it. -/
theorem eq_or_carried
    (inquires : world.Inquires target framework start final)
    (follow : world.FragmentsFollow) (answered : solution ∈ final.solutions)
    (isNew : fragment ∈ world.newFragments solution)
    (otherAnswered : other ∈ final.solutions)
    (listed : fragment ∈ other.fragments) :
    other = solution ∨ target.isFragment = true ∧
      fragment ∈ world.store.carried target := by
  obtain ⟨joined, notCarried⟩ := mem_newFragments.1 isNew
  have unresolved := ((inquires.carried_or_admits answered
    joined).resolve_left notCarried).unresolved
  obtain ⟨bound, found, rfl⟩ := Draft.candidate?_of_mem_solutions answered
  obtain ⟨module, otherFound, rfl⟩ :=
    Draft.candidate?_of_mem_solutions otherAnswered
  have attached := (inquires.carried_or_attached found joined).resolve_left
    notCarried
  rcases inquires.carried_or_attached otherFound listed with
    carried | otherAttached
  · right
    by_cases isFragment : module.host.isFragment = true
    · have isTarget : module.host = target :=
        inquires.host_eq_target otherAnswered isFragment
      rw [isTarget] at isFragment carried
      exact ⟨isFragment, carried⟩
    · obtain ⟨wasResolved, kept⟩ := mem_carried_iff.1 carried
      have tracked := (inquires.canonical_of_found otherFound).1
      have fragmentResolved := follow module.host tracked
        (Bool.eq_false_iff.2 isFragment) wasResolved fragment kept
      rw [unresolved] at fragmentResolved
      cases fragmentResolved
  · left
    have sameId := Option.some.inj (attached.1.symm.trans otherAttached.1)
    rw [sameId, otherFound] at found
    cases found
    rfl

end Inquires

/-- Whatever fragment an answer attaches was installed, and the host allows it.
It is in one solution only, unless a fragment that has been resolved together
with it asks for more packages. -/
theorem Reachable.attachment_allowed
    (reachable : world.Reachable) (made : target ∈ world.made)
    (follow : world.FragmentsFollow) {answer : List Solution} :
    (world.resolver.resolve world.store target = .ok answer →
      ∀ solution ∈ answer, ∀ fragment ∈ world.newFragments solution,
        world.MayJoin solution fragment ∧
          ∀ other ∈ answer, fragment ∈ other.fragments → other = solution) ∧
    ∀ wanted,
      world.resolver.resolveDynamic world.store target wanted = .ok answer →
      ∀ solution ∈ answer, ∀ fragment ∈ world.newFragments solution,
        world.MayJoin solution fragment ∧
          ((∀ other ∈ answer, fragment ∈ other.fragments →
              other = solution) ↔
            (target.isFragment = true →
              fragment ∉ world.store.fragments target)) := by
  have consistent := reachable.isConsistent
  constructor
  · intro solved
    obtain ⟨framework, start, final, rfl, installed, _, inquires⟩ :=
      consistent.inquires_resolve made solved
    intro solution answered fragment isNew
    refine ⟨inquires.mayJoin reachable answered isNew, ?_⟩
    intro other otherAnswered listed
    refine (inquires.eq_or_carried follow answered isNew otherAnswered
      listed).resolve_right ?_
    rintro ⟨_, carried⟩
    have isResolved := (mem_carried_iff.1 carried).1
    rw [installed] at isResolved
    cases isResolved
  · intro wanted solved
    obtain ⟨framework, start, final, rfl, isResolved,
      ⟨bound, found, isTarget, fragments⟩, inquires⟩ :=
      consistent.inquires_resolveDynamic made solved
    intro solution answered fragment isNew
    refine ⟨inquires.mayJoin reachable answered isNew, ?_⟩
    constructor
    · intro alone _ listed
      obtain ⟨own, ownAnswered, ownHost, kept⟩ :=
        inquires.exists_solution found
      have same := alone own ownAnswered (kept (fragments ▸ listed))
      apply (mem_newFragments.1 isNew).2
      rw [← same, ownHost, isTarget, carried_of_isResolved isResolved]
      exact listed
    · intro apart other otherAnswered listed
      refine (inquires.eq_or_carried follow answered isNew otherAnswered
        listed).resolve_right ?_
      rintro ⟨isFragment, carried⟩
      rw [carried_of_isResolved isResolved] at carried
      exact apart isFragment carried

/-- A generation has been brought into a state from outside. -/
def setting (world : World) (generation : Generation) (state : State) :
    World :=
  { world with store := world.store.setState generation state }

theorem Reachable.setting
    (reachable : world.Reachable) (made : fragment ∈ world.made)
    (state : State) : (world.setting fragment state).Reachable :=
  reachable.step (.setState state made)

end World

namespace Sample

def lostHost : Manifest :=
  bundle "h" [] []

def stayingFragment : Manifest :=
  fragment "g" "h" [] []

def movingFragment : Manifest :=
  fragment "f" "h" [] []

/-- Another host for the same fragments. -/
def nextHost : Manifest :=
  bundle "h" [offer "p" 1] []

/-- The world in which a host has been resolved with two fragments and is gone,
and one of the fragments is free to go to another host. -/
def abandoned : World :=
  let resolved := (world [lostHost, stayingFragment, movingFragment]).applying
    (generation 0 lostHost) fun _ => true
  (((resolved.setting (generation 0 lostHost) .uninstalled).removing
    (generation 0 lostHost)).setting (generation 2 movingFragment)
      .installed).installing (id 3, nextHost)

/-- What the other fragment has been resolved with. -/
def repeatedWiring : Solution :=
  ⟨generation 1 stayingFragment,
    [generation 1 stayingFragment, generation 2 movingFragment],
    [⟨"p", offer "p" 1, generation 3 nextHost⟩], []⟩

/-- The host that serves it takes on the fragment that is free. -/
def nextWiring : Solution :=
  ⟨generation 3 nextHost, [generation 2 movingFragment], [], []⟩

theorem reachable_abandoned : abandoned.Reachable := by
  have resolved := (reachable_world
    [lostHost, stayingFragment, movingFragment]).applying
      (show generation 0 lostHost ∈ _ by decide +kernel) fun _ => true
  have lost := resolved.setting
    (show generation 0 lostHost ∈ _ by decide +kernel) .uninstalled
  have removed := lost.removing
    (show generation 0 lostHost ∈ _ by decide +kernel)
  have free := removed.setting
    (show generation 2 movingFragment ∈ _ by decide +kernel) .installed
  exact free.installing (by decide +kernel) (by decide +kernel)

end Sample

/-- A fragment that joins another host is repeated for who asks on behalf of the
fragment that it has been resolved with. -/
theorem World.attached_fragment_repeated :
    Sample.abandoned.FragmentsFollow ∧
      Sample.abandoned.resolver.resolveDynamic Sample.abandoned.store
          (Sample.generation 1 Sample.stayingFragment) (Sample.wish "p" 1) =
        .ok [Sample.repeatedWiring, Sample.nextWiring] ∧
      Sample.abandoned.MayJoin Sample.nextWiring
        (Sample.generation 2 Sample.movingFragment) ∧
      ¬ ∀ other ∈ [Sample.repeatedWiring, Sample.nextWiring],
        Sample.generation 2 Sample.movingFragment ∈ other.fragments →
          other = Sample.nextWiring := by
  have follow : Sample.abandoned.FragmentsFollow := by decide +kernel
  have asked : Sample.abandoned.resolver.resolveDynamic Sample.abandoned.store
      (Sample.generation 1 Sample.stayingFragment) (Sample.wish "p" 1) =
        .ok [Sample.repeatedWiring, Sample.nextWiring] :=
    Search.eq_ok_of_toOption (by decide +kernel)
  have isNew : Sample.generation 2 Sample.movingFragment ∈
      Sample.abandoned.newFragments Sample.nextWiring := by decide +kernel
  obtain ⟨mayJoin, alone⟩ := (Sample.reachable_abandoned.attachment_allowed
    (by decide +kernel) follow).2 _ asked Sample.nextWiring (by simp) _ isNew
  refine ⟨follow, asked, mayJoin, fun once => ?_⟩
  exact alone.1 once (by decide +kernel) (by decide +kernel)

end ModuleWiring
