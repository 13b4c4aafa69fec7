import Mathlib.Data.List.Nodup
import ModuleWiring.Proofs.Bookkeeping
import ModuleWiring.Proofs.Consistency
import ModuleWiring.Proofs.Dependencies
import ModuleWiring.Proofs.FragmentNames

/-!
# Answers are partitioned and closed

The solutions of an answer share no host and no fragment, and what a module that
is newly resolved depends on was resolved before or is resolved with it.  The host
that the target joins, if it is a fragment, is the only one that may have been
resolved before.
-/

namespace ModuleWiring

namespace Search

variable {search : Search} {store : Store} {target : Generation}

/-- The target of a search is bound, or it is a fragment of a module that is bound
under the given identity.  No other bound module was resolved before. -/
structure Anchors (store : Store) (target : Generation) (id : GenerationId)
    (node : Node) : Prop where
  anchored : ∃ bound, node.draft.candidate? id = some (.bound bound) ∧
    target ∈ bound.host :: bound.fragments
  only : ∀ {other bound},
    node.draft.candidate? other = some (.bound bound) →
      (store.state bound.host).isResolved = true → other = id

/-- What is bound stays so, with its fragments. -/
theorem Evolution.exists_bound
    {draft after : Draft} {bound : BoundModule} {later : Candidate}
    (evolution : Evolution search draft after (.bound bound) later) :
    ∃ new, later = .bound new ∧ new.host = bound.host ∧
      bound.fragments ⊆ new.fragments := by
  have host := evolution.generation
  have kept : bound.fragments ⊆ later.fragments :=
    fun fragment member => evolution.mem_fragments member
  cases evolution with
  | keep => exact ⟨bound, rfl, host, kept⟩
  | opening _ _ _ _ _ => exact ⟨_, rfl, host, kept⟩
  | deciding _ => exact ⟨_, rfl, host, kept⟩

theorem anchors_of_decision
    {node result : Node} {id : GenerationId} (scheduled : Scheduled node)
    (decision : Decision search node result)
    (unresolved : ∀ {other installed},
      node.draft.candidate? other = some (.unresolved installed) →
        (store.state installed).isResolved = false)
    (anchors : Anchors store target id node) :
    Anchors store target id result := by
  obtain ⟨bound, found, member⟩ := anchors.anchored
  constructor
  · obtain ⟨later, laterFound, evolution⟩ :=
      exists_later_candidate scheduled decision found
    obtain ⟨new, rfl, host, kept⟩ := evolution.exists_bound
    refine ⟨new, laterFound, ?_⟩
    rw [host]
    exact List.cons_subset_cons bound.host kept member
  · intro other module otherFound wasResolved
    obtain ⟨earlier, old, evolution⟩ :=
      exists_evolution scheduled decision otherFound
    have host : module.host = earlier.generation := evolution.generation
    rw [host] at wasResolved
    cases earlier with
    | bound before => exact anchors.only old wasResolved
    | unresolved installed =>
        have notResolved := unresolved old
        exact absurd wasResolved (Bool.eq_false_iff.1 notResolved)
    | resolved wired =>
        -- A resolved host is opened only before anything is bound.
        cases evolution with
        | opening _ _ _ _ reopened =>
            have untouched := (reopened wired rfl).1
            exact absurd found (untouched id bound)

/-- A search for a fragment in which nothing has been decided. -/
structure Awaits (target : Generation) (node : Node) : Prop where
  atStart : node.phase = .start
  isFragment : target.isFragment = true
  resolving : node.draft.resolving = some target.id
  found : node.draft.candidate? target.id = some (.unresolved target)

/-- A search for a fragment begins with a host that the fragment joins. -/
theorem Awaits.exists_anchor
    {node result : Node} (awaits : Awaits target node)
    (scheduled : Scheduled node) (decision : Decision search node result) :
    ∃ id, Anchors store target id result := by
  obtain ⟨atStart, isFragment, resolving, found⟩ := awaits
  obtain ⟨phase, draft⟩ := node
  cases atStart
  change draft.resolving = some target.id at resolving
  have isCurrent : ∀ {id : GenerationId}, draft.resolving = some id →
      id = target.id :=
    fun current => Option.some.inj (current.symm.trans resolving)
  cases decision with
  | idle none =>
      rw [resolving] at none
      cases none
  | bind current other notFragment _ _ =>
      rw [isCurrent current, found] at other
      cases other
      rw [Candidate.generation, isFragment] at notFragment
      cases notFragment
  | @attach _ _ _ host current other _ offered done =>
      rw [isCurrent current, found] at other
      cases other
      obtain ⟨untouched, _, _⟩ := scheduled.untouched_of_start resolving found
      obtain ⟨_, _, new, _, attaches⟩ :=
        scheduled.exists_attaches resolving found offered done
      refine ⟨host.id, ⟨new, ?_, ?_⟩, ?_⟩
      · exact (attaches.candidate?_eq _).trans (if_pos rfl)
      · have joined : target ∈ new.fragments := by
          rw [attaches.taken.fragments]
          simp
        exact List.mem_cons_of_mem _ joined
      · intro id bound hit _
        have placed := (attaches.candidate?_eq id).symm.trans hit
        split at placed
        · rename_i isHost
          exact isHost.symm
        · exact absurd placed (untouched id bound)
  | settle through => rcases through with ⟨⟨⟩, _⟩ | ⟨⟨⟩, _⟩

end Search

open Search

/-- The fragments that a generation brings into a search: those that it has been
resolved with. -/
def Store.carried (store : Store) (generation : Generation) :
    List Generation :=
  if (store.state generation).isResolved then store.fragments generation
  else []

namespace World

/-- Fragments that a resolved host has been wired with are resolved as well. -/
def FragmentsFollow (world : World) : Prop :=
  ∀ host ∈ world.resolver.tracked, host.isFragment = false →
    (world.store.state host).isResolved = true →
      ∀ fragment ∈ world.store.fragments host,
        (world.store.state fragment).isResolved = true

instance (world : World) : Decidable world.FragmentsFollow :=
  inferInstanceAs (Decidable (∀ _ ∈ _, _))

/-- A search of a consistent world for the wiring of an installed target, from its
first draft to the completed one. -/
structure Solves (world : World) (target : Generation)
    (framework : Framework) (draft final : Draft) : Prop where
  consistent : world.IsConsistent
  made : target ∈ world.made
  installed : world.store.state target = .installed
  begun : Draft.initial world.store
    (world.resolver.canonical world.store) target = .ok draft
  run : world.resolver.Run world.store target framework
    ⟨.start, draft⟩ final

variable {world : World} {target : Generation} {framework : Framework}
  {draft final : Draft}

theorem IsConsistent.exists_solves
    (consistent : world.IsConsistent) (made : target ∈ world.made)
    {answer : List Solution}
    (solved : world.resolver.resolve world.store target = .ok answer) :
    ∃ framework draft final, final.solutions = answer ∧
      world.Solves target framework draft final := by
  obtain ⟨final, result, same⟩ := Resolver.exists_of_solutions solved
  obtain ⟨framework, draft, installed, begun, run⟩ :=
    Resolver.exists_run_of_attempt result
  exact ⟨framework, draft, final, same, consistent, made, installed, begun,
    run⟩

namespace Solves

variable {id other : GenerationId} {bound module : BoundModule}
  {solution left right : Solution} {fragment : Generation}

theorem given
    (solves : world.Solves target framework draft final) :
    Everywhere (Candidate.IsGiven world.store) ⟨.start, draft⟩ :=
  fun _ _ found => (solves.run.begins.given found).2

/-- Whatever is not bound and not resolved in a search was not resolved before. -/
theorem unresolved_of_line
    (solves : world.Solves target framework draft final) {position : Node}
    (line : (world.resolver.search framework).problem.Line ⟨.start, draft⟩
      position) {installed : Generation}
    (found : position.draft.candidate? id = some (.unresolved installed)) :
    (world.store.state installed).isResolved = false := by
  have given := isGiven_of_notBound line solves.run.scheduled solves.given
    found (by simp)
  cases given with
  | unresolved notResolved => exact notResolved

theorem served
    (solves : world.Solves target framework draft final) :
    Everywhere (IsServed (world.resolver.search framework) world.store
      (· ∈ world.resolver.canonical world.store)) ⟨.finished, final⟩ :=
  solves.consistent.isServed solves.made solves.installed solves.begun
    solves.run

theorem rooted
    (solves : world.Solves target framework draft final) :
    Everywhere (Candidate.IsRooted (· ∈ world.made)) ⟨.finished, final⟩ :=
  (solves.run.isRooted solves.consistent.sound solves.made
    fun _ tracked => solves.consistent.tracked tracked).2

theorem balanced
    (solves : world.Solves target framework draft final) :
    final.IsBalanced world.store.carried := by
  refine isBalanced_of_line solves.run.line solves.run.scheduled ?_
  refine Draft.isBalanced_of_initial ?_ solves.begun
  intro generation isResolved
  unfold Store.carried
  rw [if_pos isResolved]
  exact List.Subset.refl _

/-- The module that a search is for is bound in the end. -/
theorem exists_anchor
    (solves : world.Solves target framework draft final) :
    ∃ id, Anchors world.store target id ⟨.finished, final⟩ := by
  have line : Awaits target ⟨.finished, final⟩ ∨
      ∃ id, Anchors world.store target id ⟨.finished, final⟩ := by
    refine @invariant_of_line _ (fun node => Awaits target node ∨
      ∃ id, Anchors world.store target id node) _ _ solves.run.line
      solves.run.scheduled ?_ ?_
    · obtain ⟨middle, pooled, resolving, candidates⟩ :=
        Draft.candidate?_of_initial solves.begun
      have here := (candidates target.id).trans (if_pos rfl)
      unfold Draft.asTarget at here
      by_cases isFragment : target.isFragment = true
      · rw [if_pos isFragment] at here
        exact .inl ⟨rfl, isFragment, resolving, here⟩
      · rw [if_neg isFragment] at here
        refine .inr ⟨target.id, ⟨_, here, List.mem_cons_self⟩, ?_⟩
        intro other bound found _
        have placed := (candidates other).symm.trans found
        split at placed
        · rename_i isTarget
          exact isTarget.symm
        · exact absurd placed
            ((Draft.isPool_of_pool pooled).untouched other bound)
    · intro position result before isScheduled decision holds
      right
      rcases holds with awaits | ⟨id, anchors⟩
      · exact awaits.exists_anchor isScheduled decision
      · exact ⟨id, anchors_of_decision isScheduled decision
          (solves.unresolved_of_line before) anchors⟩
  rcases line with awaits | anchored
  · cases awaits.atStart
  · exact anchored

/-- A fragment of a bound module was resolved before, as its host was, or it has
been attached to the module by the search. -/
theorem carried_or_attached
    (solves : world.Solves target framework draft final)
    (follow : world.FragmentsFollow)
    (found : final.candidate? id = some (.bound bound))
    (member : fragment ∈ bound.fragments) :
    ((world.store.state bound.host).isResolved = true ∧
      (world.store.state fragment).isResolved = true) ∨
    (final.hostOf? fragment.id = some id ∧
      (world.store.state fragment).isResolved = false) := by
  rcases solves.balanced.joined found fragment member with
    carried | ⟨attached, unresolved⟩
  · left
    unfold Store.carried at carried
    split at carried
    · rename_i wasResolved
      have served := solves.served found
      have tracked := (tracked_of_canonical served.isKnown).1
      exact ⟨wasResolved, follow bound.host tracked served.isHost wasResolved
        fragment carried⟩
    · cases carried
  · exact .inr ⟨attached,
      solves.unresolved_of_line solves.run.line unresolved⟩

/-- No two bound modules share a fragment. -/
theorem id_eq_of_shared_fragment
    (solves : world.Solves target framework draft final)
    (follow : world.FragmentsFollow)
    (found : final.candidate? id = some (.bound bound))
    (otherFound : final.candidate? other = some (.bound module))
    (member : fragment ∈ bound.fragments)
    (otherMember : fragment ∈ module.fragments) :
    id = other := by
  rcases solves.carried_or_attached follow found member with
    ⟨wasResolved, fragmentResolved⟩ | ⟨attached, notResolved⟩
  · rcases solves.carried_or_attached follow otherFound otherMember with
      ⟨otherResolved, _⟩ | ⟨_, notResolved⟩
    · obtain ⟨anchor, anchors⟩ := solves.exists_anchor
      have isAnchor := anchors.only found wasResolved
      exact isAnchor.trans (anchors.only otherFound otherResolved).symm
    · exact absurd fragmentResolved (Bool.eq_false_iff.1 notResolved)
  · rcases solves.carried_or_attached follow otherFound otherMember with
      ⟨_, fragmentResolved⟩ | ⟨otherAttached, _⟩
    · exact absurd fragmentResolved (Bool.eq_false_iff.1 notResolved)
    · exact Option.some.inj (attached.symm.trans otherAttached)

theorem nodup_hosts
    (solves : world.Solves target framework draft final) :
    (final.solutions.map (·.host.id)).Nodup :=
  nodup_hosts_of_finished solves.run.finished

theorem isFragment_of_mem_fragments
    (solves : world.Solves target framework draft final)
    (member : solution ∈ final.solutions)
    (listed : fragment ∈ solution.fragments) :
    fragment.isFragment = true := by
  obtain ⟨bound, found, rfl⟩ := Draft.candidate?_of_mem_solutions member
  exact ((solves.rooted found).fragments fragment listed).2

theorem isFragment_host
    (solves : world.Solves target framework draft final)
    (member : solution ∈ final.solutions) :
    solution.host.isFragment = false := by
  obtain ⟨bound, found, rfl⟩ := Draft.candidate?_of_mem_solutions member
  exact (solves.served found).isHost

theorem host_not_mem_fragments
    (solves : world.Solves target framework draft final)
    (leftMember : left ∈ final.solutions)
    (rightMember : right ∈ final.solutions) :
    left.host ∉ right.fragments := by
  intro listed
  have isFragment := solves.isFragment_of_mem_fragments rightMember listed
  rw [solves.isFragment_host leftMember] at isFragment
  cases isFragment

/-- Solutions with different hosts have no member in common. -/
theorem disjoint_members
    (solves : world.Solves target framework draft final)
    (follow : world.FragmentsFollow)
    (leftMember : left ∈ final.solutions)
    (rightMember : right ∈ final.solutions)
    (different : left.host.id ≠ right.host.id) :
    left.members.Disjoint right.members := by
  intro generation inLeft inRight
  rcases List.mem_cons.1 inLeft with rfl | leftFragment
  · rcases List.mem_cons.1 inRight with same | rightFragment
    · exact different (congrArg Generation.id same)
    · exact solves.host_not_mem_fragments leftMember rightMember
        rightFragment
  · rcases List.mem_cons.1 inRight with rfl | rightFragment
    · exact solves.host_not_mem_fragments rightMember leftMember leftFragment
    · obtain ⟨bound, found, rfl⟩ :=
        Draft.candidate?_of_mem_solutions leftMember
      obtain ⟨module, otherFound, rfl⟩ :=
        Draft.candidate?_of_mem_solutions rightMember
      exact different (solves.id_eq_of_shared_fragment follow found
        otherFound leftFragment rightFragment)

theorem nodup_members
    (solves : world.Solves target framework draft final)
    (reachable : world.Reachable) (follow : world.FragmentsFollow) :
    (final.solutions.flatMap Solution.members).Nodup := by
  refine List.nodup_flatMap.2 ⟨?_, ?_⟩
  · intro solution member
    have named : DistinctNames solution.fragments := by
      refine solves.run.distinctNames ?_ member
      intro generation origin
      refine solves.consistent.distinctNames_fragments
        reachable.distinctNames ?_
      rcases origin with tracked | rfl
      · exact solves.consistent.tracked tracked
      · exact solves.made
    exact List.nodup_cons.2
      ⟨solves.host_not_mem_fragments member member, named.nodup⟩
  · have apart : final.solutions.Pairwise fun left right =>
        left.host.id ≠ right.host.id :=
      List.pairwise_map.1 solves.nodup_hosts
    exact apart.imp_of_mem fun leftMember rightMember different =>
      solves.disjoint_members follow leftMember rightMember different

/-- A host was installed, or it was resolved and the target has joined it. -/
theorem installed_or_joined
    (solves : world.Solves target framework draft final)
    (member : solution ∈ final.solutions) :
    world.store.state solution.host = .installed ∨
      (world.store.state solution.host).isResolved = true ∧
        target ∈ solution.fragments := by
  obtain ⟨bound, found, rfl⟩ := Draft.candidate?_of_mem_solutions member
  change world.store.state bound.host = .installed ∨
    (world.store.state bound.host).isResolved = true ∧
      target ∈ bound.fragments
  by_cases wasResolved : (world.store.state bound.host).isResolved = true
  · right
    refine ⟨wasResolved, ?_⟩
    obtain ⟨anchor, anchors⟩ := solves.exists_anchor
    obtain ⟨module, anchorFound, listed⟩ := anchors.anchored
    have isAnchor := anchors.only found wasResolved
    rw [← isAnchor, found] at anchorFound
    cases anchorFound
    rcases List.mem_cons.1 listed with isHost | joined
    · rw [← isHost, solves.installed] at wasResolved
      cases wasResolved
    · exact joined
  · left
    have present :=
      (tracked_of_canonical (solves.served found).isKnown).2
    change world.store.state bound.host ≠ .uninstalled at present
    cases state : world.store.state bound.host with
    | installed => rfl
    | uninstalled => exact absurd state present
    | resolved => exact absurd (by rw [state]; rfl) wasResolved
    | starting => exact absurd (by rw [state]; rfl) wasResolved
    | active => exact absurd (by rw [state]; rfl) wasResolved
    | stopping => exact absurd (by rw [state]; rfl) wasResolved

theorem exists_solution_of_target
    (solves : world.Solves target framework draft final) :
    ∃ solution ∈ final.solutions, target ∈ solution.members := by
  obtain ⟨id, anchors⟩ := solves.exists_anchor
  obtain ⟨bound, found, listed⟩ := anchors.anchored
  obtain ⟨solution, member, host, fragments⟩ :=
    solves.run.finished.exists_solution found
  refine ⟨solution, member, ?_⟩
  unfold Solution.members
  rw [host, fragments]
  exact listed

theorem count_host
    (solves : world.Solves target framework draft final)
    {generation : Generation}
    (member : generation ∈ final.solutions.map Solution.host) :
    (final.solutions.map Solution.host).count generation = 1 := by
  have distinct : ((final.solutions.map Solution.host).map
      Generation.id).Nodup := by
    rw [List.map_map]
    exact solves.nodup_hosts
  exact List.count_eq_one_of_mem (List.Nodup.of_map _ distinct) member

theorem count_fragment
    (solves : world.Solves target framework draft final)
    (reachable : world.Reachable) (follow : world.FragmentsFollow)
    (member : fragment ∈ final.solutions.flatMap Solution.fragments) :
    (final.solutions.flatMap Solution.fragments).count fragment = 1 := by
  obtain ⟨each, apart⟩ :=
    List.nodup_flatMap.1 (solves.nodup_members reachable follow)
  refine List.count_eq_one_of_mem (List.nodup_flatMap.2 ⟨?_, ?_⟩) member
  · exact fun solution listed => (List.nodup_cons.1 (each solution listed)).2
  · refine apart.imp ?_
    intro left right disjoint generation inLeft inRight
    exact disjoint (List.mem_cons_of_mem _ inLeft)
      (List.mem_cons_of_mem _ inRight)

end Solves

/-- The solutions of an answer are a partition of the modules and fragments that
it is about. -/
structure IsPartitioned (world : World) (target : Generation)
    (answer : List Solution) : Prop where
  distinct : (answer.flatMap Solution.members).Nodup
  identities : (((answer.flatMap Solution.members).filter
    (· ∈ world.resolver.tracked)).map Generation.id).Nodup
  bundles : ∀ solution ∈ answer, solution.host.isFragment = false
  installed : ∀ solution ∈ answer,
    world.store.state solution.host = .installed ∨
      (world.store.state solution.host).isResolved = true ∧
        target.isFragment = true ∧ target ∈ solution.fragments
  host : target.isFragment = false →
    (answer.map Solution.host).count target = 1
  fragment : target.isFragment = true →
    (answer.flatMap Solution.fragments).count target = 1

/-- No solution wires a package twice, and what a newly resolved module depends on
is resolved or the host of exactly one solution. -/
structure IsClosed (world : World) (answer : List Solution) : Prop where
  packages : ∀ solution ∈ answer,
    (solution.wires.map Wire.package).Nodup
  dependencies : ∀ solution ∈ answer,
    (world.store.state solution.host).isResolved = false →
      ∀ generation ∈ solution.dependencies,
        (world.store.state generation).isResolved = true ∨
          (answer.map Solution.host).count generation = 1

namespace Solves

theorem isPartitioned
    (solves : world.Solves target framework draft final)
    (reachable : world.Reachable) (follow : world.FragmentsFollow) :
    world.IsPartitioned target final.solutions := by
  have distinct := solves.nodup_members reachable follow
  obtain ⟨solution, answered, member⟩ := solves.exists_solution_of_target
  refine ⟨distinct, ?_, fun _ => solves.isFragment_host, ?_, ?_, ?_⟩
  · refine List.Nodup.map_on ?_ (distinct.filter _)
    intro left leftMember right rightMember same
    have leftTracked := (List.mem_filter.1 leftMember).2
    have rightTracked := (List.mem_filter.1 rightMember).2
    exact List.inj_on_of_nodup_map solves.consistent.resolver.distinct
      (of_decide_eq_true leftTracked) (of_decide_eq_true rightTracked) same
  · intro other otherAnswered
    refine (solves.installed_or_joined otherAnswered).imp_right ?_
    rintro ⟨wasResolved, joined⟩
    exact ⟨wasResolved,
      solves.isFragment_of_mem_fragments otherAnswered joined, joined⟩
  · intro isBundle
    refine solves.count_host (List.mem_map.2 ⟨solution, answered, ?_⟩)
    rcases List.mem_cons.1 member with isHost | listed
    · exact isHost.symm
    · have isFragment := solves.isFragment_of_mem_fragments answered listed
      rw [isBundle] at isFragment
      cases isFragment
  · intro isFragment
    refine solves.count_fragment reachable follow
      (List.mem_flatMap.2 ⟨solution, answered, ?_⟩)
    rcases List.mem_cons.1 member with isHost | listed
    · have isBundle := solves.isFragment_host answered
      rw [← isHost, isFragment] at isBundle
      cases isBundle
    · exact listed

theorem isClosed
    (solves : world.Solves target framework draft final) :
    world.IsClosed final.solutions := by
  constructor
  · intro solution answered
    obtain ⟨bound, found, rfl⟩ := Draft.candidate?_of_mem_solutions answered
    exact (solves.rooted found).keyed.nodup_packages
  · intro solution answered unresolved generation depends
    exact (solves.run.dependencies_resolved_or_solved answered unresolved
      depends).imp_right solves.count_host

end Solves

/-- Every answer is closed and partitioned, as long as the fragments of resolved
hosts are resolved as well. -/
theorem Reachable.answer_closed_and_partitioned
    (reachable : world.Reachable) (made : target ∈ world.made)
    (follow : world.FragmentsFollow) {answer : List Solution}
    (solved : world.resolver.resolve world.store target = .ok answer) :
    world.IsPartitioned target answer ∧ world.IsClosed answer := by
  obtain ⟨framework, draft, final, rfl, solves⟩ :=
    reachable.isConsistent.exists_solves made solved
  exact ⟨solves.isPartitioned reachable follow, solves.isClosed⟩

end World

namespace Sample

/-- A fragment that needs a package. -/
def needy : Manifest :=
  fragment "g" "h" [] [wish "p" 1]

/-- A host that has been resolved with one fragment, before another one and the
exporter of what that needs have come. -/
def reached : World :=
  (((world [bundle "h" [] [], fragment "f" "h" [] []]).applying
    (generation 0 (bundle "h" [] [])) fun _ => true).installing
      (id 2, needy)).installing (id 3, exporter)

theorem reachable_reached : reached.Reachable := by
  refine World.Reachable.installing ?_ (by decide +kernel)
    (by decide +kernel)
  refine World.Reachable.installing ?_ (by decide +kernel)
    (by decide +kernel)
  exact (reachable_world _).applying (by decide +kernel) _

end Sample

namespace World

/-- The host is opened again for the fragment, keeps the one that it has had, and
is resolved together with the exporter. -/
theorem reached_closed_and_partitioned :
    ∃ host exporter : Solution,
      Sample.reached.resolver.resolve Sample.reached.store
          (Sample.generation 2 Sample.needy) = .ok [host, exporter] ∧
        Sample.reached.FragmentsFollow ∧
        (Sample.reached.store.state host.host).isResolved = true ∧
        host.fragments.length = 2 ∧
        host.dependencies = [exporter.host] ∧
        Sample.reached.IsPartitioned (Sample.generation 2 Sample.needy)
          [host, exporter] ∧
        Sample.reached.IsClosed [host, exporter] := by
  let host : Solution :=
    ⟨Sample.generation 0 (Sample.bundle "h" [] []),
      [Sample.generation 1 (Sample.fragment "f" "h" [] []),
        Sample.generation 2 Sample.needy],
      [⟨"p", Sample.offer "p" 1, Sample.generation 3 Sample.exporter⟩], []⟩
  let exporter : Solution :=
    ⟨Sample.generation 3 Sample.exporter, [], [], []⟩
  have solved : Sample.reached.resolver.resolve Sample.reached.store
      (Sample.generation 2 Sample.needy) = .ok [host, exporter] :=
    Search.eq_ok_of_toOption (by decide +kernel)
  have follow : Sample.reached.FragmentsFollow := by decide +kernel
  have made : Sample.generation 2 Sample.needy ∈ Sample.reached.made := by
    decide +kernel
  obtain ⟨partitioned, closed⟩ :=
    Reachable.answer_closed_and_partitioned Sample.reachable_reached made
      follow solved
  exact ⟨host, exporter, solved, follow, by decide +kernel, rfl, rfl,
    partitioned, closed⟩

end World

end ModuleWiring
