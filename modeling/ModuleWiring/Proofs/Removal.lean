import ModuleWiring.Proofs.Newcomer

/-!
# Removing who takes no part

A generation that a search once binds, or attaches to a host, is in the answer
if this line of play leads to one.  A generation that is not in the answer can be
removed, and the answer stays the same.
-/

namespace ModuleWiring

/-- A generation has been bound, or a bound module has it as a fragment. -/
def Draft.Involves (draft : Draft) (generation : Generation) : Prop :=
  ∃ id bound, draft.candidate? id = some (.bound bound) ∧
    generation ∈ bound.host :: bound.fragments

namespace Search

variable {search : Search} {generation : Generation}

/-! ## Whoever is involved stays so -/

theorem involves_of_decision
    {node result : Node} (scheduled : Scheduled node)
    (decision : Decision search node result)
    (involves : node.draft.Involves generation) :
    result.draft.Involves generation := by
  obtain ⟨id, bound, found, member⟩ := involves
  obtain ⟨later, laterFound, evolution⟩ :=
    exists_later_candidate scheduled decision found
  obtain ⟨new, rfl⟩ : ∃ new, later = .bound new := by
    cases evolution with
    | keep => exact ⟨bound, rfl⟩
    | opening _ _ _ _ _ => exact ⟨_, rfl⟩
    | deciding _ => exact ⟨_, rfl⟩
  refine ⟨id, new, laterFound, ?_⟩
  rcases List.mem_cons.1 member with isHost | isFragment
  · have sameHost : new.host = bound.host := evolution.generation
    rw [isHost, ← sameHost]
    exact List.mem_cons_self
  · exact List.mem_cons_of_mem _ (evolution.mem_fragments isFragment)

theorem involves_of_line
    {node final : Node} (line : search.problem.Line node final)
    (scheduled : Scheduled node)
    (involves : node.draft.Involves generation) :
    final.draft.Involves generation :=
  invariant_of_line line scheduled involves fun _ before decision =>
    involves_of_decision before decision

/-- Whoever is involved in the end is in the answer. -/
theorem mem_members_of_involves
    {final : Draft} (scheduled : Scheduled ⟨.finished, final⟩)
    (involves : final.Involves generation) :
    ∃ solution ∈ final.solutions, generation ∈ solution.members := by
  obtain ⟨id, bound, found, member⟩ := involves
  obtain ⟨solution, listed, sameHost, sameFragments⟩ :=
    scheduled.exists_solution found
  refine ⟨solution, listed, ?_⟩
  rw [Solution.members, sameHost, sameFragments]
  exact member

/-! ## Moves that involve somebody -/

/-- A candidate that is engaged is involved, if it was untouched. -/
theorem involves_of_engaged
    {draft middle : Draft} {id : GenerationId} {bound : BoundModule}
    (found : draft.candidate? id = some (.unresolved generation))
    (engaged : draft.Engaged id middle) (different : bound.host.id ≠ id) :
    (middle.put (.bound bound)).Involves generation := by
  refine ⟨id, .of generation, ?_, List.mem_cons_self⟩
  rw [Draft.candidate?_put_of_ne different]
  rcases engaged.candidate?_self with same | ⟨installed, before, after⟩
  · exact absurd (same.trans found) (engaged.notUnresolved generation)
  · cases found.symm.trans before
    exact after

/-- The module in charge is not who is not in charge. -/
theorem ne_of_resolvingBound?
    {draft : Draft} {bound : BoundModule} {id : GenerationId}
    (current : draft.resolvingBound? = some bound)
    (busy : draft.resolving ≠ some id) :
    bound.host.id ≠ id := by
  rintro rfl
  obtain ⟨other, resolving, hit⟩ := Draft.exists_of_resolvingBound? current
  have hostId : bound.host.id = other := Draft.id_of_candidate? hit
  exact busy (resolving.trans (congrArg some hostId.symm))

section Moves

variable {draft : Draft} {bystander : Generation} {move : Move}
  {result : Node}
  (found : draft.candidate? bystander.id = some (.unresolved bystander))
  (busy : draft.resolving ≠ some bystander.id)
  (notAvoided : move.avoids bystander.id = false)

include found busy notAvoided

theorem involves_of_startMoves
    (scheduled : Scheduled ⟨.start, draft⟩)
    (member : move ∈ (search.startMoves draft).toList)
    (played : play? ⟨.start, draft⟩ move = some result) :
    result.draft.Involves bystander := by
  unfold startMoves at member
  split at member
  · cases List.mem_singleton.1 member
    cases notAvoided
  · rename_i id resolving
    have different : id ≠ bystander.id := by
      rintro rfl
      exact busy resolving
    split at member
    · cases member
    · rename_i candidate hit
      split at member
      · rename_i isFragment
        split at member
        · rename_i free
          simp only [Bool.and_eq_true, Bool.not_eq_true'] at free
          rw [Alternatives.toList_ofList] at member
          obtain ⟨host, offered, rfl⟩ := List.mem_map.1 member
          have isHost : host.id = bystander.id := by
            simpa [Move.avoids, different] using notAvoided
          obtain ⟨next, attached, rfl⟩ := Option.map_eq_some_iff.1 played
          cases candidate with
          | unresolved installed =>
              have same : installed.id = id := Draft.id_of_candidate? hit
              subst same
              obtain ⟨candidate, base, new, _, attaches⟩ :=
                scheduled.exists_attaches resolving hit offered
                  (eq_ok_of_toOption attached)
              have isBystander : candidate = .unresolved bystander := by
                have hostFound := attaches.found
                rw [isHost, found] at hostFound
                exact (Option.some.inj hostFound).symm
              refine ⟨host.id, new, (attaches.candidate?_eq _).trans
                (if_pos rfl), ?_⟩
              rw [attaches.host_eq, isBystander]
              exact List.mem_cons_self
          | resolved wired => simp [isUnresolved] at free
          | bound binding => simp [isUnresolved] at free
        · cases member
      · rename_i notFragment
        rw [Alternatives.toList_map] at member
        obtain ⟨fragments, chosen, rfl⟩ := List.mem_map.1 member
        obtain ⟨next, bound, rfl⟩ := Option.map_eq_some_iff.1 played
        have isJoining : bystander.id ∈ fragments := by
          simpa [Move.avoids, different] using notAvoided
        have fresh := scheduled.fresh_of_start resolving hit
          (Bool.eq_false_iff.2 notFragment)
        rw [fresh] at hit
        rw [bind?_eq fragments hit] at bound
        have done := eq_ok_of_toOption bound
        simp only [Draft.bindFragments, hit, Bind.bind, Except.bind] at done
        split at done
        · cases done
        · rename_i pair attached
          obtain ⟨middle, new⟩ := pair
          cases done
          obtain ⟨taken, _⟩ := Draft.claimAll_of_attachAll attached
          refine ⟨new.host.id, new, ?_, ?_⟩
          · exact (Draft.candidate?_put _ _ _).trans (if_pos rfl)
          · rw [taken.fragments]
            refine List.mem_cons_of_mem _ (List.mem_append_right _ ?_)
            refine List.mem_filterMap.2 ⟨_, isJoining, ?_⟩
            simp [Draft.generation?, found, Candidate.generation]

theorem involves_of_requireMoves
    (member : move ∈ search.requireMoves draft)
    (played : play? ⟨.requires, draft⟩ move = some result) :
    result.draft.Involves bystander := by
  unfold requireMoves at member
  split at member
  · cases List.mem_singleton.1 member
    cases notAvoided
  · split at member
    · cases List.mem_singleton.1 member
      cases notAvoided
    · rename_i require next
      obtain ⟨bound, current, head⟩ := Option.bind_eq_some_iff.1 next
      obtain ⟨rest, requires⟩ := List.head?_eq_some_iff.1 head
      rcases List.mem_append.1 member with provided | left
      · obtain ⟨provider, offered, rfl⟩ := List.mem_map.1 provided
        obtain ⟨after, done, rfl⟩ := Option.map_eq_some_iff.1 played
        obtain ⟨known, other, _⟩ := mem_requireChoices offered
        have isBystander : provider.id = bystander.id := by
          simpa [Move.avoids] using notAvoided
        obtain ⟨_, middle, engaged, rfl⟩ :=
          engaged_of_provide? current requires known other done
        have different := ne_of_resolvingBound? current busy
        rw [isBystander] at engaged
        exact involves_of_engaged found engaged different
      · split at left
        · cases List.mem_singleton.1 left
          cases notAvoided
        · cases left

theorem involves_of_importMoves
    (member : move ∈ search.importMoves draft)
    (played : play? ⟨.imports, draft⟩ move = some result) :
    result.draft.Involves bystander := by
  unfold importMoves at member
  split at member
  · cases List.mem_singleton.1 member
    cases notAvoided
  · rename_i bound current
    split at member
    · cases List.mem_singleton.1 member
      cases notAvoided
    · rename_i requirement rest next
      unfold importChoices at member
      split at member
      · split at member
        · cases List.mem_singleton.1 member
          cases notAvoided
        · cases member
      · split at member
        · cases List.mem_singleton.1 member
          cases notAvoided
        · rcases List.mem_append.1 member with wired | left
          · obtain ⟨choice, offered, rfl⟩ := List.mem_map.1 wired
            obtain ⟨after, done, rfl⟩ := Option.map_eq_some_iff.1 played
            have isBystander : choice.exporter.id = bystander.id := by
              simpa [Move.avoids] using notAvoided
            simp only [wire?, current, next] at done
            split at done
            · obtain ⟨middle, engaged, rfl⟩ := Draft.exists_of_wire
                (ne_resolving_of_mem_wireChoices offered) current next
                (eq_ok_of_toOption done)
              have different := ne_of_resolvingBound? current busy
              rw [isBystander] at engaged
              exact involves_of_engaged found
                (Draft.engaged_of_engage engaged) different
            · cases done
          · split at left
            · cases List.mem_singleton.1 left
              cases notAvoided
            · cases left

end Moves

/-- A move that does not do without an untouched generation involves it. -/
theorem Beside.involves_of_play
    {bystander : Generation} {node other result : Node} {move : Move}
    (beside : Beside bystander node other)
    (member : move ∈ (search.moves node).toList)
    (notAvoided : move.avoids bystander.id = false)
    (played : Search.play? node move = some result) :
    result.draft.Involves bystander := by
  have found := beside.found
  have busy := beside.busy
  have scheduled := beside.orderly.scheduled
  obtain ⟨phase, draft⟩ := node
  cases phase with
  | start =>
      exact involves_of_startMoves found busy notAvoided scheduled member
        played
  | requires =>
      exact involves_of_requireMoves found busy notAvoided
        (by simpa [moves] using member) played
  | imports =>
      exact involves_of_importMoves found busy notAvoided
        (by simpa [moves] using member) played
  | finished => cases member

/-- If a search involves a generation and finds an answer from there, the
generation is in the answer. -/
theorem mem_members_of_found
    {node : Node} {final : Draft} (scheduled : Scheduled node)
    (involves : node.draft.Involves generation)
    (found : (search.problem.explore node).found = some final) :
    ∃ solution ∈ final.solutions, generation ∈ solution.members := by
  have completed : (Attempt.ofOutcome generation
      (search.problem.explore node)).result = .ok final := by
    simp only [Attempt.ofOutcome, found]
  have line := Resolver.exists_line_of_ofOutcome completed
  exact mem_members_of_involves (scheduled_of_line line scheduled)
    (involves_of_line line scheduled involves)

end Search

namespace Resolver

variable {resolver smaller : Resolver} {store : Store}
  {target bystander : Generation}

/-- A started resolver forgets a generation that it tracks. -/
theorem exists_remove
    (started : resolver.framework.isSome = true)
    (tracked : bystander ∈ resolver.tracked) :
    ∃ smaller, resolver.remove bystander = .ok smaller := by
  have known : (resolver.find? bystander.id).isSome = true :=
    List.find?_isSome.2 ⟨bystander, tracked, by simp⟩
  exact ⟨_, remove_eq_ok started known⟩

/-- The answer for a target is the same without a generation that is not in
it. -/
theorem resolve_eq_of_remove
    {answer : List Solution} (consistent : resolver.IsConsistent)
    (tracked : target ∈ resolver.tracked)
    (bystanderTracked : bystander ∈ resolver.tracked)
    (different : target.id ≠ bystander.id)
    (installed : store.state bystander = .installed)
    (unknown : store.LeadsTo (·.id ≠ bystander.id))
    (solved : resolver.resolve store target = .ok answer)
    (absent : ∀ solution ∈ answer, bystander ∉ solution.members)
    (removed : resolver.remove bystander = .ok smaller) :
    smaller.resolve store target = .ok answer := by
  have kept := solved
  obtain ⟨final, result, rfl⟩ := exists_of_solutions solved
  obtain ⟨framework, first, targetInstalled, begun, run⟩ :=
    exists_run_of_attempt result
  have without := without_of_remove removed
  have started := run.started
  have tracks := run.tracks
  obtain ⟨full, pooled, _⟩ := Draft.exists_of_initial begun
  obtain ⟨start, rest, largerBegun, restBegun, beside⟩ :=
    without.exists_beside consistent unknown tracked targetInstalled
      bystanderTracked installed different pooled
  unfold resolve at kept ⊢
  rw [attempt_eq started tracks targetInstalled largerBegun,
    solutions_ofOutcome] at kept
  rw [attempt_eq (without.framework.trans started)
    ((without.tracks_eq different).trans tracks) targetInstalled restBegun,
    solutions_ofOutcome]
  obtain ⟨goal, found, same⟩ := kept
  have counts : ∀ solution ∈ goal.solutions,
      bystander ∉ solution.members := by
    rw [same]
    exact absent
  obtain ⟨answer, reached, alike⟩ := by
    refine (Search.prunes (without.search framework)).exists_found
      (fun goal => ∀ solution ∈ goal.solutions, bystander ∉ solution.members)
      ?_ beside found counts
    intro position other move result goal beside member notAvoided played
      found counts
    have involves := beside.involves_of_play member notAvoided played
    have step : (resolver.search framework).problem.Step position result :=
      ⟨move, member, played⟩
    have scheduled := Search.scheduled_of_decision beside.orderly.scheduled
      (Search.decision_of_step step)
    obtain ⟨solution, listed, isMember⟩ :=
      Search.mem_members_of_found scheduled involves found
    exact counts solution listed isMember
  exact ⟨answer, reached, alike.trans same⟩

end Resolver

/-- To remove a generation that is not in an answer leaves the answer as it is, if
no wiring speaks of its identity. -/
theorem World.Reachable.resolve_of_remove
    {world : World} (reachable : world.Reachable)
    {target bystander : Generation} {answer : List Solution}
    (made : target ∈ world.made)
    (solved : world.resolver.resolve world.store target = .ok answer)
    (tracked : bystander ∈ world.resolver.tracked)
    (other : bystander ≠ target)
    (installed : world.store.state bystander = .installed)
    (absent : ∀ solution ∈ answer, bystander ∉ solution.mentioned)
    (unknown : ∀ generation solution,
      world.store.wiring? generation = some solution →
        ∀ other ∈ solution.mentioned, other.id ≠ bystander.id) :
    ∃ smaller, world.resolver.remove bystander = .ok smaller ∧
      smaller.resolve world.store target = .ok answer := by
  have consistent := reachable.isConsistent
  obtain ⟨final, result, _⟩ := Resolver.exists_of_solutions solved
  obtain ⟨_, _, _, _, run⟩ := Resolver.exists_run_of_attempt result
  have targetTracked := consistent.target_tracked made run.tracks
  have different : target.id ≠ bystander.id := by
    intro same
    exact other (List.inj_on_of_nodup_map consistent.resolver.distinct
      tracked targetTracked same.symm)
  obtain ⟨smaller, removed⟩ :=
    Resolver.exists_remove (by rw [run.started]; rfl) tracked
  refine ⟨smaller, removed, ?_⟩
  refine Resolver.resolve_eq_of_remove consistent.resolver targetTracked
    tracked different installed
    (Store.leadsTo_of_wiring? fun wired => unknown _ _ wired) solved ?_
    removed
  intro solution listed member
  exact absent solution listed
    (List.mem_append_left _ (List.mem_append_left _ member))

/-- The answer for the consumer is the same without a fragment that it cannot
have. -/
theorem World.burden_takes_no_part :
    ∃ answer smaller,
      (Sample.halfway.installing (Sample.id 3, Sample.burden)).resolver.remove
          (Sample.generation 3 Sample.burden) = .ok smaller ∧
        smaller.resolve
          (Sample.halfway.installing (Sample.id 3, Sample.burden)).store
            (Sample.generation 0 Sample.consumer) = .ok answer := by
  have facts : ((Sample.halfway.installing
      (Sample.id 3, Sample.burden)).resolver.resolve
        (Sample.halfway.installing (Sample.id 3, Sample.burden)).store
          (Sample.generation 0 Sample.consumer)).toOption.any
            (fun answer => decide (∀ solution ∈ answer,
              Sample.generation 3 Sample.burden ∉ solution.mentioned)) =
                true := by
    decide +kernel
  obtain ⟨answer, solved, absent⟩ := (Option.any_eq_true _ _).1 facts
  have reachable : (Sample.halfway.installing
      (Sample.id 3, Sample.burden)).Reachable :=
    World.Reachable.installing Sample.reachable_halfway (by decide +kernel)
      (by decide +kernel)
  exact ⟨answer, World.Reachable.resolve_of_remove reachable
    (by decide +kernel) (Search.eq_ok_of_toOption solved) (by decide +kernel)
    (by decide +kernel) (by decide +kernel) (of_decide_eq_true absent)
    fun _ _ wired => Store.forall_mentioned (by decide +kernel) wired⟩

namespace Sample

/-- An exporter of a package and of one that this package uses. -/
def founder : Manifest :=
  bundle "x" [offer "q" 1 ["r"], offer "r" 1] []

/-- A bundle that is wired to it. -/
def follower : Manifest :=
  bundle "r" [offer "p" 1 ["q"]] [wish "q" 1]

/-- An exporter of a newer version of the package that is used. -/
def modern : Manifest :=
  bundle "y" [offer "r" 2] []

/-- A bundle that offers and needs nothing. -/
def idler : Manifest :=
  bundle "g" [] []

/-- A bundle that imports from the follower, and the newer version. -/
def client : Manifest :=
  bundle "t" [] [wish "p" 1, wish "r" 2]

/-- A world in which the follower is wired to the founder, whose identity is that
of the idler now. -/
def succession : World :=
  (((((world [founder, follower]).applying (generation 1 follower)
    fun _ => true).removing (generation 0 founder)).installing
      (id 2, modern)).installing (id 0, idler)).installing (id 3, client)

theorem reachable_succession : succession.Reachable := by
  refine World.Reachable.installing ?_ (by decide +kernel)
      (by decide +kernel)
  refine World.Reachable.installing ?_ (by decide +kernel)
      (by decide +kernel)
  refine World.Reachable.installing ?_ (by decide +kernel)
      (by decide +kernel)
  refine World.Reachable.removing ?_ (by decide +kernel)
  exact (reachable_world _).applying (by decide +kernel) _

end Sample

/-- A generation that occurs in no answer and no wiring is missed nevertheless, if
a wiring speaks of another one with its identity. -/
theorem World.namesake_takes_part :
    ∃ world target bystander answer smaller,
      Reachable world ∧ target ∈ world.made ∧
        world.resolver.resolve world.store target = .ok answer ∧
        bystander ∈ world.resolver.tracked ∧ bystander ≠ target ∧
        world.store.state bystander = .installed ∧
        (∀ solution ∈ answer, bystander ∉ solution.mentioned) ∧
        (∀ solution ∈ world.store.solutions,
          bystander ∉ solution.mentioned) ∧
        world.resolver.remove bystander = .ok smaller ∧
        smaller.resolve world.store target ≠ .ok answer := by
  let bystander : Generation := ⟨3, Sample.id 0, Sample.idler⟩
  let target : Generation := ⟨4, Sample.id 3, Sample.client⟩
  let answer : List Solution := [
    ⟨target, [],
      [⟨"p", Sample.offer "p" 1 ["q"],
          Sample.generation 1 Sample.follower⟩,
        ⟨"r", Sample.offer "r" 2, Sample.generation 2 Sample.modern⟩], []⟩,
    ⟨Sample.generation 2 Sample.modern, [], [], []⟩]
  have solved : Sample.succession.resolver.resolve Sample.succession.store
      target = .ok answer :=
    Search.eq_ok_of_toOption (by decide +kernel)
  have refused : ((Sample.succession.resolver.remove
      bystander).toOption.any fun smaller =>
        decide ((smaller.resolve Sample.succession.store
          target).toOption = none)) = true := by
    decide +kernel
  obtain ⟨smaller, removed, refused⟩ := (Option.any_eq_true _ _).1 refused
  refine ⟨Sample.succession, target, bystander, answer, smaller,
    Sample.reachable_succession, by decide +kernel, solved,
    by decide +kernel, by decide +kernel, by decide +kernel,
    by decide +kernel, by decide +kernel, Search.eq_ok_of_toOption removed,
    ?_⟩
  intro same
  have none := of_decide_eq_true refused
  rw [same] at none
  cases none

end ModuleWiring
