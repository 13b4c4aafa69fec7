import ModuleWiring.Proofs.Course
import ModuleWiring.Proofs.Inquiry
import ModuleWiring.Proofs.ReorderedDrafts

/-!
# Singletons

Of the singletons that share a name one at most should be resolved.  A search
sees to that among its candidates.  But a fragment that is resolved is no
candidate, so that its name counts as free.
-/

namespace ModuleWiring

/-- Two generations are singletons of one name. -/
structure Generation.Excludes (left right : Generation) : Prop where
  different : left ≠ right
  leftSingleton : left.isSingleton = true
  rightSingleton : right.isSingleton = true
  name : left.symbolicName = right.symbolicName

theorem Generation.Excludes.symm
    {left right : Generation} (excludes : left.Excludes right) :
    right.Excludes left :=
  ⟨excludes.different.symm, excludes.rightSingleton, excludes.leftSingleton,
    excludes.name.symm⟩

/-- A pool has one candidate at most that is a singleton of some name. -/
theorem Draft.id_eq_of_pool
    {store : Store} {generations : List Generation} {draft : Draft}
    {left right : Generation}
    (pooled : pool store generations = .ok draft)
    (distinct : (generations.map Generation.id).Nodup)
    (excludes : left.Excludes right)
    (leftMember : left ∈ generations) (rightMember : right ∈ generations)
    (leftFree : ((store.state left).isResolved &&
      left.isFragment) = false)
    (rightFree : ((store.state right).isResolved &&
      right.isFragment) = false) : left.id = right.id := by
  have registered := isRegistered_of_pool pooled
  have leftNamed := registered
    (candidate?_of_pool pooled distinct leftMember leftFree)
  have rightNamed := registered
    (candidate?_of_pool pooled distinct rightMember rightFree)
  simp only [Candidate.generation_given] at leftNamed rightNamed
  have name := leftNamed excludes.leftSingleton
  rw [excludes.name, rightNamed excludes.rightSingleton] at name
  exact (Option.some.inj name).symm

namespace Store

variable {store : Store} {generation : Generation}

theorem isResolved_apply
    (held : store.holds generation = true) (solution : Solution) :
    ((solution.apply store).state generation).isResolved = true ↔
      (store.state generation).isResolved = true ∨
        generation.serial ∈ solution.members.map Generation.serial := by
  obtain ⟨record, found⟩ := Option.isSome_iff_exists.1 held
  unfold state
  rw [find?_apply, found]
  by_cases member : generation.serial ∈
    solution.members.map Generation.serial
  · rw [if_pos member]
    cases before : record.state <;>
      simp [Solution.settle, before, State.isResolved, member]
  · rw [if_neg member, or_iff_left member]

/-- What is resolved when an answer has been applied was so before, or is a
member of a solution. -/
theorem isResolved_applyAll
    (held : store.holds generation = true) (answer : List Solution) :
    ((store.applyAll answer).state generation).isResolved = true ↔
      (store.state generation).isResolved = true ∨
        ∃ solution ∈ answer,
          generation.serial ∈ solution.members.map Generation.serial := by
  induction answer generalizing store with
  | nil => simp [applyAll]
  | cons first rest inductionHypothesis =>
      have heldLater : (first.apply store).holds generation = true :=
        (holds_applyAll store [first] generation).trans held
      change (((first.apply store).applyAll rest).state
        generation).isResolved = true ↔ _
      rw [inductionHypothesis heldLater, isResolved_apply held, or_assoc,
        List.exists_mem_cons_iff]

end Store

namespace World

variable {world : World} {target : Generation} {framework : Framework}
  {start : Node} {final : Draft} {answer : List Solution}
  {exchanges : List Exchange} {generation : Generation}

/-! ## What is resolved along a course -/

/-- Whatever was answered is resolved, and whatever is resolved is tracked. -/
structure IsCurrent (world : World) : Prop where
  answered : ∀ solution ∈ world.answers, ∀ member ∈ solution.members,
    (world.store.state member).isResolved = true
  tracked : ∀ generation ∈ world.made,
    (world.store.state generation).isResolved = true →
      generation ∈ world.resolver.tracked

/-- The fragments that a host was resolved with are resolved. -/
theorem IsCurrent.resolved_of_carried
    (current : world.IsCurrent) (consistent : world.IsConsistent)
    {host : Generation} (made : host ∈ world.made)
    (carried : generation ∈ world.store.carried host) :
    (world.store.state generation).isResolved = true := by
  obtain ⟨solution, answered, _, listed⟩ :=
    consistent.exists_of_carried made carried
  exact current.answered solution answered generation
    (List.mem_cons_of_mem _ listed)

/-- A member of an answer was a candidate of its search or is resolved
already. -/
theorem Inquires.resolved_or_canonical
    (inquires : world.Inquires target framework start final)
    (current : world.IsCurrent) {solution : Solution}
    (answered : solution ∈ final.solutions)
    (member : generation ∈ solution.members) :
    (world.store.state generation).isResolved = true ∨
      generation ∈ world.resolver.canonical world.store := by
  have canonical : ∀ {id : GenerationId} {candidate : Candidate},
      final.candidate? id = some candidate →
        candidate.generation ∈ world.resolver.canonical world.store := by
    intro id candidate found
    obtain ⟨tracked, placed⟩ := inquires.canonical_of_found found
    exact List.mem_filter.2 ⟨tracked, by simpa using placed⟩
  obtain ⟨bound, found, rfl⟩ := Draft.candidate?_of_mem_solutions answered
  rcases List.mem_cons.1 member with rfl | listed
  · exact .inr (canonical found)
  · rcases inquires.carried_or_attached found listed with
      carried | ⟨_, attached⟩
    · left
      have made := inquires.consistent.tracked
        (inquires.canonical_of_found found).1
      exact current.resolved_of_carried inquires.consistent made carried
    · exact .inr (canonical attached)

/-- Two candidates that were not resolved as fragments are not singletons of one
name. -/
theorem Inquires.apart
    (inquires : world.Inquires target framework start final)
    {left right : Generation} (excludes : left.Excludes right)
    (leftMember : left ∈ world.resolver.canonical world.store)
    (rightMember : right ∈ world.resolver.canonical world.store)
    (leftFree : ((world.store.state left).isResolved &&
      left.isFragment) = false)
    (rightFree : ((world.store.state right).isResolved &&
      right.isFragment) = false) : False := by
  obtain ⟨pool, pooled⟩ := inquires.pooled
  have distinct := inquires.consistent.resolver.distinct
  have sameId := Draft.id_eq_of_pool pooled
    (distinct.sublist (List.filter_sublist.map _)) excludes leftMember
    rightMember leftFree rightFree
  exact excludes.different (List.inj_on_of_nodup_map distinct
    (List.mem_filter.1 leftMember).1 (List.mem_filter.1 rightMember).1
    sameId)

/-- What an answer makes resolved of what was made. -/
theorem Settles.isResolved_iff
    (settles : world.Settles answer) (settled : world.IsSettled)
    (made : generation ∈ world.made) :
    ((world.answered answer).store.state generation).isResolved = true ↔
      (world.store.state generation).isResolved = true ∨
        ∃ solution ∈ answer, generation ∈ solution.members := by
  refine (Store.isResolved_applyAll (settled.held generation made)
    answer).trans (or_congr_right ?_)
  refine exists_congr fun solution => and_congr_right fun answered => ?_
  constructor
  · intro member
    obtain ⟨other, listed, same⟩ := List.mem_map.1 member
    have known :=
      (settles.accepts.proper solution answered).members other listed
    exact settled.consistent.serials other known generation made same ▸ listed
  · exact List.mem_map_of_mem

theorem IsCurrent.installed
    (current : world.IsCurrent) (settled : world.IsSettled)
    (id : GenerationId) (manifest : Manifest) :
    (world.installed id manifest).IsCurrent where
  answered := by
    intro solution answered member listed
    have made := (settled.consistent.answers solution answered).members
      member listed
    rw [(settled.installed_other id manifest made).2]
    exact current.answered solution answered member listed
  tracked := by
    intro generation made isResolved
    rcases List.mem_append.1 made with old | new
    · rw [(settled.installed_other id manifest old).2] at isResolved
      exact current.tracked generation old isResolved
    · have record : (world.installed id manifest).store.records.find?
          generation.serial = some ⟨.installed, none⟩ := by
        rw [List.mem_singleton.1 new]
        exact (Table.find?_insert _ _ _ _).trans (if_pos rfl)
      unfold Store.state at isResolved
      rw [record] at isResolved
      cases isResolved

theorem IsCurrent.answered_run
    (current : world.IsCurrent) (settled : world.IsSettled)
    (inquires : world.Inquires target framework start final)
    (settles : world.Settles final.solutions) :
    (world.answered final.solutions).IsCurrent where
  answered := by
    intro solution listed member isMember
    rcases List.mem_append.1 listed with earlier | answered
    · have made := (settled.consistent.answers solution earlier).members
        member isMember
      exact (settles.isResolved_iff settled made).2
        (.inl (current.answered solution earlier member isMember))
    · have made := (settles.accepts.proper solution answered).members
        member isMember
      exact (settles.isResolved_iff settled made).2
        (.inr ⟨solution, answered, isMember⟩)
  tracked := by
    intro generation made isResolved
    rcases (settles.isResolved_iff settled made).1 isResolved with
      before | ⟨solution, answered, member⟩
    · exact current.tracked generation made before
    · rcases inquires.resolved_or_canonical current answered member with
        before | canonical
      · exact current.tracked generation made before
      · exact (List.mem_filter.1 canonical).1

theorem Course.isCurrent (course : world.Course exchanges) :
    world.IsCurrent := by
  induction course with
  | start policy framework =>
      exact ⟨fun _ answered => absurd answered List.not_mem_nil,
        fun _ made => absurd made List.not_mem_nil⟩
  | install id manifest course inductionHypothesis =>
      exact inductionHypothesis.installed course.isSettled id manifest
  | add _ _ added inductionHypothesis =>
      obtain ⟨_, rfl⟩ := Resolver.eq_of_add added
      exact ⟨inductionHypothesis.answered,
        fun generation made isResolved => List.mem_append_left _
          (inductionHypothesis.tracked generation made isResolved)⟩
  | resolve course made solved inductionHypothesis =>
      have settled := course.isSettled
      have settles := settled.settles_resolve made solved
      obtain ⟨_, _, _, rfl, inquires⟩ :=
        settled.consistent.exists_inquires made (.resolve solved)
      exact inductionHypothesis.answered_run settled inquires settles
  | resolveDynamic course made isBundle solved inductionHypothesis =>
      have settled := course.isSettled
      have settles := settled.settles_resolveDynamic made isBundle solved
      obtain ⟨_, _, _, rfl, inquires⟩ :=
        settled.consistent.exists_inquires made (.dynamic _ solved)
      exact inductionHypothesis.answered_run settled inquires settles

/-! ## Names that are taken twice -/

/-- A generation is tracked and resolved. -/
structure IsActive (world : World) (generation : Generation) : Prop where
  tracked : generation ∈ world.resolver.tracked
  resolved : (world.store.state generation).isResolved = true

/-- A generation becomes resolved although a fragment of its name is. -/
structure Exchange.Overlooks (exchange : Exchange)
    (old new : Generation) : Prop where
  isFragment : old.isFragment = true
  active : exchange.before.IsActive old
  inactive : ¬ exchange.before.IsActive new
  taken : ∃ solution ∈ exchange.answer, new ∈ solution.members

theorem isActive_installed
    (settled : world.IsSettled) (id : GenerationId) (manifest : Manifest) :
    (world.installed id manifest).IsActive generation ↔
      world.IsActive generation := by
  have same : generation ∈ world.resolver.tracked →
      (world.installed id manifest).store.state generation =
        world.store.state generation := fun tracked =>
    (settled.installed_other id manifest
      (settled.consistent.tracked tracked)).2
  constructor
  · rintro ⟨tracked, resolved⟩
    exact ⟨tracked, same tracked ▸ resolved⟩
  · rintro ⟨tracked, resolved⟩
    exact ⟨tracked, (same tracked).symm ▸ resolved⟩

/-- Whoever is added is not resolved, or was tracked before. -/
theorem isActive_added
    (current : world.IsCurrent) {added : Generation} {resolver : Resolver}
    (made : added ∈ world.made)
    (done : world.resolver.add added = .ok resolver) :
    IsActive { world with resolver := resolver } generation ↔
      world.IsActive generation := by
  obtain ⟨_, rfl⟩ := Resolver.eq_of_add done
  constructor
  · rintro ⟨tracked, resolved⟩
    refine ⟨?_, resolved⟩
    rcases List.mem_append.1 tracked with old | new
    · exact old
    · exact current.tracked generation (List.mem_singleton.1 new ▸ made)
        resolved
  · rintro ⟨tracked, resolved⟩
    exact ⟨List.mem_append_left _ tracked, resolved⟩

section Answered

variable (current : world.IsCurrent)
  (inquires : world.Inquires target framework start final)

include current inquires

theorem isActive_answered
    (settled : world.IsSettled) (settles : world.Settles final.solutions) :
    (world.answered final.solutions).IsActive generation ↔
      world.IsActive generation ∨
        ∃ solution ∈ final.solutions, generation ∈ solution.members := by
  constructor
  · rintro ⟨tracked, resolved⟩
    have made := settled.consistent.tracked tracked
    exact ((settles.isResolved_iff settled made).1 resolved).imp_left
      fun before => ⟨tracked, before⟩
  · rintro (⟨tracked, resolved⟩ | ⟨solution, answered, member⟩)
    · have made := settled.consistent.tracked tracked
      exact ⟨tracked, (settles.isResolved_iff settled made).2 (.inl resolved)⟩
    · have made := (settles.accepts.proper solution answered).members
        generation member
      refine ⟨?_, (settles.isResolved_iff settled made).2
        (.inr ⟨solution, answered, member⟩)⟩
      rcases inquires.resolved_or_canonical current answered member with
        before | canonical
      · exact current.tracked generation made before
      · exact (List.mem_filter.1 canonical).1

/-- Who becomes active was a candidate that was not resolved. -/
theorem candidate_of_taken
    (inactive : ¬ world.IsActive generation)
    (taken : ∃ solution ∈ final.solutions, generation ∈ solution.members) :
    generation ∈ world.resolver.canonical world.store ∧
      (world.store.state generation).isResolved = false := by
  obtain ⟨solution, answered, member⟩ := taken
  have proper := inquires.run.isProper inquires.consistent.sound inquires.made
    (fun _ tracked => inquires.consistent.tracked tracked) answered
  have unresolved : (world.store.state generation).isResolved = false := by
    apply Bool.of_not_eq_true
    intro resolved
    have made := proper.members generation member
    exact inactive ⟨current.tracked generation made resolved, resolved⟩
  exact ⟨(inquires.resolved_or_canonical current answered member)
    |>.resolve_left (by simp [unresolved]), unresolved⟩

variable {left right : Generation} (excludes : left.Excludes right)

include excludes

/-- A singleton that becomes active next to one of its name overlooks it. -/
theorem overlooks_of_taken
    (active : world.IsActive left) (inactive : ¬ world.IsActive right)
    (taken : ∃ solution ∈ final.solutions, right ∈ solution.members) :
    Exchange.Overlooks ⟨world, final.solutions⟩ left right where
  isFragment := by
    apply Bool.of_not_eq_false
    intro isBundle
    obtain ⟨canonical, unresolved⟩ :=
      candidate_of_taken current inquires inactive taken
    have placed : world.store.state left ≠ .uninstalled := by
      intro uninstalled
      have resolved := active.resolved
      rw [uninstalled] at resolved
      cases resolved
    exact inquires.apart excludes
      (List.mem_filter.2 ⟨active.tracked, by simpa using placed⟩) canonical
      (by rw [isBundle, Bool.and_false])
      (by rw [unresolved, Bool.false_and])
  active := active
  inactive := inactive
  taken := taken

/-- No answer makes two singletons of one name active at once. -/
theorem not_both_taken
    (leftInactive : ¬ world.IsActive left)
    (rightInactive : ¬ world.IsActive right)
    (leftTaken : ∃ solution ∈ final.solutions, left ∈ solution.members)
    (rightTaken : ∃ solution ∈ final.solutions, right ∈ solution.members) :
    False := by
  obtain ⟨leftCanonical, leftUnresolved⟩ :=
    candidate_of_taken current inquires leftInactive leftTaken
  obtain ⟨rightCanonical, rightUnresolved⟩ :=
    candidate_of_taken current inquires rightInactive rightTaken
  exact inquires.apart excludes leftCanonical rightCanonical
    (by rw [leftUnresolved, Bool.false_and])
    (by rw [rightUnresolved, Bool.false_and])

/-- Two singletons of one name are active after an exchange exactly if they were
before, or if one has been overlooked. -/
theorem both_active_answered
    (settled : world.IsSettled) (settles : world.Settles final.solutions) :
    ((world.answered final.solutions).IsActive left ∧
      (world.answered final.solutions).IsActive right) ↔
    (world.IsActive left ∧ world.IsActive right) ∨
      (Exchange.Overlooks ⟨world, final.solutions⟩ left right ∨
        Exchange.Overlooks ⟨world, final.solutions⟩ right left) := by
  rw [isActive_answered current inquires settled settles,
    isActive_answered current inquires settled settles]
  constructor
  · rintro ⟨leftAfter, rightAfter⟩
    by_cases leftActive : world.IsActive left
    · by_cases rightActive : world.IsActive right
      · exact .inl ⟨leftActive, rightActive⟩
      · exact .inr (.inl (overlooks_of_taken current inquires excludes
          leftActive rightActive (rightAfter.resolve_left rightActive)))
    · have leftTaken := leftAfter.resolve_left leftActive
      by_cases rightActive : world.IsActive right
      · exact .inr (.inr (overlooks_of_taken current inquires excludes.symm
          rightActive leftActive leftTaken))
      · exact (not_both_taken current inquires excludes leftActive
          rightActive leftTaken (rightAfter.resolve_left rightActive)).elim
  · rintro (⟨leftBefore, rightBefore⟩ | overlooks | overlooks)
    · exact ⟨.inl leftBefore, .inl rightBefore⟩
    · exact ⟨.inl overlooks.active, .inr overlooks.taken⟩
    · exact ⟨.inr overlooks.taken, .inl overlooks.active⟩

end Answered

/-- Two singletons of one name are tracked and resolved after a course exactly if
one became resolved, in some exchange, while the other was a resolved fragment. -/
theorem Course.both_active_iff_overlooks
    (course : world.Course exchanges) {left right : Generation}
    (excludes : left.Excludes right) :
    (world.IsActive left ∧ world.IsActive right) ↔
      ∃ exchange ∈ exchanges, exchange.Overlooks left right ∨
        exchange.Overlooks right left := by
  induction course with
  | start policy framework =>
      constructor
      · rintro ⟨⟨tracked, _⟩, _⟩
        cases tracked
      · rintro ⟨_, listed, _⟩
        cases listed
  | install id manifest course inductionHypothesis =>
      rw [isActive_installed course.isSettled,
        isActive_installed course.isSettled, inductionHypothesis]
  | add course made added inductionHypothesis =>
      rw [isActive_added course.isCurrent made added,
        isActive_added course.isCurrent made added, inductionHypothesis]
  | resolve course made solved inductionHypothesis =>
      have settled := course.isSettled
      have settles := settled.settles_resolve made solved
      obtain ⟨_, _, _, rfl, inquires⟩ :=
        settled.consistent.exists_inquires made (.resolve solved)
      rw [both_active_answered course.isCurrent inquires excludes settled
        settles, inductionHypothesis]
      simp [or_and_right, exists_or]
  | resolveDynamic course made isBundle solved inductionHypothesis =>
      have settled := course.isSettled
      have settles := settled.settles_resolveDynamic made isBundle solved
      obtain ⟨_, _, _, rfl, inquires⟩ :=
        settled.consistent.exists_inquires made (.dynamic _ solved)
      rw [both_active_answered course.isCurrent inquires excludes settled
        settles, inductionHypothesis]
      simp [or_and_right, exists_or]

end World

namespace Sample

/-- A fragment that is a singleton. -/
def soleFragment (host : String) : Manifest :=
  { fragment "f" host [] [] with singleton := true }

/-- The world of a host and its fragment. -/
def singleWorld : World :=
  world [bundle "h" [] [], soleFragment "h"]

/-- How they are resolved. -/
def singleWiring : Solution :=
  ⟨generation 0 (bundle "h" [] []), [generation 1 (soleFragment "h")], [], []⟩

/-- The world in which another host and its fragment come after that. -/
def doubleWorld : World :=
  ((singleWorld.answered [singleWiring]).installing
    (id 2, bundle "k" [] [])).installing (id 3, soleFragment "k")

/-- How those are resolved. -/
def doubleWiring : Solution :=
  ⟨generation 2 (bundle "k" [] []), [generation 3 (soleFragment "k")], [], []⟩

end Sample

/-- Two fragments that are singletons of one name are resolved one after the
other. -/
theorem World.singletons_overlooked :
    (Sample.doubleWorld.answered [Sample.doubleWiring]).Course
        [⟨Sample.singleWorld, [Sample.singleWiring]⟩,
          ⟨Sample.doubleWorld, [Sample.doubleWiring]⟩] ∧
      (Sample.generation 1 (Sample.soleFragment "h")).Excludes
        (Sample.generation 3 (Sample.soleFragment "k")) ∧
      (Sample.doubleWorld.answered [Sample.doubleWiring]).IsActive
        (Sample.generation 1 (Sample.soleFragment "h")) ∧
      (Sample.doubleWorld.answered [Sample.doubleWiring]).IsActive
        (Sample.generation 3 (Sample.soleFragment "k")) := by
  have first : Sample.singleWorld.resolver.resolve Sample.singleWorld.store
      (Sample.generation 0 (Sample.bundle "h" [] [])) =
        .ok [Sample.singleWiring] :=
    Search.eq_ok_of_toOption (by decide +kernel)
  have second : Sample.doubleWorld.resolver.resolve Sample.doubleWorld.store
      (Sample.generation 3 (Sample.soleFragment "k")) =
        .ok [Sample.doubleWiring] :=
    Search.eq_ok_of_toOption (by decide +kernel)
  have earlier : Sample.singleWorld.Course [] := Sample.course_world _
  have extended : Sample.doubleWorld.Course
      [⟨Sample.singleWorld, [Sample.singleWiring]⟩] :=
    ((earlier.resolve (by decide +kernel) first).installing
      (by decide +kernel) (by decide +kernel)).installing
      (by decide +kernel) (by decide +kernel)
  have course := extended.resolve (by decide +kernel) second
  have excludes : (Sample.generation 1 (Sample.soleFragment "h")).Excludes
      (Sample.generation 3 (Sample.soleFragment "k")) :=
    ⟨by decide, rfl, rfl, rfl⟩
  have overlooks : Exchange.Overlooks
      ⟨Sample.doubleWorld, [Sample.doubleWiring]⟩
      (Sample.generation 1 (Sample.soleFragment "h"))
      (Sample.generation 3 (Sample.soleFragment "k")) :=
    ⟨by decide, ⟨by decide +kernel, by decide +kernel⟩,
      fun active => absurd active.resolved (by decide +kernel),
      _, List.mem_cons_self, by decide +kernel⟩
  exact ⟨course, excludes, (course.both_active_iff_overlooks excludes).2
    ⟨_, List.mem_concat_self, .inl overlooks⟩⟩

end ModuleWiring
