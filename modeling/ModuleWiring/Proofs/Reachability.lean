import ModuleWiring.Proofs.Provenance
import ModuleWiring.Proofs.World

/-!
# What holds in every reachable world

Serial numbers tell installations apart, the store speaks of answered solutions
only, and these are about known generations.
-/

namespace ModuleWiring

/-- A solution of known generations that lists only fragments as fragments and
wires no host to itself. -/
structure Solution.IsProper (known : Generation → Prop)
    (solution : Solution) : Prop where
  members : ∀ member ∈ solution.members, known member
  fragments : ∀ fragment ∈ solution.fragments, fragment.isFragment = true
  foreign : solution.host.isFragment = false →
    ∀ wire ∈ solution.wires, wire.exporter.id ≠ solution.host.id

namespace Store

theorem find?_update
    (store : Store) (change : Record → Record) (generation : Generation)
    (serial : Nat) :
    (store.update change generation).records.find? serial =
      if generation.serial = serial then
        (store.records.find? serial).map change
      else
        store.records.find? serial := by
  unfold update
  split
  · rename_i found
    by_cases same : generation.serial = serial
    · rw [if_pos same, ← same, found]
      rfl
    · rw [if_neg same]
  · rename_i record found
    change (store.records.insert _ _).find? serial = _
    rw [Table.find?_insert]
    by_cases same : generation.serial = serial
    · rw [if_pos same, if_pos same, ← same, found]
      rfl
    · rw [if_neg same, if_neg same]

theorem nextSerial_update
    (store : Store) (change : Record → Record) (generation : Generation) :
    (store.update change generation).nextSerial = store.nextSerial := by
  unfold update
  split <;> rfl

/-- Updating some generations changes only their records. -/
theorem find?_updateAll
    {change : Record → Record} {members : List Generation} {store : Store}
    {serial : Nat} {record : Record}
    (found : (members.foldl
      (fun store member => store.update change member)
      store).records.find? serial = some record) :
    store.records.find? serial = some record ∨
      (∃ before, record = change before) ∧
        ∃ member ∈ members, member.serial = serial := by
  induction members generalizing store with
  | nil => exact .inl found
  | cons first rest inductionHypothesis =>
      rw [List.foldl_cons] at found
      rcases inductionHypothesis found with
        here | ⟨changed, member, listed, same⟩
      · rw [find?_update] at here
        split at here
        · rename_i same
          obtain ⟨before, _, rfl⟩ := Option.map_eq_some_iff.1 here
          exact .inr ⟨⟨before, rfl⟩, first, List.mem_cons_self, same⟩
        · exact .inl here
      · exact .inr ⟨changed, member, List.mem_cons_of_mem _ listed, same⟩

theorem nextSerial_updateAll
    (change : Record → Record) (members : List Generation) (store : Store) :
    (members.foldl (fun store member => store.update change member)
      store).nextSerial = store.nextSerial := by
  induction members generalizing store with
  | nil => rfl
  | cons first rest inductionHypothesis =>
      rw [List.foldl_cons, inductionHypothesis, nextSerial_update]

end Store

namespace World

/-- The representation invariant of worlds. -/
structure IsConsistent (world : World) : Prop where
  resolver : world.resolver.IsConsistent
  tracked : world.resolver.tracked ⊆ world.made
  serials : ∀ left ∈ world.made, ∀ right ∈ world.made,
    left.serial = right.serial → left = right
  below : ∀ generation ∈ world.made,
    generation.serial < world.store.nextSerial
  answers : ∀ solution ∈ world.answers,
    solution.IsProper (· ∈ world.made)
  recorded : ∀ {serial record solution},
    world.store.records.find? serial = some record →
      record.wiring = some solution →
        solution ∈ world.answers ∧
          ∃ member ∈ solution.members, member.serial = serial

variable {world : World}

/-- The wiring of an installation is what is left of an answered solution that
it is a member of. -/
theorem IsConsistent.exists_of_wiring?
    (consistent : world.IsConsistent) {generation : Generation}
    {left : Solution} (made : generation ∈ world.made)
    (wired : world.store.wiring? generation = some left) :
    ∃ solution ∈ world.answers, generation ∈ solution.members ∧
      solution.restrict world.store.holds = some left := by
  unfold Store.wiring? at wired
  split at wired
  · cases wired
  · rename_i record found
    obtain ⟨solution, recorded, kept⟩ := Option.bind_eq_some_iff.1 wired
    obtain ⟨answered, member, listed, same⟩ :=
      consistent.recorded found recorded
    have known := (consistent.answers solution answered).members member listed
    have equality := consistent.serials member known generation made same
    exact ⟨solution, answered, equality ▸ listed, kept⟩

/-- The store of a consistent world is sound. -/
theorem IsConsistent.sound
    (consistent : world.IsConsistent) :
    world.store.IsSound (· ∈ world.made) := by
  refine ⟨?_, ?_⟩
  · intro generation made fragment member
    unfold Store.fragments at member
    split at member
    · cases member
    · rename_i left wired
      obtain ⟨solution, answered, _, kept⟩ :=
        consistent.exists_of_wiring? made wired
      have proper := consistent.answers solution answered
      unfold Solution.restrict at kept
      split at kept
      · cases kept
        have listed := (List.mem_filter.1 member).1
        exact ⟨proper.members fragment (List.mem_cons_of_mem _ listed),
          proper.fragments fragment listed⟩
      · cases kept
  · intro generation made notFragment wire member
    unfold Store.wires at member
    split at member
    · cases member
    · rename_i left wired
      obtain ⟨solution, answered, listed, kept⟩ :=
        consistent.exists_of_wiring? made wired
      have proper := consistent.answers solution answered
      have isHost : generation = solution.host := by
        rcases List.mem_cons.1 listed with host | fragment
        · exact host
        · rw [proper.fragments generation fragment] at notFragment
          cases notFragment
      rw [isHost]
      exact proper.foreign (isHost ▸ notFragment) wire
        ((Solution.wires_sublist_of_restrict kept).subset member)

theorem IsConsistent.target_tracked
    (consistent : world.IsConsistent) {target : Generation}
    (made : target ∈ world.made)
    (tracks : world.resolver.tracks target = true) :
    target ∈ world.resolver.tracked := by
  obtain ⟨other, found, same⟩ := Option.any_eq_true _ _ |>.1 tracks
  have member := (Resolver.mem_of_find? found).1
  have equality := consistent.serials other (consistent.tracked member)
    target made (by simpa using same)
  exact equality ▸ member

end World

namespace Resolver

variable {resolver : Resolver} {store : Store} {target : Generation}
  {framework : Framework} {start : Node} {final : Draft}
  {known : Generation → Prop}

/-- All candidates of a first draft over known generations are rooted in them. -/
theorem isRooted_of_begins
    (begins : start.draft.Begins store (resolver.canonical store) target)
    (sound : store.IsSound known) (knownTarget : known target)
    (knownTracked : ∀ generation ∈ resolver.tracked, known generation) :
    Search.Everywhere (Candidate.IsRooted known) start := by
  intro id candidate found
  obtain ⟨origin, given⟩ := begins.given found
  refine Candidate.isRooted_of_isGiven sound ?_ given
  rcases origin with listed | isTarget
  · exact knownTracked _ (List.mem_filter.1 listed).1
  · exact isTarget ▸ knownTarget

theorem Run.isRooted
    (run : resolver.Run store target framework start final)
    (sound : store.IsSound known) (knownTarget : known target)
    (knownTracked : ∀ generation ∈ resolver.tracked, known generation) :
    Search.Everywhere (Candidate.IsRooted known) start ∧
      Search.Everywhere (Candidate.IsRooted known) ⟨.finished, final⟩ := by
  have initial := isRooted_of_begins run.begins sound knownTarget knownTracked
  exact ⟨initial, Search.isRooted_of_line run.line run.scheduled initial⟩

theorem Run.isProper
    (run : resolver.Run store target framework start final)
    (sound : store.IsSound known) (knownTarget : known target)
    (knownTracked : ∀ generation ∈ resolver.tracked, known generation)
    {solution : Solution} (member : solution ∈ final.solutions) :
    solution.IsProper known := by
  obtain ⟨bound, found, rfl⟩ := Draft.candidate?_of_mem_solutions member
  have rooted := (run.isRooted sound knownTarget knownTracked).2 found
  refine ⟨?_, ?_, ?_⟩
  · intro other listed
    rcases List.mem_cons.1 listed with isHost | isFragment
    · rw [isHost]
      exact rooted.isKnown
    · exact (rooted.fragments other isFragment).1
  · intro fragment listed
    exact (rooted.fragments fragment listed).2
  · intro notFragment wire listed
    exact rooted.foreign notFragment (rooted.keyed.find?_of_mem listed)

end Resolver

namespace World

theorem isConsistent_initial (policy : Policy) :
    (initial policy).IsConsistent := by
  refine ⟨Resolver.isConsistent_create policy, List.nil_subset _, ?_, ?_, ?_,
    ?_⟩
  · intro left member
    cases member
  · intro generation member
    cases member
  · intro solution member
    cases member
  · intro serial record solution found
    cases found

variable {world next : World}

theorem IsConsistent.install
    (consistent : world.IsConsistent) (id : GenerationId)
    (manifest : Manifest) :
    IsConsistent { world with
      store := (world.store.install id manifest).2
      made := world.made ++ [(world.store.install id manifest).1] } := by
  have older : ∀ generation ∈ world.made,
      generation.serial ≠ (world.store.install id manifest).1.serial :=
    fun generation member => Nat.ne_of_lt (consistent.below generation member)
  have grown : world.made ⊆
      world.made ++ [(world.store.install id manifest).1] :=
    List.subset_append_left _ _
  have tracked := List.Subset.trans consistent.tracked grown
  refine ⟨consistent.resolver, tracked, ?_, ?_, ?_, ?_⟩
  · intro left leftMember right rightMember same
    rcases List.mem_append.1 leftMember with leftOld | leftNew
    · rcases List.mem_append.1 rightMember with rightOld | rightNew
      · exact consistent.serials left leftOld right rightOld same
      · rw [List.mem_singleton.1 rightNew] at same
        exact absurd same (older left leftOld)
    · rw [List.mem_singleton.1 leftNew] at same ⊢
      rcases List.mem_append.1 rightMember with rightOld | rightNew
      · exact absurd same.symm (older right rightOld)
      · exact (List.mem_singleton.1 rightNew).symm
  · intro generation member
    rcases List.mem_append.1 member with old | new
    · exact Nat.lt_succ_of_lt (consistent.below generation old)
    · rw [List.mem_singleton.1 new]
      exact Nat.lt_succ_self world.store.nextSerial
  · intro solution member
    have proper := consistent.answers solution member
    exact ⟨fun other listed => grown (proper.members other listed),
      proper.fragments, proper.foreign⟩
  · intro serial record solution found recorded
    change (world.store.records.insert world.store.nextSerial _).find?
      serial = some record at found
    rw [Table.find?_insert] at found
    split at found
    · cases found
      cases recorded
    · exact consistent.recorded found recorded

/-- A call that only changes records, and none to a solution that has not been
answered, keeps a world consistent. -/
theorem IsConsistent.store
    (consistent : world.IsConsistent) (store : Store)
    (nextSerial : store.nextSerial = world.store.nextSerial)
    (recorded : ∀ {serial record solution},
      store.records.find? serial = some record →
        record.wiring = some solution →
          solution ∈ world.answers ∧
            ∃ member ∈ solution.members, member.serial = serial) :
    IsConsistent { world with store := store } :=
  ⟨consistent.resolver, consistent.tracked, consistent.serials,
    fun generation member =>
      nextSerial.symm ▸ consistent.below generation member,
    consistent.answers, recorded⟩

theorem IsConsistent.answered
    (consistent : world.IsConsistent) {answer : List Solution}
    (proper : ∀ solution ∈ answer, solution.IsProper (· ∈ world.made)) :
    IsConsistent { world with answers := world.answers ++ answer } := by
  refine ⟨consistent.resolver, consistent.tracked, consistent.serials,
    consistent.below, ?_, ?_⟩
  · intro solution member
    exact (List.mem_append.1 member).elim (consistent.answers solution)
      (proper solution)
  · intro serial record solution found recorded
    obtain ⟨answered, member⟩ := consistent.recorded found recorded
    exact ⟨List.mem_append_left _ answered, member⟩

theorem IsConsistent.step
    (consistent : world.IsConsistent) (step : Step world next) :
    next.IsConsistent := by
  have tracking : ∀ {resolver : Resolver}, resolver.IsConsistent →
      resolver.tracked ⊆ world.made →
        IsConsistent { world with resolver := resolver } :=
    fun valid tracked => ⟨valid, tracked, consistent.serials,
      consistent.below, consistent.answers, consistent.recorded⟩
  have known : ∀ generation ∈ world.resolver.tracked,
      generation ∈ world.made :=
    fun generation member => consistent.tracked member
  cases step with
  | install id manifest => exact consistent.install id manifest
  | start done =>
      rw [Resolver.eq_of_start done]
      exact tracking ⟨consistent.resolver.distinct,
        consistent.resolver.indexed⟩ consistent.tracked
  | stop done =>
      rw [Resolver.eq_of_stop done]
      exact tracking (Resolver.isConsistent_create _) (List.nil_subset _)
  | add member done =>
      refine tracking (consistent.resolver.add done) ?_
      obtain ⟨_, rfl⟩ := Resolver.eq_of_add done
      intro other listed
      rcases List.mem_append.1 listed with old | new
      · exact consistent.tracked old
      · exact List.mem_singleton.1 new ▸ member
  | remove member done =>
      refine tracking (consistent.resolver.remove done) ?_
      rw [Resolver.eq_of_remove done]
      exact fun other listed =>
        consistent.tracked (List.mem_filter.1 listed).1
  | @setState generation state member =>
      refine consistent.store _ (Store.nextSerial_update _ _ _) ?_
      intro serial record solution found recorded
      unfold Store.setState at found
      rw [Store.find?_update] at found
      split at found
      · obtain ⟨before, old, rfl⟩ := Option.map_eq_some_iff.1 found
        exact consistent.recorded old recorded
      · exact consistent.recorded found recorded
  | @retain alive listed =>
      refine consistent.store _ rfl ?_
      intro serial record solution found recorded
      unfold Store.retain at found
      dsimp only at found
      rw [Table.find?_filter] at found
      exact consistent.recorded (Option.filter_eq_some_iff.1 found).1 recorded
  | resolve made solved =>
      obtain ⟨draft, result, rfl⟩ := Resolver.exists_of_solutions solved
      obtain ⟨_, _, _, _, run⟩ := Resolver.exists_run_of_attempt result
      exact consistent.answered fun solution member =>
        run.isProper consistent.sound made known member
  | resolveDynamic made solved =>
      obtain ⟨draft, result, rfl⟩ := Resolver.exists_of_solutions solved
      obtain ⟨_, _, _, _, run⟩ := Resolver.exists_run_of_attemptDynamic result
      exact consistent.answered fun solution member =>
        run.isProper consistent.sound made known member
  | @apply solution answered =>
      refine consistent.store _ (Store.nextSerial_updateAll _ _ _) ?_
      intro serial record other found recorded
      rcases Store.find?_updateAll found with
        old | ⟨⟨before, rfl⟩, member, listed, same⟩
      · exact consistent.recorded old recorded
      · cases recorded
        exact ⟨answered, member, listed, same⟩
  | @unapply solution answered =>
      refine consistent.store _ (Store.nextSerial_updateAll _ _ _) ?_
      intro serial record other found recorded
      rcases Store.find?_updateAll found with
        old | ⟨⟨before, rfl⟩, _⟩
      · exact consistent.recorded old recorded
      · cases recorded

/-- Every reachable world is consistent. -/
theorem Reachable.isConsistent
    (reachable : world.Reachable) : world.IsConsistent := by
  induction reachable with
  | initial policy => exact isConsistent_initial policy
  | step _ step inductionHypothesis => exact inductionHypothesis.step step

/-- What holds of the solutions of every run, as long as it holds of the earlier
ones, holds of all that have been answered. -/
theorem Reachable.forall_answers
    {Holds : Solution → Prop} (reachable : world.Reachable)
    (answered : ∀ {world : World} {target : Generation}
      {framework : Framework} {start : Node} {final : Draft},
      world.IsConsistent → (∀ solution ∈ world.answers, Holds solution) →
        target ∈ world.made →
          world.resolver.Run world.store target framework start final →
            ∀ solution ∈ final.solutions, Holds solution) :
    ∀ solution ∈ world.answers, Holds solution := by
  induction reachable with
  | initial policy => exact fun _ member => absurd member List.not_mem_nil
  | step before step inductionHypothesis =>
      cases step with
      | resolve made solved =>
          obtain ⟨final, result, rfl⟩ := Resolver.exists_of_solutions solved
          obtain ⟨_, _, _, _, run⟩ := Resolver.exists_run_of_attempt result
          intro solution member
          exact (List.mem_append.1 member).elim (inductionHypothesis solution)
            (answered before.isConsistent inductionHypothesis made run solution)
      | resolveDynamic made solved =>
          obtain ⟨final, result, rfl⟩ := Resolver.exists_of_solutions solved
          obtain ⟨_, _, _, _, run⟩ :=
            Resolver.exists_run_of_attemptDynamic result
          intro solution member
          exact (List.mem_append.1 member).elim (inductionHypothesis solution)
            (answered before.isConsistent inductionHypothesis made run solution)
      | _ => exact inductionHypothesis

end World

end ModuleWiring
