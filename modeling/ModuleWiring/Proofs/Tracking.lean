import ModuleWiring.Proofs.Failing
import ModuleWiring.Proofs.Reachability
import ModuleWiring.Proofs.Upkeep

/-!
# Calls about tracked generations

Identities come back, so that a generation may be installed under the identity of
one that is tracked.  Whoever asks for a wiring is told the two apart.  Whoever
removes a generation is not: what is tracked under its identity goes instead.
-/

namespace ModuleWiring

/-- A call about a generation that the resolver should track. -/
inductive TargetedCall where
  | resolve (target : Generation)
  | resolveDynamic (target : Generation) (wanted : Import)
  | remove (target : Generation)

namespace TargetedCall

def target : TargetedCall → Generation
  | resolve target => target
  | resolveDynamic target _ => target
  | remove target => target

/-- Whether a call succeeds or why not, and how it leaves the resolver. -/
def inPlace (resolver : Resolver) (store : Store) :
    TargetedCall → Except ResolverError Unit × Resolver
  | resolve target =>
      ((resolver.resolve store target).map fun _ => (), resolver)
  | resolveDynamic target wanted =>
      ((resolver.resolveDynamic store target wanted).map fun _ => (),
        resolver)
  | remove target => Upkeep.inPlace resolver (.remove target)

/-- A removal is mistaken if another generation is tracked under the
identity. -/
def IsMistaken (resolver : Resolver) : TargetedCall → Prop
  | resolve _ => False
  | resolveDynamic _ _ => False
  | remove target =>
      ∃ other, resolver.find? target.id = some other ∧ other ≠ target

end TargetedCall

/-! ## Unknown generations -/

namespace Resolver

variable {resolver result : Resolver} {store : Store} {target : Generation}
  {id : GenerationId}

theorem frameworkFor_eq_unknown_iff
    (started : resolver.isStarted = true) :
    resolver.frameworkFor target = .error (.unknownGeneration id) ↔
      id = target.id ∧ resolver.tracks target = false := by
  obtain ⟨framework, isFramework⟩ := Option.isSome_iff_exists.1 started
  unfold frameworkFor Resolver.started
  rw [isFramework]
  cases resolver.tracks target with
  | true => simp [bind, Except.bind, pure, Except.pure]
  | false =>
      simp [bind, Except.bind, throw, throwThe, MonadExceptOf.throw, eq_comm]

theorem mapError_incompatible_ne_unknown
    {α : Type} (first : Except Incompatible α) :
    first.mapError ResolverError.incompatible ≠
      .error (.unknownGeneration id) := by
  cases first with
  | error conflict => simp [Except.mapError]
  | ok value => simp [Except.mapError]

/-- A first draft is refused for a generation that is not tracked, and otherwise
for other reasons. -/
theorem initialDraft_eq_unknown_iff (store : Store) :
    resolver.initialDraft store target = .error (.unknownGeneration id) ↔
      resolver.frameworkFor target = .error (.unknownGeneration id) := by
  unfold initialDraft
  rw [bind_eq_error_iff]
  refine or_iff_left ?_
  rintro ⟨framework, _, refused⟩
  dsimp only at refused
  split at refused
  · cases refused
  · rcases bind_eq_error_iff.1 refused with conflicting | ⟨_, _, done⟩
    · exact mapError_incompatible_ne_unknown _ conflicting
    · cases done

theorem dynamicDraft_eq_unknown_iff (store : Store) (wanted : Import) :
    resolver.dynamicDraft store target wanted =
        .error (.unknownGeneration id) ↔
      resolver.frameworkFor target = .error (.unknownGeneration id) := by
  unfold dynamicDraft
  rw [bind_eq_error_iff]
  refine or_iff_left ?_
  rintro ⟨framework, _, refused⟩
  dsimp only at refused
  split at refused
  · cases refused
  · split at refused
    · cases refused
    · rcases bind_eq_error_iff.1 refused with conflicting | ⟨_, _, done⟩
      · exact mapError_incompatible_ne_unknown _ conflicting
      · cases done

theorem solutions_ofOutcome_ne_unknown (outcome : Outcome Draft) :
    (Attempt.ofOutcome target outcome).solutions ≠
      .error (.unknownGeneration id) := by
  unfold Attempt.ofOutcome Attempt.solutions
  cases outcome.found with
  | none => simp [Except.map]
  | some final => simp [Except.map]

/-- Once there is a first draft, no generation is unknown to the search. -/
theorem solutions_eq_unknown_iff
    (run : Search → Draft → Outcome Draft)
    (drafted : Except ResolverError (Search × Draft)) :
    Attempt.solutions (match drafted with
      | .error error => .refused error
      | .ok (search, draft) => .ofOutcome target (run search draft)) =
        .error (.unknownGeneration id) ↔
      drafted = .error (.unknownGeneration id) := by
  cases drafted with
  | error fault => simp [Attempt.refused, Attempt.solutions, Except.map]
  | ok pair =>
      obtain ⟨search, draft⟩ := pair
      simp [solutions_ofOutcome_ne_unknown]

theorem resolve_eq_unknown_iff :
    resolver.resolve store target = .error (.unknownGeneration id) ↔
      resolver.frameworkFor target = .error (.unknownGeneration id) :=
  (solutions_eq_unknown_iff Search.run _).trans
    (initialDraft_eq_unknown_iff store)

theorem resolveDynamic_eq_unknown_iff {wanted : Import} :
    resolver.resolveDynamic store target wanted =
        .error (.unknownGeneration id) ↔
      resolver.frameworkFor target = .error (.unknownGeneration id) :=
  (solutions_eq_unknown_iff Search.runPending _).trans
    (dynamicDraft_eq_unknown_iff store wanted)

/-- A removal goes by the identity alone. -/
theorem remove_eq_unknown_iff
    (started : resolver.isStarted = true) :
    resolver.remove target = .error (.unknownGeneration id) ↔
      id = target.id ∧ resolver.find? target.id = none := by
  obtain ⟨framework, isFramework⟩ := Option.isSome_iff_exists.1 started
  unfold remove Upkeep.perform
  cases found : resolver.find? target.id with
  | some other =>
      simp [Upkeep.inPlace, Resolver.started, isFramework, found]
  | none =>
      simp [Upkeep.inPlace, Resolver.started, isFramework, found, eq_comm]

/-- After a removal nothing is tracked under the identity, and nobody else is
affected. -/
theorem find?_of_remove
    (removed : resolver.remove target = .ok result) (id : GenerationId) :
    result.find? id =
      if id = target.id then none else resolver.find? id := by
  rw [eq_of_remove removed]
  unfold find?
  rw [List.find?_filter]
  split
  · rename_i same
    simp [same]
  · rename_i different
    congr 1
    funext generation
    by_cases here : generation.id = id
    · simp [here, different]
    · simp [here]

end Resolver

/-- Only one made generation is tracked under an identity, so that to be tracked is
to be the one that is found. -/
theorem World.IsConsistent.tracks_iff
    {world : World} {target : Generation} (consistent : world.IsConsistent)
    (made : target ∈ world.made) :
    world.resolver.tracks target = true ↔
      world.resolver.find? target.id = some target := by
  constructor
  · intro tracks
    exact Resolver.find?_of_mem consistent.resolver.distinct
      (consistent.target_tracked made tracks)
  · intro found
    simp [Resolver.tracks, found]

/-! ## The extent of the agreement -/

namespace TargetedCall

variable {resolver : Resolver} {store : Store} {call : TargetedCall}

/-- A call that fails leaves the resolver as it was. -/
theorem unchanged_of_error
    {fault : ResolverError}
    (failed : (call.inPlace resolver store).1 = .error fault) :
    (call.inPlace resolver store).2 = resolver := by
  cases call with
  | resolve target => rfl
  | resolveDynamic target wanted => rfl
  | remove target => exact Upkeep.unchanged_of_error failed

theorem inPlace_remove
    (resolver : Resolver) (store : Store) (target : Generation) :
    (TargetedCall.remove target).inPlace resolver store =
      match resolver.remove target with
      | .ok next => (.ok (), next)
      | .error fault => (.error fault, resolver) :=
  Upkeep.inPlace_eq resolver (.remove target)

theorem eq_unknown_iff
    {world : World} {id : GenerationId} (consistent : world.IsConsistent)
    (started : world.resolver.isStarted = true)
    (made : call.target ∈ world.made) :
    (call.inPlace world.resolver world.store).1 =
        .error (.unknownGeneration id) ↔
      id = call.target.id ∧
        world.resolver.find? call.target.id ≠ some call.target ∧
          ¬ call.IsMistaken world.resolver := by
  have untracked : world.resolver.tracks call.target = false ↔
      world.resolver.find? call.target.id ≠ some call.target := by
    rw [← Bool.not_eq_true, consistent.tracks_iff made]
  cases call with
  | resolve target =>
      refine map_eq_error_iff.trans ?_
      rw [Resolver.resolve_eq_unknown_iff,
        Resolver.frameworkFor_eq_unknown_iff started]
      exact and_congr_right fun _ =>
        untracked.trans (and_iff_left not_false).symm
  | resolveDynamic target wanted =>
      refine map_eq_error_iff.trans ?_
      rw [Resolver.resolveDynamic_eq_unknown_iff,
        Resolver.frameworkFor_eq_unknown_iff started]
      exact and_congr_right fun _ =>
        untracked.trans (and_iff_left not_false).symm
  | remove target =>
      have refused : ((TargetedCall.remove target).inPlace world.resolver
            world.store).1 = .error (.unknownGeneration id) ↔
          world.resolver.remove target = .error (.unknownGeneration id) := by
        rw [inPlace_remove]
        cases world.resolver.remove target <;> simp
      rw [refused, Resolver.remove_eq_unknown_iff started]
      refine and_congr_right fun _ => ?_
      change world.resolver.find? target.id = none ↔
        world.resolver.find? target.id ≠ some target ∧
          ¬ ∃ other, world.resolver.find? target.id = some other ∧
            other ≠ target
      cases world.resolver.find? target.id with
      | none => simp
      | some other => simp

/-- A mistaken removal is carried out. -/
theorem IsMistaken.removes
    (mistaken : call.IsMistaken resolver)
    (started : resolver.isStarted = true) :
    (call.inPlace resolver store).1 = .ok () ∧
      (∀ id, (call.inPlace resolver store).2.find? id =
        if id = call.target.id then none else resolver.find? id) ∧
      ∀ package, call.target.id ∉
        (call.inPlace resolver store).2.index.exporters package := by
  cases call with
  | resolve target => exact mistaken.elim
  | resolveDynamic target wanted => exact mistaken.elim
  | remove target =>
      obtain ⟨other, found, _⟩ := mistaken
      have removed := Resolver.remove_eq_ok started
        (Option.isSome_iff_exists.2 ⟨other, found⟩)
      rw [inPlace_remove, removed]
      refine ⟨rfl, Resolver.find?_of_remove removed, fun package listed => ?_⟩
      rw [Resolver.eq_of_remove removed] at listed
      exact (PackageIndex.mem_exporters_remove.1 listed).2 rfl

end TargetedCall

/-- A call about a generation that is not tracked itself is refused, unless it is a
mistaken removal; no other call is refused for that reason, and a call that fails
changes nothing.  A mistaken removal succeeds: what is tracked under the identity
goes, and what it exports goes with it. -/
theorem World.Reachable.unknown_unless_mistaken
    {world : World} {call : TargetedCall} (reachable : world.Reachable)
    (started : world.resolver.isStarted = true)
    (made : call.target ∈ world.made) :
    (∀ id, (call.inPlace world.resolver world.store).1 =
        .error (.unknownGeneration id) ↔
      id = call.target.id ∧
        world.resolver.find? call.target.id ≠ some call.target ∧
          ¬ call.IsMistaken world.resolver) ∧
    (∀ fault, (call.inPlace world.resolver world.store).1 = .error fault →
      (call.inPlace world.resolver world.store).2 = world.resolver) ∧
    (call.IsMistaken world.resolver →
      (call.inPlace world.resolver world.store).1 = .ok () ∧
      (∀ id, (call.inPlace world.resolver world.store).2.find? id =
        if id = call.target.id then none else world.resolver.find? id) ∧
      ∀ package, call.target.id ∉
        (call.inPlace world.resolver world.store).2.index.exporters
          package) :=
  ⟨fun _ => TargetedCall.eq_unknown_iff reachable.isConsistent started made,
    fun _ => TargetedCall.unchanged_of_error,
    fun mistaken => mistaken.removes started⟩

namespace Sample

/-- The world in which a module has been installed under the identity of an
exporter, which is still tracked. -/
def namesakes : World :=
  let world := world [source]
  { world with
    store := (world.store.install (id 0) consumer).2
    made := world.made ++ [(world.store.install (id 0) consumer).1] }

theorem reachable_namesakes : namesakes.Reachable :=
  (reachable_world [source]).step (.install _ (id 0) consumer)

/-- The second of the two. -/
def namesake : Generation :=
  ⟨1, id 0, consumer⟩

end Sample

/-- Nobody resolves the second generation, but its removal removes the first. -/
theorem World.namesakes_removed :
    (TargetedCall.inPlace Sample.namesakes.resolver Sample.namesakes.store
      (.resolve Sample.namesake)).1 =
        .error (.unknownGeneration (Sample.id 0)) ∧
    Sample.namesakes.resolver.find? (Sample.id 0) =
      some (Sample.generation 0 Sample.source) ∧
    (TargetedCall.inPlace Sample.namesakes.resolver Sample.namesakes.store
      (.remove Sample.namesake)).1 = .ok () ∧
    (TargetedCall.inPlace Sample.namesakes.resolver Sample.namesakes.store
      (.remove Sample.namesake)).2.find? (Sample.id 0) = none := by
  have started : Sample.namesakes.resolver.isStarted = true := by
    decide +kernel
  have made : Sample.namesake ∈ Sample.namesakes.made := by decide +kernel
  have tracked : Sample.namesakes.resolver.find? (Sample.id 0) =
      some (Sample.generation 0 Sample.source) := by
    decide +kernel
  have different : Sample.generation 0 Sample.source ≠ Sample.namesake := by
    decide +kernel
  obtain ⟨refused, -, -⟩ := @World.Reachable.unknown_unless_mistaken _
    (.resolve Sample.namesake) Sample.reachable_namesakes started made
  obtain ⟨-, -, removes⟩ := @World.Reachable.unknown_unless_mistaken _
    (.remove Sample.namesake) Sample.reachable_namesakes started made
  obtain ⟨done, gone, -⟩ := removes ⟨_, tracked, different⟩
  refine ⟨(refused _).2 ⟨rfl, ?_, id⟩, tracked, done, ?_⟩
  · intro same
    exact different (Option.some.inj (tracked.symm.trans same))
  · exact (gone _).trans (if_pos rfl)

end ModuleWiring
