import ModuleWiring.Proofs.Reordering
import ModuleWiring.Proofs.RevisedDrafts

/-!
# Drafts in another order

The search for a bundle and the search for the reordered one start with drafts
that differ in nothing but the order of imports.
-/

namespace ModuleWiring

namespace Reordering

variable (reordering : Reordering)

/-- The same candidate with its imports in another order, as long as nothing has
been decided about it. -/
inductive Relates : Candidate → Candidate → Prop where
  | unresolved (installed : Generation) :
      Relates (.unresolved installed) (.unresolved (reordering installed))
  | resolved (wired : ResolvedModule) :
      Relates (.resolved wired)
        (.resolved (reordering.resolved wired))
  | fresh (installed : Generation) :
      Relates (.bound (.of installed)) (.bound (.of (reordering installed)))

theorem Relates.generation
    {reordering : Reordering} {candidate other : Candidate}
    (relates : reordering.Relates candidate other) :
    other.generation = reordering candidate.generation := by
  cases relates <;> rfl

theorem carries : reordering.Carries reordering.Relates where
  generation := Relates.generation
  given := by
    intro before generation
    unfold Candidate.given
    rw [reordering.state_store, reordering.resolvedModule_of_store]
    split
    · exact .resolved (.of before generation)
    · exact .unresolved generation

end Reordering

namespace Draft

variable {reordering : Reordering} {draft other result : Draft}
  {store : Store} {generations : List Generation}

/-! ## Registered names -/

/-- Every candidate that is a singleton has its name. -/
def IsRegistered (draft : Draft) : Prop :=
  ∀ ⦃id candidate⦄, draft.candidate? id = some candidate →
    candidate.generation.isSingleton = true →
      draft.singletons.find? candidate.generation.symbolicName = some id

/-- A candidate whose name is registered again keeps all names as they are. -/
theorem IsRegistered.put
    {named : Draft} {candidate : Candidate} (registered : draft.IsRegistered)
    (done : draft.registerSingleton candidate.generation = .ok named) :
    (named.put candidate).IsRegistered := by
  obtain ⟨names, free⟩ := find?_of_registerSingleton done
  have candidates : named.candidates = draft.candidates := by
    rw [registerSingleton_eq done]
  intro id other found isSingleton
  change named.singletons.find? _ = _
  rw [names]
  rw [candidate?_put] at found
  split at found
  · rename_i here
    cases found
    rw [if_pos ⟨isSingleton, rfl⟩]
    exact congrArg some here
  · unfold candidate? at found
    rw [candidates] at found
    have before := registered found isSingleton
    split
    · rename_i shared
      rw [← shared.2] at before
      exact congrArg some (free shared.1 _ before).symm
    · exact before

/-- The name of a candidate can be registered again. -/
theorem IsRegistered.exists_registerSingleton
    {candidate : Candidate} {id : GenerationId}
    (registered : draft.IsRegistered)
    (found : draft.candidate? id = some candidate) :
    ∃ named, draft.registerSingleton candidate.generation = .ok named := by
  have sameId : candidate.generation.id = id := id_of_candidate? found
  unfold registerSingleton
  dsimp only
  split
  · rename_i isSingleton
    rw [registered found isSingleton]
    simp [sameId]
  · exact ⟨draft, rfl⟩

theorem isRegistered_of_pool
    (pooled : pool store generations = .ok draft) : draft.IsRegistered := by
  refine pool_induction IsRegistered (fun _ _ found => by cases found) ?_
    pooled
  intro before result generation _ registered added
  rw [addCandidate_eq] at added
  split at added
  · cases added
    exact registered
  · cases done : before.registerSingleton generation with
    | error conflict =>
        rw [done] at added
        cases added
    | ok named =>
        rw [done] at added
        cases added
        have given := Candidate.generation_given named.store generation
        exact registered.put (given.symm ▸ done)

theorem isRegistered_of_initial
    {target : Generation}
    (begun : initial store generations target = .ok draft) :
    draft.IsRegistered := by
  unfold initial at begun
  cases pooled : pool store generations with
  | error conflict =>
      rw [pooled] at begun
      cases begun
  | ok middle =>
      rw [pooled] at begun
      cases done : middle.registerSingleton target with
      | error conflict => simp [done, bind, Except.bind] at begun
      | ok named =>
          have registered := isRegistered_of_pool pooled
          simp only [done, bind, Except.bind, pure, Except.pure] at begun
          split at begun
          · cases begun
            have put : (named.put (.unresolved target)).IsRegistered :=
              registered.put done
            exact put
          · cases begun
            have put : (named.put (.bound (.of target))).IsRegistered :=
              registered.put done
            exact put

/-- The search for a target starts with a draft that differs in nothing but the
order of imports. -/
theorem exists_initial_map
    {target : Generation} (reordering : Reordering)
    (done : initial store generations target = .ok draft) :
    ∃ other, initial (reordering.store store) (generations.map reordering)
        (reordering target) = .ok other ∧
      draft.Matches reordering.toRevision reordering.Relates other :=
  (matches_initial reordering.carries .fresh .unresolved store generations
    target).exists_right done

end Draft

end ModuleWiring
