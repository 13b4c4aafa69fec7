import ModuleWiring.Proofs.FirstGoal

/-!
# Searches with fewer moves

A search is compared with one that lacks some of its moves.  What the smaller
search can find, the larger one can find too; and if the larger one finds a goal
that owes nothing to the moves that the other lacks, then the smaller one finds
the same goal.
-/

namespace ModuleWiring.Problem

variable {σ τ μ γ δ : Type}

/-- Related positions offer the same moves in the same order, up to those that
are not kept, and the moves lead to related positions. -/
structure Prunes (full : Problem σ μ γ) (pruned : Problem τ μ δ)
    (keep : μ → Bool) (Related : σ → τ → Prop) (Alike : γ → δ → Prop) :
    Prop where
  goals : ∀ {position other}, Related position other →
    Option.Rel Alike (full.goal? position) (pruned.goal? other)
  moves : ∀ {position other}, Related position other →
    (pruned.moves other).toList =
      (full.moves position).toList.filter keep
  plays : ∀ {position other move}, Related position other →
    move ∈ (full.moves position).toList → keep move = true →
      Option.Rel Related (full.play? position move)
        (pruned.play? other move)

namespace Prunes

variable {full : Problem σ μ γ} {pruned : Problem τ μ δ} {keep : μ → Bool}
  {Related : σ → τ → Prop} {Alike : γ → δ → Prop}

theorem exists_step
    (prunes : full.Prunes pruned keep Related Alike)
    {position : σ} {other result : τ} (related : Related position other)
    (step : pruned.Step other result) :
    ∃ reached, full.Step position reached ∧ Related reached result := by
  obtain ⟨move, member, played⟩ := step
  rw [prunes.moves related] at member
  obtain ⟨offered, kept⟩ := List.mem_filter.1 member
  have alike := prunes.plays related offered kept
  rw [played] at alike
  cases fullPlayed : full.play? position move with
  | none =>
      rw [fullPlayed] at alike
      cases alike
  | some reached =>
      rw [fullPlayed] at alike
      cases alike with
      | some reachedRelated =>
          exact ⟨reached, ⟨move, offered, fullPlayed⟩, reachedRelated⟩

theorem exists_line
    (prunes : full.Prunes pruned keep Related Alike)
    {position : σ} {other final : τ} (related : Related position other)
    (line : pruned.Line other final) :
    ∃ reached, full.Line position reached ∧ Related reached final := by
  induction line with
  | refl => exact ⟨position, .refl, related⟩
  | tail _ step inductionHypothesis =>
      obtain ⟨middle, before, middleRelated⟩ := inductionHypothesis
      obtain ⟨reached, after, reachedRelated⟩ :=
        prunes.exists_step middleRelated step
      exact ⟨reached, before.tail after, reachedRelated⟩

/-- What can be found with fewer moves can be found with more. -/
theorem isSome_found
    (prunes : full.Prunes pruned keep Related Alike)
    {position : σ} {other : τ} (related : Related position other)
    (found : (pruned.explore other).found.isSome = true) :
    (full.explore position).found.isSome = true := by
  obtain ⟨goal, found⟩ := Option.isSome_iff_exists.1 found
  obtain ⟨final, line, reached⟩ := exists_line_of_found found
  obtain ⟨last, fullLine, lastRelated⟩ := prunes.exists_line related line
  have alike := prunes.goals lastRelated
  rw [reached] at alike
  cases fullReached : full.goal? last with
  | none =>
      rw [fullReached] at alike
      cases alike
  | some goal => exact isSome_found_of_line fullLine fullReached

/-- The smaller search passes over the moves that it lacks, if they lead to no
goal that counts. -/
theorem exists_findSome
    (prunes : full.Prunes pruned keep Related Alike) {Counts : γ → Prop}
    {position : σ} {other : τ} (related : Related position other)
    (spoiled : ∀ {move result goal},
      move ∈ (full.moves position).toList → keep move = false →
        full.play? position move = some result →
          (full.explore result).found = some goal → ¬ Counts goal)
    (continued : ∀ {move result reached goal},
      move ∈ (full.moves position).toList →
        full.play? position move = some result → Related result reached →
          (full.explore result).found = some goal → Counts goal →
            ∃ answer, (pruned.explore reached).found = some answer ∧
              Alike goal answer)
    {moves : List μ} (offered : moves ⊆ (full.moves position).toList)
    {goal : γ}
    (found : (moves.filterMap (full.play? position)).findSome?
      (fun result => (full.explore result).found) = some goal)
    (counts : Counts goal) :
    ∃ answer, ((moves.filter keep).filterMap
        (pruned.play? other)).findSome?
          (fun result => (pruned.explore result).found) = some answer ∧
      Alike goal answer := by
  induction moves with
  | nil => cases found
  | cons move rest inductionHypothesis =>
      have here := offered List.mem_cons_self
      have later := fun found => inductionHypothesis
        (fun _ member => offered (List.mem_cons_of_mem _ member)) found
      cases played : full.play? position move with
      | none =>
          rw [List.filterMap_cons_none played] at found
          cases kept : keep move with
          | false =>
              rw [List.filter_cons_of_neg (by simp [kept])]
              exact later found
          | true =>
              have alike := prunes.plays related here kept
              rw [played] at alike
              cases otherPlayed : pruned.play? other move with
              | none =>
                  rw [List.filter_cons_of_pos kept,
                    List.filterMap_cons_none otherPlayed]
                  exact later found
              | some reached =>
                  rw [otherPlayed] at alike
                  cases alike
      | some result =>
          rw [List.filterMap_cons_some played, List.findSome?_cons] at found
          cases kept : keep move with
          | false =>
              rw [List.filter_cons_of_neg (by simp [kept])]
              split at found
              · rename_i early
                cases found
                exact absurd counts (spoiled here kept played early)
              · exact later found
          | true =>
              have alike := prunes.plays related here kept
              rw [played] at alike
              cases otherPlayed : pruned.play? other move with
              | none =>
                  rw [otherPlayed] at alike
                  cases alike
              | some reached =>
                  rw [otherPlayed] at alike
                  cases alike with
                  | some reachedRelated =>
                  rw [List.filter_cons_of_pos kept,
                    List.filterMap_cons_some otherPlayed,
                    List.findSome?_cons]
                  split at found
                  · rename_i early
                    cases found
                    obtain ⟨answer, first, same⟩ := continued here played
                      reachedRelated early counts
                    rw [first]
                    exact ⟨answer, rfl, same⟩
                  · rename_i missing
                    have none : (pruned.explore reached).found = none := by
                      rw [← Option.not_isSome_iff_eq_none]
                      intro some
                      have fullSome := prunes.isSome_found reachedRelated some
                      rw [missing] at fullSome
                      cases fullSome
                    rw [none]
                    exact later found

/-- A goal that counts, and that the larger search finds, is found by the smaller
one, if the moves that it lacks lead to no goal that counts. -/
theorem exists_found
    (prunes : full.Prunes pruned keep Related Alike) (Counts : γ → Prop)
    (spoiled : ∀ {position other move result goal},
      Related position other → move ∈ (full.moves position).toList →
        keep move = false → full.play? position move = some result →
          (full.explore result).found = some goal → ¬ Counts goal)
    {position : σ} {other : τ} {goal : γ} (related : Related position other)
    (found : (full.explore position).found = some goal)
    (counts : Counts goal) :
    ∃ answer, (pruned.explore other).found = some answer ∧
      Alike goal answer := by
  induction rank : full.rank position using Nat.strongRecOn
    generalizing position other goal with
  | ind bound inductionHypothesis =>
      subst rank
      have goals := prunes.goals related
      cases reached : full.goal? position with
      | some final =>
          rw [found_explore_of_goal reached] at found
          cases found
          rw [reached] at goals
          cases otherReached : pruned.goal? other with
          | none =>
              rw [otherReached] at goals
              cases goals
          | some answer =>
              rw [otherReached] at goals
              cases goals with
              | some alike =>
              exact ⟨answer, found_explore_of_goal otherReached, alike⟩
      | none =>
          rw [reached] at goals
          cases otherReached : pruned.goal? other with
          | some answer =>
              rw [otherReached] at goals
              cases goals
          | none =>
              rw [found_explore reached] at found
              rw [found_explore otherReached, nexts, prunes.moves related]
              refine prunes.exists_findSome related (spoiled related) ?_
                (List.Subset.refl _) found counts
              intro move result next other member played nextRelated early
                counts
              exact inductionHypothesis _
                (full.rank_lt member played) nextRelated early counts rfl

end Prunes

end ModuleWiring.Problem
