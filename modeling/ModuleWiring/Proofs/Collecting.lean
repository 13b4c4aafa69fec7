import ModuleWiring.Proofs.Traversal

/-!
# A walk as a recursion

A traversal can be told as a recursion that visits one node after the other,
each with all that follows from it before the next, and hands on what it has
seen.  On every network this recursion comes to an end, whatever cycles there
are, and it meets the nodes of the walk in their order.
-/

namespace ModuleWiring.Network

variable {α κ : Type} [DecidableEq κ] {network : Network α κ}

/-- What a recursion over nodes has seen in the end, and which nodes it has
visited.  It enters each node that is new and passes over the others. -/
inductive Collects (network : Network α κ) :
    List κ → List α → List κ → List α → Prop where
  | done {seen : List κ} : Collects network seen [] seen []
  | pass {seen later : List κ} {node : α} {rest nodes : List α} :
      network.key node ∈ seen →
      Collects network seen rest later nodes →
      Collects network seen (node :: rest) later nodes
  | enter {seen middle later : List κ} {node : α}
      {rest below nodes : List α} :
      network.key node ∉ seen →
      Collects network (network.key node :: seen) (network.next node) middle
        below →
      Collects network middle rest later nodes →
      Collects network seen (node :: rest) later (node :: (below ++ nodes))

theorem unseen_le
    (network : Network α κ) {seen later : List κ} (more : seen ⊆ later) :
    network.unseen later ≤ network.unseen seen := by
  unfold unseen
  rw [← List.countP_eq_length_filter, ← List.countP_eq_length_filter]
  refine List.countP_mono_left fun key _ unlisted => ?_
  simp only [decide_eq_true_eq] at unlisted ⊢
  exact fun listed => unlisted (more listed)

theorem walk_of_mem
    {seen : List κ} {node : α} {rest : List α}
    {inside : ∀ other ∈ node :: rest, network.Within other}
    (known : network.key node ∈ seen) :
    network.walk seen (node :: rest) inside =
      network.walk seen rest fun other member =>
        inside other (List.mem_cons_of_mem _ member) := by
  rw [walk, if_pos known]

theorem walk_of_not_mem
    {seen : List κ} {node : α} {rest : List α}
    {inside : ∀ other ∈ node :: rest, network.Within other}
    (new : network.key node ∉ seen) :
    network.walk seen (node :: rest) inside =
      node :: network.walk (network.key node :: seen)
        (network.next node ++ rest) fun other member =>
          (List.mem_append.1 member).elim
            (network.within_next (inside node List.mem_cons_self))
            (fun later => inside other (List.mem_cons_of_mem _ later)) := by
  rw [walk, if_neg new]

/-- The recursion ends and visits the nodes of the walk.  What the walk does
after that, it does with what the recursion has seen. -/
theorem exists_collects (seen : List κ) (stack : List α)
    (inside : ∀ node ∈ stack, network.Within node) :
    ∃ later, seen ⊆ later ∧
      network.Collects seen stack later (network.walk seen stack inside) ∧
      ∀ rest insideRest insideAll,
        network.walk seen (stack ++ rest) insideAll =
          network.walk seen stack inside ++
            network.walk later rest insideRest := by
  induction bound : (network.degree () + 1) * network.unseen seen +
      stack.length using Nat.strongRecOn generalizing seen stack with
  | ind bound inductionHypothesis =>
      subst bound
      cases stack with
      | nil =>
          refine ⟨seen, List.Subset.refl _, ?_, ?_⟩
          · rw [walk]
            exact .done
          · intro rest insideRest insideAll
            rw [walk]
            rfl
      | cons node rest =>
          have insideTail : ∀ other ∈ rest, network.Within other :=
            fun other member => inside other (List.mem_cons_of_mem _ member)
          by_cases known : network.key node ∈ seen
          · obtain ⟨later, more, collects, goesOn⟩ :=
              inductionHypothesis _ (by simp) seen rest insideTail rfl
            refine ⟨later, more, ?_, ?_⟩
            · rw [walk_of_mem known]
              exact .pass known collects
            · intro others insideRest insideAll
              rw [walk_of_mem known]
              change network.walk seen (node :: (rest ++ others)) _ = _
              rw [walk_of_mem known]
              exact goesOn others insideRest _
          · have here := inside node List.mem_cons_self
            have insideNext : ∀ other ∈ network.next node,
                network.Within other :=
              fun other member => network.within_next here member
            have fewer := unseen_cons_lt here known
            have few := network.length_next here
            have product := Nat.mul_le_mul_left (network.degree () + 1)
              (Nat.succ_le_of_lt fewer)
            rw [Nat.mul_succ] at product
            obtain ⟨middle, more, below, goesOnBelow⟩ :=
              inductionHypothesis _ (by simp only [List.length_cons]; omega)
                (network.key node :: seen) (network.next node) insideNext rfl
            have notMore := Nat.mul_le_mul_left (network.degree () + 1)
              (network.unseen_le more)
            obtain ⟨later, evenMore, after, goesOn⟩ :=
              inductionHypothesis _ (by simp only [List.length_cons]; omega)
                middle rest insideTail rfl
            refine ⟨later, List.Subset.trans (List.subset_cons_self _ _)
              (List.Subset.trans more evenMore), ?_, ?_⟩
            · rw [walk_of_not_mem known, goesOnBelow rest insideTail]
              exact .enter known below after
            · intro others insideRest insideAll
              have insideBoth : ∀ other ∈ rest ++ others,
                  network.Within other :=
                fun other member => insideAll other
                  (List.mem_cons_of_mem _ member)
              rw [walk_of_not_mem known]
              change network.walk seen (node :: (rest ++ others)) _ = _
              rw [walk_of_not_mem known, goesOnBelow rest insideTail,
                goesOnBelow (rest ++ others) insideBoth,
                goesOn others insideRest insideBoth]
              simp

/-- The nodes of a walk are those that the recursion visits. -/
theorem collects_walk
    (network : Network α κ) (seen : List κ) (stack : List α)
    (inside : ∀ node ∈ stack, network.Within node) :
    ∃ later,
      network.Collects seen stack later (network.walk seen stack inside) := by
  obtain ⟨later, _, collects, _⟩ := exists_collects seen stack inside
  exact ⟨later, collects⟩

end ModuleWiring.Network
