import ModuleWiring.Traversal

/-!
# What a traversal visits

A walk visits what can be reached from its stack, and misses only what it was
told has been seen.
-/

namespace ModuleWiring.Network

variable {α κ : Type} [DecidableEq κ] {network : Network α κ}
  {seen : List κ} {stack : List α}
  {inside : ∀ node ∈ stack, network.Within node}

/-- What holds of the stack and passes on to successors holds of every node that
a walk visits, and none of them had been seen. -/
theorem forall_mem_walk
    (Holds : α → Prop) (start : ∀ node ∈ stack, Holds node)
    (onward : ∀ node ∈ network.walk seen stack inside, Holds node →
      network.key node ∉ seen →
        ∀ successor ∈ network.next node, Holds successor) :
    ∀ node ∈ network.walk seen stack inside,
      Holds node ∧ network.key node ∉ seen := by
  fun_induction network.walk seen stack inside with
  | case1 => simp
  | case2 seen node rest inside known _ inductionHypothesis =>
      refine inductionHypothesis ?_ onward
      intro other member
      exact start other (List.mem_cons_of_mem _ member)
  | case3 seen node rest inside new _ inductionHypothesis =>
      have here := start node List.mem_cons_self
      intro visited member
      rcases List.mem_cons.1 member with rfl | later
      · exact ⟨here, new⟩
      · have reached := inductionHypothesis
          (by
            intro other listed
            rcases List.mem_append.1 listed with successor | waiting
            · exact onward node List.mem_cons_self here new other successor
            · exact start other (List.mem_cons_of_mem _ waiting))
          (fun other listed holds unseen =>
            onward other (List.mem_cons_of_mem _ listed) holds fun known =>
              unseen (List.mem_cons_of_mem _ known))
          visited later
        exact ⟨reached.1, fun known =>
          reached.2 (List.mem_cons_of_mem _ known)⟩

/-- A key that has not been seen is visited, if a node on the stack or a visited
one leads to it. -/
theorem key_mem_walk
    (network : Network α κ) {seen : List κ} {stack : List α}
    {inside : ∀ node ∈ stack, network.Within node} :
    (∀ node ∈ stack, network.key node ∈ seen ∨
      network.key node ∈
        (network.walk seen stack inside).map network.key) ∧
    ∀ node ∈ network.walk seen stack inside,
      ∀ successor ∈ network.next node, network.key successor ∈ seen ∨
        network.key successor ∈
          (network.walk seen stack inside).map network.key := by
  fun_induction network.walk seen stack inside with
  | case1 => simp
  | case2 seen node rest inside known _ inductionHypothesis =>
      obtain ⟨waiting, closed⟩ := inductionHypothesis
      refine ⟨?_, closed⟩
      intro other member
      rcases List.mem_cons.1 member with rfl | later
      · exact .inl known
      · exact waiting other later
  | case3 seen node rest inside new _ inductionHypothesis =>
      obtain ⟨waiting, closed⟩ := inductionHypothesis
      have widen : ∀ {key : κ} {visited : List α},
          key ∈ network.key node :: seen ∨ key ∈ visited.map network.key →
            key ∈ seen ∨ key ∈ (node :: visited).map network.key := by
        intro key visited known
        rcases known with known | later
        · rcases List.mem_cons.1 known with rfl | old
          · exact .inr List.mem_cons_self
          · exact .inl old
        · exact .inr (List.mem_cons_of_mem _ later)
      constructor
      · intro other member
        rcases List.mem_cons.1 member with rfl | later
        · exact .inr List.mem_cons_self
        · exact widen (waiting other (List.mem_append_right _ later))
      · intro visited member successor onward
        rcases List.mem_cons.1 member with rfl | later
        · exact widen (waiting successor (List.mem_append_left _ onward))
        · exact widen (closed visited later successor onward)

/-- Networks are walked alike if each node that is visited has the same successors
in both. -/
theorem walk_congr
    {other : Network α κ} {otherInside : ∀ node ∈ stack, other.Within node}
    (key : network.key = other.key)
    (next : ∀ node ∈ network.walk seen stack inside,
      network.next node = other.next node) :
    network.walk seen stack inside = other.walk seen stack otherInside := by
  fun_induction network.walk seen stack inside with
  | case1 => rw [walk]
  | case2 seen node rest inside known _ inductionHypothesis =>
      rw [key] at known
      rw [walk, if_pos known]
      exact inductionHypothesis next
  | case3 seen node rest inside new _ inductionHypothesis =>
      rw [key] at new
      rw [walk, if_neg new]
      have here := next node List.mem_cons_self
      have insideOther : ∀ later ∈ network.next node ++ rest,
          other.Within later := by
        rw [here]
        intro later member
        rcases List.mem_append.1 member with below | after
        · exact other.within_next (otherInside node List.mem_cons_self) below
        · exact otherInside later (List.mem_cons_of_mem _ after)
      have continued := @inductionHypothesis insideOther
        fun later member => next later (List.mem_cons_of_mem _ member)
      simp only [← key, ← here]
      rw [continued]

/-- A network that is mapped onto another one is walked along with it. -/
theorem walk_map
    {β : Type} {other : Network β κ} {change : α → β} {otherStack : List β}
    {otherInside : ∀ node ∈ otherStack, other.Within node}
    (key : ∀ node, other.key (change node) = network.key node)
    (next : ∀ node, other.next (change node) =
      (network.next node).map change)
    (mapped : stack.map change = otherStack) :
    other.walk seen otherStack otherInside =
      (network.walk seen stack inside).map change := by
  fun_induction network.walk seen stack inside generalizing otherStack with
  | case1 =>
      obtain rfl : otherStack = [] := mapped.symm
      rw [walk, List.map_nil]
  | case2 seen node rest inside known _ inductionHypothesis =>
      obtain rfl : otherStack = change node :: rest.map change := mapped.symm
      rw [← key] at known
      rw [walk, if_pos known]
      exact inductionHypothesis rfl
  | case3 seen node rest inside new _ inductionHypothesis =>
      obtain rfl : otherStack = change node :: rest.map change := mapped.symm
      rw [← key] at new
      rw [walk, if_neg new, List.map_cons]
      have onward : (network.next node ++ rest).map change =
          other.next (change node) ++ rest.map change := by
        rw [next, List.map_append]
      simp only [key]
      rw [inductionHypothesis onward]

end ModuleWiring.Network
