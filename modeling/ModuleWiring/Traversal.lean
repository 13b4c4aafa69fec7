/-!
# Depth-first traversal

A network is a graph of which only finitely many nodes can be told apart.
`Network.walk` visits what is within reach, node by node in depth-first order,
and no key twice.
-/

namespace ModuleWiring

/-- A graph whose nodes are told apart by keys. The nodes of interest, those
`Within`, are closed under successors; `keys` bounds their keys and `degree`
the number of successors of each. -/
structure Network (α κ : Type) where
  key : α → κ
  next : α → List α
  Within : α → Prop
  within_next : ∀ {node successor},
    Within node → successor ∈ next node → Within successor
  keys : Unit → List κ
  key_mem : ∀ {node}, Within node → key node ∈ keys ()
  degree : Unit → Nat
  length_next : ∀ {node}, Within node → (next node).length ≤ degree ()

namespace Network

theorem length_filter_lt {α : Type} {items : List α} {p q : α → Bool} {item : α}
    (weaker : ∀ other, p other → q other)
    (member : item ∈ items) (dropped : p item = false) (kept : q item) :
    (items.filter p).length < (items.filter q).length := by
  induction items with
  | nil => cases member
  | cons first rest ih =>
      have notLonger : (rest.filter p).length ≤ (rest.filter q).length := by
        rw [← List.countP_eq_length_filter, ← List.countP_eq_length_filter]
        exact List.countP_mono_left fun other _ => weaker other
      rcases List.mem_cons.1 member with rfl | later
      · simp only [List.filter_cons, dropped, kept]
        simp only [Bool.false_eq_true, if_false, if_true, List.length_cons]
        omega
      · have shorter := ih later
        have firstWeaker := weaker first
        simp only [List.filter_cons]
        split
        · rename_i here
          simp only [firstWeaker here, if_true, List.length_cons]
          omega
        · split
          · simp only [List.length_cons]
            omega
          · exact shorter

variable {α κ : Type} [DecidableEq κ]

/-- The number of keys that have not been seen. -/
def unseen (network : Network α κ) (seen : List κ) : Nat :=
  ((network.keys ()).filter fun key => key ∉ seen).length

theorem unseen_cons_lt {network : Network α κ} {seen : List κ} {node : α}
    (inside : network.Within node) (new : network.key node ∉ seen) :
    network.unseen (network.key node :: seen) < network.unseen seen := by
  apply length_filter_lt _ (network.key_mem inside)
  · simp
  · simpa using new
  · intro other
    simp only [List.mem_cons, decide_eq_true_eq]
    exact fun unlisted listed => unlisted (.inr listed)

/-- Visit the nodes on a stack and all that can be reached from them, passing
over keys that have been seen. The successors of a node come before the rest of
the stack. -/
def walk (network : Network α κ) (seen : List κ) (stack : List α)
    (inside : ∀ node ∈ stack, network.Within node) : List α :=
  match stack with
  | [] => []
  | node :: rest =>
      if network.key node ∈ seen then
        network.walk seen rest fun other member =>
          inside other (List.mem_cons_of_mem _ member)
      else
        node :: network.walk (network.key node :: seen)
          (network.next node ++ rest) fun other member =>
            (List.mem_append.1 member).elim
              (network.within_next (inside node List.mem_cons_self))
              (fun later => inside other (List.mem_cons_of_mem _ later))
termination_by (network.degree () + 1) * network.unseen seen + stack.length
decreasing_by
  · simp
  · rename_i new
    have nodeInside := inside node List.mem_cons_self
    have fewer := unseen_cons_lt nodeInside new
    have few := network.length_next nodeInside
    have product := Nat.mul_le_mul_left (network.degree () + 1)
      (Nat.succ_le_of_lt fewer)
    rw [Nat.mul_succ] at product
    simp only [List.length_append, List.length_cons]
    omega

end Network

end ModuleWiring
