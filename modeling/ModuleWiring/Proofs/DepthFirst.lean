import Mathlib.Data.List.Basic
import ModuleWiring.Proofs.Collecting

/-!
# The order in which a recursion meets nodes

A way through a network takes one successor after the other and comes through no
key twice.  The positions of the successors it takes put the ways in order, a way
before those that it is the beginning of.  Where keys tell what nodes stand for,
what a recursion that passes over known keys meets first of what it looks for is
at the end of the first way to it.
-/

namespace ModuleWiring.Network

variable {α κ : Type} {network : Network α κ}

/-- A way from one of some nodes, given by the position of each node among those
that can be taken.  No key occurs on it twice, and none that it has to avoid. -/
inductive Leads (network : Network α κ) :
    List κ → List α → List Nat → α → Prop where
  | stop {avoided : List κ} {nodes : List α} {position : Nat} {node : α} :
      nodes[position]? = some node → network.key node ∉ avoided →
        Leads network avoided nodes [position] node
  | onward {avoided : List κ} {nodes : List α} {position : Nat}
      {node target : α} {way : List Nat} :
      nodes[position]? = some node → network.key node ∉ avoided →
        Leads network (network.key node :: avoided) (network.next node) way
          target →
          Leads network avoided nodes (position :: way) target

/-- Known nodes with one key have the same successors, which are known, and the
same property. -/
structure IsCoherent (network : Network α κ) (Known : α → Prop)
    (wanted : α → Bool) : Prop where
  onward : ∀ {node successor}, Known node → successor ∈ network.next node →
    Known successor
  next : ∀ {left right}, Known left → Known right →
    network.key left = network.key right →
      network.next left = network.next right
  wanted : ∀ {left right}, Known left → Known right →
    network.key left = network.key right → wanted left = wanted right

namespace Leads

variable {avoided more : List κ} {nodes : List α} {way : List Nat}
  {target : α}

theorem exists_cons (leads : network.Leads avoided nodes way target) :
    ∃ position rest, way = position :: rest := by
  cases leads with
  | stop => exact ⟨_, _, rfl⟩
  | onward => exact ⟨_, _, rfl⟩

/-- A way may avoid less than it does. -/
theorem mono (less : avoided ⊆ more)
    (leads : network.Leads more nodes way target) :
    network.Leads avoided nodes way target := by
  induction leads generalizing avoided with
  | stop found new => exact .stop found fun listed => new (less listed)
  | onward found new _ inductionHypothesis =>
      exact .onward found (fun listed => new (less listed))
        (inductionHypothesis (List.cons_subset_cons _ less))

theorem shift (first : α)
    (leads : network.Leads avoided nodes way target) :
    ∃ position rest, way = position :: rest ∧
      network.Leads avoided (first :: nodes) ((position + 1) :: rest)
        target := by
  cases leads with
  | stop found new => exact ⟨_, _, rfl, .stop found new⟩
  | onward found new rest => exact ⟨_, _, rfl, .onward found new rest⟩

/-- A way that does not start with the first node starts with one of the
others. -/
theorem unshift {first : α} {position : Nat} {rest : List Nat}
    (leads : network.Leads avoided (first :: nodes) ((position + 1) :: rest)
      target) :
    network.Leads avoided nodes (position :: rest) target := by
  cases leads with
  | stop found new => exact .stop found new
  | onward found new rest => exact .onward found new rest

/-- A way from the first node ends there or goes on from it. -/
theorem of_first {first : α} {rest : List Nat}
    (leads : network.Leads avoided (first :: nodes) (0 :: rest) target) :
    network.key first ∉ avoided ∧
      (rest = [] ∧ target = first ∨
        network.Leads (network.key first :: avoided) (network.next first) rest
          target) := by
  cases leads with
  | stop found new =>
      cases found
      exact ⟨new, .inl ⟨rfl, rfl⟩⟩
  | onward found new onward =>
      cases found
      exact ⟨new, .inr onward⟩

/-- There is one way to start from a single node. -/
theorem exists_zero_cons {node : α}
    (leads : network.Leads avoided [node] way target) :
    ∃ rest, way = 0 :: rest := by
  obtain ⟨position, rest, rfl⟩ := leads.exists_cons
  cases position with
  | zero => exact ⟨rest, rfl⟩
  | succ position =>
      cases leads.unshift with
      | stop found _ => cases found
      | onward found _ _ => cases found

/-- What holds of the nodes and passes on to successors holds of the target. -/
theorem known
    {Known : α → Prop} (leads : network.Leads avoided nodes way target)
    (start : ∀ node ∈ nodes, Known node)
    (onward : ∀ {node successor}, Known node →
      successor ∈ network.next node → Known successor) :
    Known target := by
  induction leads with
  | stop found _ => exact start _ (List.mem_of_getElem? found)
  | onward found _ _ inductionHypothesis =>
      exact inductionHypothesis fun _ =>
        onward (start _ (List.mem_of_getElem? found))

end Leads

/-! ## What a recursion has seen -/

namespace Collects

variable {seen later : List κ} {stack nodes : List α}

theorem mem_later_iff
    (collects : network.Collects seen stack later nodes) {key : κ} :
    key ∈ later ↔ key ∈ seen ∨ key ∈ nodes.map network.key := by
  induction collects with
  | done => simp
  | pass _ _ inductionHypothesis => exact inductionHypothesis
  | enter _ _ _ belowHypothesis afterHypothesis =>
      rw [afterHypothesis, belowHypothesis]
      simp only [List.mem_cons, List.map_cons, List.map_append,
        List.mem_append, or_assoc, or_left_comm]

theorem key_mem_later
    (collects : network.Collects seen stack later nodes) {node : α}
    (member : node ∈ stack) :
    network.key node ∈ later := by
  induction collects with
  | done => cases member
  | pass known collects inductionHypothesis =>
      rcases List.mem_cons.1 member with rfl | listed
      · exact collects.mem_later_iff.2 (.inl known)
      · exact inductionHypothesis listed
  | enter _ below after _ inductionHypothesis =>
      rcases List.mem_cons.1 member with rfl | listed
      · exact after.mem_later_iff.2 (.inl (below.mem_later_iff.2
          (.inl List.mem_cons_self)))
      · exact inductionHypothesis listed

/-- Successors of visited nodes have been seen in the end. -/
theorem key_mem_later_of_next
    (collects : network.Collects seen stack later nodes) {node successor : α}
    (visited : node ∈ nodes) (onward : successor ∈ network.next node) :
    network.key successor ∈ later := by
  induction collects with
  | done => cases visited
  | pass _ _ inductionHypothesis => exact inductionHypothesis visited
  | enter _ below after belowHypothesis afterHypothesis =>
      rcases List.mem_cons.1 visited with rfl | further
      · exact after.mem_later_iff.2 (.inl (below.key_mem_later onward))
      · rcases List.mem_append.1 further with inBelow | inAfter
        · exact after.mem_later_iff.2 (.inl (belowHypothesis inBelow))
        · exact afterHypothesis inAfter

theorem forall_known
    {Known : α → Prop} {wanted : α → Bool}
    (coherent : network.IsCoherent Known wanted)
    (collects : network.Collects seen stack later nodes)
    (known : ∀ node ∈ stack, Known node) :
    ∀ node ∈ nodes, Known node := by
  induction collects with
  | done => exact fun _ member => absurd member List.not_mem_nil
  | pass _ _ inductionHypothesis =>
      exact inductionHypothesis (List.forall_mem_cons.1 known).2
  | enter _ _ _ belowHypothesis afterHypothesis =>
      obtain ⟨here, others⟩ := List.forall_mem_cons.1 known
      exact List.forall_mem_cons.2 ⟨here, List.forall_mem_append.2
        ⟨belowHypothesis fun _ => coherent.onward here,
          afterHypothesis others⟩⟩

end Collects

/-- Nodes whose keys have been seen later and not before, with all that their
successors lead to. -/
structure Region (network : Network α κ) (Known : α → Prop)
    (seen later : List κ) (nodes : List α) : Prop where
  known : ∀ node ∈ nodes, Known node
  seen : ∀ key ∈ later, key ∈ seen ∨ key ∈ nodes.map network.key
  closed : ∀ node ∈ nodes, ∀ successor ∈ network.next node,
    network.key successor ∈ later

namespace Region

variable {Known : α → Prop} {wanted : α → Bool}
  {seen later avoided : List κ} {stack nodes : List α} {way : List Nat}
  {target : α}

theorem mem_of_mem_later
    (region : network.Region Known seen later nodes) {key : κ}
    (listed : key ∈ later) (new : key ∉ seen) :
    ∃ node ∈ nodes, Known node ∧ network.key node = key := by
  obtain ⟨node, member, same⟩ :=
    List.mem_map.1 ((region.seen key listed).resolve_left new)
  exact ⟨node, member, region.known node member, same⟩

/-- What follows a node with the key of the region has been seen. -/
theorem key_mem_of_next
    (coherent : network.IsCoherent Known wanted)
    (region : network.Region Known seen later nodes) {node : α}
    (known : Known node) (listed : network.key node ∈ later)
    (new : network.key node ∉ seen) :
    ∀ successor ∈ network.next node, network.key successor ∈ later := by
  intro successor onward
  obtain ⟨twin, member, twinKnown, same⟩ :=
    region.mem_of_mem_later listed new
  rw [← coherent.next twinKnown known same] at onward
  exact region.closed twin member successor onward

/-- To see one more key from the start does no harm. -/
theorem widen
    (region : network.Region Known seen later nodes) (more : κ) :
    network.Region Known (more :: seen) (more :: later) nodes where
  known := region.known
  seen := by
    intro key member
    rcases List.mem_cons.1 member with rfl | old
    · exact .inl List.mem_cons_self
    · exact (region.seen key old).imp_left (List.mem_cons_of_mem _)
  closed := fun node visited successor onward =>
    List.mem_cons_of_mem _ (region.closed node visited successor onward)

/-- A way that starts in a region does not leave it. -/
theorem mem_of_leads
    (coherent : network.IsCoherent Known wanted)
    (region : network.Region Known seen later nodes)
    (leads : network.Leads avoided stack way target) (less : seen ⊆ avoided)
    (known : ∀ node ∈ stack, Known node)
    (inside : ∀ node ∈ stack, network.key node ∈ later) :
    ∃ node ∈ nodes, Known node ∧ network.key node = network.key target ∧
      Known target := by
  induction leads with
  | @stop avoided stack position node found new =>
      have member := List.mem_of_getElem? found
      obtain ⟨twin, listed, twinKnown, same⟩ := region.mem_of_mem_later
        (inside node member) fun old => new (less old)
      exact ⟨twin, listed, twinKnown, same, known node member⟩
  | @onward avoided stack position node target way found new rest
      inductionHypothesis =>
      have member := List.mem_of_getElem? found
      exact inductionHypothesis
        (List.Subset.trans less (List.subset_cons_self _ _))
        (fun _ => coherent.onward (known node member))
        (region.key_mem_of_next coherent (known node member)
          (inside node member) fun old => new (less old))

/-- A way comes into a region and ends there, or it avoids it. -/
theorem mem_or_leads
    (coherent : network.IsCoherent Known wanted)
    (region : network.Region Known seen later nodes)
    (leads : network.Leads seen stack way target)
    (known : ∀ node ∈ stack, Known node) :
    (∃ node ∈ nodes, Known node ∧ network.key node = network.key target ∧
        Known target) ∨
      network.Leads later stack way target := by
  induction leads generalizing later with
  | @stop seen stack position node found new =>
      have here := known node (List.mem_of_getElem? found)
      by_cases listed : network.key node ∈ later
      · obtain ⟨twin, member, twinKnown, same⟩ :=
          region.mem_of_mem_later listed new
        exact .inl ⟨twin, member, twinKnown, same, here⟩
      · exact .inr (.stop found listed)
  | @onward seen stack position node target way found new rest
      inductionHypothesis =>
      have here := known node (List.mem_of_getElem? found)
      have following : ∀ successor ∈ network.next node, Known successor :=
        fun _ => coherent.onward here
      by_cases listed : network.key node ∈ later
      · exact .inl (region.mem_of_leads coherent rest
          (List.subset_cons_self _ _) following
          (region.key_mem_of_next coherent here listed new))
      · exact (inductionHypothesis (region.widen _) following).imp_right
          (.onward found listed)

end Region

/-! ## What a recursion meets first -/

/-- One way is another one or comes before it. -/
def NotAfter (way other : List Nat) : Prop :=
  way = other ∨ List.Lex (· < ·) way other

namespace NotAfter

variable {way other : List Nat}

theorem single (position : Nat) (rest : List Nat) :
    NotAfter [position] (position :: rest) := by
  cases rest with
  | nil => exact .inl rfl
  | cons => exact .inr (.cons .nil)

theorem turn {left right : Nat} (less : left < right) :
    NotAfter (left :: way) (right :: other) :=
  .inr (.rel less)

theorem onward (position : Nat) (sooner : NotAfter way other) :
    NotAfter (position :: way) (position :: other) :=
  sooner.imp (congrArg _) .cons

theorem of_cons {position : Nat}
    (sooner : NotAfter (position :: way) (position :: other)) :
    NotAfter way other := by
  rcases sooner with same | before
  · exact .inl (List.cons.inj same).2
  · cases before with
    | rel less => exact absurd less (Nat.lt_irrefl _)
    | cons before => exact .inr before

/-- The order does not change when there is one more node in front. -/
theorem shift {left right : Nat}
    (sooner : NotAfter (left :: way) (right :: other)) :
    NotAfter ((left + 1) :: way) ((right + 1) :: other) := by
  rcases sooner with same | before
  · obtain ⟨rfl, rfl⟩ := List.cons.inj same
    exact .inl rfl
  · cases before with
    | rel less => exact turn (Nat.succ_lt_succ less)
    | cons before => exact .inr (.cons before)

end NotAfter

/-- A way to what is wanted that no other one comes before. -/
structure LeadsFirst (network : Network α κ) (avoided : List κ)
    (nodes : List α) (wanted : α → Bool) (way : List Nat) (target : α) :
    Prop where
  leads : network.Leads avoided nodes way target
  first : ∀ {other next}, network.Leads avoided nodes other next →
    wanted next → NotAfter way other

section First

variable {Known : α → Prop} {wanted : α → Bool} {seen middle later : List κ}
  {stack rest nodes below : List α} {node target : α} {way : List Nat}

namespace LeadsFirst

/-- Where the ways to what is wanted avoid the first node, and more, they are those
from the other nodes. -/
theorem cons_of_avoids
    (more : seen ⊆ middle) (listed : network.key node ∈ middle)
    (avoids : ∀ {other next}, network.Leads seen (node :: rest) other next →
      wanted next → network.Leads middle (node :: rest) other next)
    (earliest : network.LeadsFirst middle rest wanted way target) :
    ∃ way, network.LeadsFirst seen (node :: rest) wanted way target := by
  obtain ⟨position, remaining, rfl, shifted⟩ :=
    (earliest.leads.mono more).shift node
  refine ⟨_, shifted, ?_⟩
  intro other next leads isWanted
  have avoiding := avoids leads isWanted
  obtain ⟨start, others, rfl⟩ := avoiding.exists_cons
  cases start with
  | zero => exact absurd listed avoiding.of_first.1
  | succ start => exact (earliest.first avoiding.unshift isWanted).shift

/-- No way starts with a node that has to be avoided. -/
theorem pass
    (listed : network.key node ∈ seen)
    (earliest : network.LeadsFirst seen rest wanted way target) :
    ∃ way, network.LeadsFirst seen (node :: rest) wanted way target :=
  earliest.cons_of_avoids (List.Subset.refl _) listed fun leads _ => leads

/-- No way comes before the one that ends at the first node. -/
theorem here (new : network.key node ∉ seen) :
    network.LeadsFirst seen (node :: rest) wanted [0] node := by
  refine ⟨.stop rfl new, ?_⟩
  intro other next leads _
  obtain ⟨start, others, rfl⟩ := leads.exists_cons
  cases start with
  | zero => exact .single 0 others
  | succ start => exact .turn (Nat.succ_pos start)

/-- Where the first node is not wanted, the ways that go on from it come before
those that start with another one. -/
theorem through
    (new : network.key node ∉ seen) (unwanted : wanted node = false)
    (earliest : network.LeadsFirst (network.key node :: seen)
      (network.next node) wanted way target) :
    network.LeadsFirst seen (node :: rest) wanted (0 :: way) target := by
  refine ⟨.onward rfl new earliest.leads, ?_⟩
  intro other next leads isWanted
  obtain ⟨start, others, rfl⟩ := leads.exists_cons
  cases start with
  | zero =>
      rcases leads.of_first.2 with ⟨-, rfl⟩ | further
      · rw [unwanted] at isWanted
        cases isWanted
      · exact (earliest.first further isWanted).onward 0
  | succ start => exact .turn (Nat.succ_pos start)

/-- Where nothing is wanted in the region of the first node, no way that comes
into the region leads to what is wanted. -/
theorem beyond
    (coherent : network.IsCoherent Known wanted)
    (region : network.Region Known seen middle nodes)
    (nothing : ∀ twin ∈ nodes, wanted twin = false)
    (more : seen ⊆ middle) (firstListed : network.key node ∈ middle)
    (known : ∀ other ∈ node :: rest, Known other)
    (earliest : network.LeadsFirst middle rest wanted way target) :
    ∃ way, network.LeadsFirst seen (node :: rest) wanted way target := by
  refine earliest.cons_of_avoids more firstListed fun leads isWanted => ?_
  refine (region.mem_or_leads coherent leads known).resolve_left ?_
  rintro ⟨twin, member, twinKnown, same, nextKnown⟩
  have alike := coherent.wanted twinKnown nextKnown same
  rw [nothing twin member, isWanted] at alike
  cases alike

end LeadsFirst

/-- What is visited from a node on, together with the node, is a region. -/
theorem Region.of_enter
    (coherent : network.IsCoherent Known wanted) (known : Known node)
    (collects : network.Collects (network.key node :: seen)
      (network.next node) middle below) :
    network.Region Known seen middle (node :: below) where
  known := List.forall_mem_cons.2
    ⟨known, collects.forall_known coherent fun _ => coherent.onward known⟩
  seen := by
    intro key listed
    rcases collects.mem_later_iff.1 listed with old | visited
    · rcases List.mem_cons.1 old with rfl | old
      · exact .inr List.mem_cons_self
      · exact .inl old
    · exact .inr (List.mem_cons_of_mem _ visited)
  closed := List.forall_mem_cons.2
    ⟨fun _ => collects.key_mem_later,
      fun _ visited _ => collects.key_mem_later_of_next visited⟩

namespace Collects

/-- What a recursion meets first of what is wanted is at the end of the first way
to it. -/
theorem exists_leadsFirst
    (coherent : network.IsCoherent Known wanted)
    (collects : network.Collects seen stack later nodes)
    (known : ∀ node ∈ stack, Known node)
    (found : nodes.find? wanted = some target) :
    ∃ way, network.LeadsFirst seen stack wanted way target := by
  induction collects with
  | done => cases found
  | pass listed collects inductionHypothesis =>
      obtain ⟨way, earliest⟩ := inductionHypothesis
        (List.forall_mem_cons.1 known).2 found
      exact earliest.pass listed
  | @enter seen middle later node rest below nodes new inBelow after
      belowHypothesis afterHypothesis =>
      obtain ⟨here, others⟩ := List.forall_mem_cons.1 known
      rw [List.find?_cons] at found
      split at found
      · cases found
        exact ⟨[0], .here new⟩
      · rename_i unwanted
        rw [List.find?_append, Option.or_eq_some_iff] at found
        rcases found with found | ⟨missed, found⟩
        · obtain ⟨way, earliest⟩ := belowHypothesis
            (fun _ => coherent.onward here) found
          exact ⟨0 :: way, earliest.through new unwanted⟩
        · obtain ⟨way, earliest⟩ := afterHypothesis others found
          have listed : ∀ key ∈ network.key node :: seen, key ∈ middle :=
            fun _ known => inBelow.mem_later_iff.2 (.inl known)
          exact earliest.beyond coherent
            (Region.of_enter coherent here inBelow)
            (List.forall_mem_cons.2 ⟨unwanted, by simpa using missed⟩)
            (fun key old => listed key (List.mem_cons_of_mem _ old))
            (listed _ List.mem_cons_self) known

end Collects

end First

end ModuleWiring.Network
