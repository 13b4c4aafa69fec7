import Mathlib.Data.Prod.Lex
import ModuleWiring.Proofs.Checkpoints

/-!
# A measure of what is left to decide

A draft is measured by four numbers, the first of which that differs counts: the
candidates of which nothing is decided, the requirements of bound modules, the
modules that wait in the queue, and the one that is in charge.  Binding a module
adds requirements and lengthens the queue, but there is one candidate less then.
-/

namespace ModuleWiring

theorem Roster.total_le
    {α : Type} {key : α → GenerationId} {weight other : α → Nat}
    (le : ∀ item, weight item ≤ other item) (roster : Roster key) :
    roster.total weight ≤ roster.total other := by
  unfold total
  induction roster.members with
  | nil => exact Nat.le_refl _
  | cons first rest inductionHypothesis =>
      exact Nat.add_le_add (le first) inductionHypothesis

namespace Draft

/-- A candidate counts as undecided until it is resolved, bound or attached to a
host. -/
def share (attached : Table GenerationId GenerationId) : Candidate → Nat
  | .unresolved installed => if attached.contains installed.id then 0 else 1
  | .resolved _ => 0
  | .bound _ => 0

/-- The requirements that a candidate has to decide. -/
def burden : Candidate → Nat
  | .unresolved _ => 0
  | .resolved _ => 0
  | .bound binding => binding.pending

def undecided (draft : Draft) : Nat :=
  draft.candidates.total (share draft.attached)

def pending (draft : Draft) : Nat :=
  draft.candidates.total burden

/-- What is left to decide: candidates, requirements, the queue and the module
in charge, in this order of importance. -/
def measure (draft : Draft) : ℕ ×ₗ ℕ ×ₗ ℕ ×ₗ ℕ :=
  toLex (draft.undecided, toLex (draft.pending,
    toLex (draft.queue.length, if draft.resolving.isSome then 1 else 0)))

variable {draft result : Draft}

theorem measure_lt_of_undecided (fewer : result.undecided < draft.undecided) :
    result.measure < draft.measure :=
  Prod.Lex.toLex_lt_toLex.2 (.inl fewer)

theorem measure_lt_of_pending
    (undecided : result.undecided ≤ draft.undecided)
    (fewer : result.pending < draft.pending) :
    result.measure < draft.measure := by
  rcases Nat.lt_or_eq_of_le undecided with less | same
  · exact measure_lt_of_undecided less
  · exact Prod.Lex.toLex_lt_toLex.2
      (.inr ⟨same, Prod.Lex.toLex_lt_toLex.2 (.inl fewer)⟩)

/-- Drafts that differ in the queue and in the module in charge only are
measured by these. -/
theorem measure_lt_of_schedule
    (candidates : result.candidates = draft.candidates)
    (attached : result.attached = draft.attached)
    (less : result.queue.length < draft.queue.length ∨
      result.queue.length = draft.queue.length ∧
        result.resolving.isSome = false ∧ draft.resolving.isSome = true) :
    result.measure < draft.measure := by
  have undecided : result.undecided = draft.undecided := by
    unfold Draft.undecided
    rw [candidates, attached]
  have pending : result.pending = draft.pending := by
    unfold Draft.pending
    rw [candidates]
  refine Prod.Lex.toLex_lt_toLex.2 (.inr ⟨undecided,
    Prod.Lex.toLex_lt_toLex.2 (.inr ⟨pending,
      Prod.Lex.toLex_lt_toLex.2 ?_⟩)⟩)
  rcases less with shorter | ⟨same, idle, busy⟩
  · exact .inl shorter
  · exact .inr ⟨same, by simp [idle, busy]⟩

theorem undecided_put
    (candidate : Candidate) {old : Candidate}
    (found : draft.candidate? candidate.id = some old) :
    (draft.put candidate).undecided + share draft.attached old =
      draft.undecided + share draft.attached candidate :=
  Roster.total_insert (share draft.attached) found

theorem pending_put
    (candidate : Candidate) {old : Candidate}
    (found : draft.candidate? candidate.id = some old) :
    (draft.put candidate).pending + burden old =
      draft.pending + burden candidate :=
  Roster.total_insert burden found

/-- Binding a candidate makes none undecided. -/
theorem undecided_put_bound_le
    {new : BoundModule} {old : Candidate}
    (found : draft.candidate? new.host.id = some old) :
    (draft.put (.bound new)).undecided ≤ draft.undecided := by
  have change := undecided_put (.bound new) found
  have none : share draft.attached (.bound new) = 0 := rfl
  omega

theorem share_eq_of_ne
    {attached : Table GenerationId GenerationId}
    {fragment host : GenerationId} {candidate : Candidate}
    (different : candidate.id ≠ fragment) :
    share (attached.insert fragment host) candidate =
      share attached candidate := by
  cases candidate with
  | unresolved installed =>
      have other : ¬ fragment = installed.id :=
        fun same => different same.symm
      have same : (attached.insert fragment host).contains installed.id =
          attached.contains installed.id := by
        rw [Table.contains, Table.find?_insert, if_neg other, Table.contains]
      simp only [share, same]
  | resolved wired => rfl
  | bound binding => rfl

/-- A free fragment that a host claims is decided. -/
theorem undecided_claim
    {fragment : GenerationId} (free : draft.IsFree fragment)
    (host : GenerationId) :
    (draft.claim fragment host).undecided + 1 = draft.undecided := by
  obtain ⟨generation, found, _, unclaimed⟩ := free
  have same : generation.id = fragment := id_of_candidate? found
  have others : ∀ candidate ∈ draft.candidates.members,
      candidate.id ≠ (Candidate.unresolved generation).id →
        share (draft.attached.insert fragment host) candidate =
          share draft.attached candidate :=
    fun candidate _ different =>
      share_eq_of_ne fun equality => different (equality.trans same.symm)
  have change := Roster.total_change (mem_of_candidate? found) others
  have before : share draft.attached (.unresolved generation) = 1 := by
    simp [share, same, unclaimed]
  have after : share (draft.attached.insert fragment host)
      (.unresolved generation) = 0 := by
    simp [share, same, Table.contains, Table.find?_insert]
  rw [before, after] at change
  exact change

/-- A module that decides one of its requirements leaves less to decide, whether
or not it binds another one for that. -/
theorem measure_put_lt
    {id : GenerationId} {middle : Draft} {bound new : BoundModule}
    (current : draft.resolvingBound? = some bound)
    (other : draft.resolving ≠ some id)
    (unclaimed : ∀ installed,
      draft.candidate? id = some (.unresolved installed) →
        draft.attached.contains id = false)
    (engaged : draft.Engaged id middle)
    (sameHost : new.host = bound.host) (fewer : new.pending < bound.pending) :
    (middle.put (.bound new)).measure < draft.measure := by
  have middleFound : middle.candidate? new.host.id = some (.bound bound) := by
    rw [sameHost]
    exact candidate?_of_resolvingBound?
      ((engaged.resolvingBound? other).trans current)
  have undecided := undecided_put_bound_le middleFound
  have pending := pending_put (.bound new) middleFound
  have burdens : burden (.bound new) < burden (.bound bound) := fewer
  cases engaged with
  | already _ => exact measure_lt_of_pending undecided (by omega)
  | use _ =>
      have same : (draft.use id).pending = draft.pending := rfl
      exact measure_lt_of_pending undecided (by omega)
  | @enlist installed singletons found =>
      have same : installed.id = id := id_of_candidate? found
      have change := undecided_put (.bound (.of installed))
        (same ▸ found)
      have before : share draft.attached (.unresolved installed) = 1 := by
        simp [share, same, unclaimed installed found]
      have after : share draft.attached (.bound (.of installed)) = 0 := rfl
      have enlisted : Draft.undecided
          { (draft.put (.bound (.of installed))).use id with
            queue := draft.queue ++ [id], singletons := singletons } =
          (draft.put (.bound (.of installed))).undecided := rfl
      exact measure_lt_of_undecided (by omega)

theorem measure_put_lt_self
    {bound new : BoundModule} (current : draft.resolvingBound? = some bound)
    (sameHost : new.host = bound.host) (fewer : new.pending < bound.pending) :
    (draft.put (.bound new)).measure < draft.measure := by
  have found : draft.candidate? new.host.id = some (.bound bound) := by
    rw [sameHost]
    exact candidate?_of_resolvingBound? current
  have pending := pending_put (.bound new) found
  have burdens : burden (.bound new) < burden (.bound bound) := fewer
  exact measure_lt_of_pending (undecided_put_bound_le found) (by omega)

/-- A fragment that joins a host leaves less to decide, although the host may
have more requirements then. -/
theorem Attaches.measure_lt
    {fragment host : Generation} {candidate : Candidate}
    {base new : BoundModule}
    (attaches : draft.Attaches result fragment host candidate base new)
    (free : draft.IsFree fragment.id)
    (notFragment : candidate.generation.isFragment = false) :
    result.measure < draft.measure := by
  have found : draft.candidate? new.host.id = some candidate := by
    rw [attaches.id_host]
    exact attaches.found
  have stillFree : (draft.put (.bound new)).IsFree fragment.id := by
    obtain ⟨installed, hit, isFragment, unclaimed⟩ := free
    refine ⟨installed, ?_, isFragment, unclaimed⟩
    rw [candidate?_put, id_bound, if_neg ?_, hit]
    intro same
    rw [same, hit] at found
    cases found
    simp [Candidate.generation, isFragment] at notFragment
  have put := undecided_put_bound_le found
  have claimed := undecided_claim stillFree host.id
  have same : result.undecided =
      ((draft.put (.bound new)).claim fragment.id host.id).undecided := by
    rw [attaches.same]
    rfl
  exact measure_lt_of_undecided (by omega)

theorem IsAvailable.isFree
    {fragment : Generation} (available : draft.IsAvailable fragment) :
    draft.IsFree fragment.id :=
  ⟨fragment, available.found, available.isFragment, by
    have unattached := available.unattached
    unfold hostOf? at unattached
    simp [Table.contains, unattached]⟩

theorem share_insert_le
    (attached : Table GenerationId GenerationId) (fragment host : GenerationId)
    (candidate : Candidate) :
    share (attached.insert fragment host) candidate ≤
      share attached candidate := by
  by_cases same : candidate.id = fragment
  · cases candidate with
    | unresolved installed =>
        have here : fragment = installed.id := same.symm
        simp [share, here, Table.contains, Table.find?_insert]
    | resolved wired => exact Nat.le_refl _
    | bound binding => exact Nat.le_refl _
  · exact Nat.le_of_eq (share_eq_of_ne same)

theorem undecided_claimAll_le (host : GenerationId)
    (fragments : List Generation) :
    (draft.claimAll host fragments).undecided ≤ draft.undecided := by
  induction fragments generalizing draft with
  | nil => exact Nat.le_refl _
  | cons first rest inductionHypothesis =>
      exact inductionHypothesis.trans
        (Roster.total_le (share_insert_le draft.attached first.id host)
          draft.candidates)

/-- A host that takes on fragments leaves less to decide, and one that takes on
none changes nothing. -/
theorem Binds.measure_lt
    {installed : Generation} {joined : List Generation} {new : BoundModule}
    (binds : draft.Binds result installed joined new) :
    result = draft ∨ result.measure < draft.measure := by
  have taken := binds.taken
  have hostId : new.host = installed := taken.host
  cases joined with
  | nil =>
      left
      rw [binds.same]
      cases taken
      exact put_of_candidate? binds.found
  | cons first rest =>
      right
      have free := (binds.free first List.mem_cons_self).isFree
      have claimed := undecided_claim free installed.id
      have others : (draft.claimAll installed.id (first :: rest)).undecided ≤
          (draft.claim first.id installed.id).undecided :=
        undecided_claimAll_le installed.id rest
      have found : (draft.claimAll installed.id (first :: rest)).candidate?
          new.host.id = some (.bound (.of installed)) := by
        rw [hostId, claimAll_eq]
        exact binds.found
      have put := undecided_put_bound_le found
      rw [binds.same]
      exact measure_lt_of_undecided (by omega)

/-- A bundle that is not bound yet is attached to nobody, and neither is a
fragment as long as no candidate is bound. -/
theorem IsBalanced.unclaimed
    {carried : Generation → List Generation} {id : GenerationId}
    {installed : Generation} (balanced : draft.IsBalanced carried)
    (found : draft.candidate? id = some (.unresolved installed))
    (notHosted : installed.isFragment = false ∨ draft.IsUntouched) :
    draft.attached.contains id = false := by
  cases hosted : draft.attached.find? id with
  | none => simp [Table.contains, hosted]
  | some host =>
      obtain ⟨notUnused, _, bound, _, hostFound, _⟩ := balanced.claimed hosted
      rcases notHosted with notFragment | untouched
      · exact absurd (balanced.free found notFragment) notUnused
      · exact absurd hostFound (untouched host bound)

end Draft

namespace Search

/-- A decision leaves less to decide, or it goes on to a later phase with the
same draft. -/
theorem measure_of_decision
    {search : Search} {node result : Node} (orderly : IsOrderly node)
    (decision : Decision search node result) :
    result.draft.measure < node.draft.measure ∨
      result.draft = node.draft ∧ result.phase.rank < node.phase.rank := by
  have scheduled := orderly.scheduled
  have balanced := orderly.balanced
  cases decision with
  | idle _ => exact .inr ⟨rfl, Nat.lt_succ_self _⟩
  | attach resolving found isFragment offered done =>
      obtain ⟨_, _, _, notFragment, attaches⟩ :=
        scheduled.exists_attaches resolving found offered done
      obtain ⟨untouched, _, _⟩ := scheduled.untouched_of_start resolving found
      have unclaimed := balanced.unclaimed found (.inr untouched)
      exact .inl (attaches.measure_lt ⟨_, found, isFragment, unclaimed⟩
        notFragment)
  | bind resolving found notFragment chosen done =>
      obtain ⟨_, _, _, binds⟩ :=
        scheduled.exists_binds resolving found notFragment chosen done
      rcases binds.measure_lt with same | less
      · exact .inr ⟨same, Nat.lt_succ_self _⟩
      · exact .inl less
  | toImports _ _ => exact .inr ⟨rfl, Nat.lt_succ_self _⟩
  | leaveRequire current next _ =>
      have found := Draft.candidate?_of_resolvingBound? current
      exact .inl (Draft.measure_put_lt_self current rfl
        (by simp [BoundModule.pending, next]))
  | provide current next offered _ engaged =>
      obtain ⟨_, other, _⟩ := mem_requireChoices offered
      have notFragment := notFragment_of_mem_requireChoices offered
      exact .inl (Draft.measure_put_lt current other
        (fun installed found =>
          balanced.unclaimed found (.inl (notFragment installed found)))
        engaged rfl
        (by simp [BoundModule.pending, BoundModule.addProvision, next]))
  | leaveImport current next _ =>
      exact .inl (Draft.measure_put_lt_self current rfl
        (by simp [BoundModule.pending, next]))
  | wire current next _ _ offered _ engaged =>
      have notFragment := notFragment_of_mem_wireChoices offered
      exact .inl (Draft.measure_put_lt current
        (ne_resolving_of_mem_wireChoices offered)
        (fun installed found =>
          balanced.unclaimed found (.inl (notFragment installed found)))
        engaged rfl (by simp [BoundModule.pending, next]))
  | @settle _ draft through =>
      obtain ⟨_, _, resolving, found, _⟩ := scheduled.exists_of_settle through
      left
      change (settle draft).draft.measure < draft.measure
      rw [scheduled.settle_eq resolving found]
      split
      · rename_i queue
        refine Draft.measure_lt_of_schedule rfl rfl (.inr ⟨?_, rfl, ?_⟩)
        · rw [queue]
        · rw [resolving]
          rfl
      · rename_i next rest queue
        refine Draft.measure_lt_of_schedule rfl rfl (.inl ?_)
        rw [queue]
        exact Nat.lt_succ_self _

end Search

end ModuleWiring
