import ModuleWiring.Proofs.Newcomer
import ModuleWiring.Proofs.Revision

/-!
# Drafts of revised generations

Two drafts correspond if the candidates of one are those of the other in a revised
form, whatever that is, and all else is the same.  What begins a search with one
of them begins it with the other.
-/

namespace ModuleWiring

section Related

variable {α β γ δ ε : Type} {Rel : α → β → Prop} {Next : γ → δ → Prop}
  {left : Option α} {right : Option β}

theorem exists_right_of_rel
    {value : α} (related : Option.Rel Rel left right)
    (found : left = some value) :
    ∃ other, right = some other ∧ Rel value other := by
  subst found
  cases related with
  | some both => exact ⟨_, rfl, both⟩

theorem exists_left_of_rel
    {value : β} (related : Option.Rel Rel left right)
    (found : right = some value) :
    ∃ other, left = some other ∧ Rel other value := by
  subst found
  cases related with
  | some both => exact ⟨_, rfl, both⟩

theorem eq_none_of_rel
    (related : Option.Rel Rel left right) (none : left = none) :
    right = .none := by
  subst none
  cases related with
  | none => rfl

/-- Outcomes are related if both are faults, or both are results that are. -/
def Outcomes (Rel : α → β → Prop) (left : Except ε α) (right : Except ε β) :
    Prop :=
  Option.Rel Rel left.toOption right.toOption

namespace Outcomes

variable {outcome : Except ε α} {other : Except ε β}

theorem ok {value : α} {changed : β} (related : Rel value changed) :
    Outcomes Rel (.ok value : Except ε α) (.ok changed) :=
  .some related

theorem bind
    {next : α → Except ε γ} {otherNext : β → Except ε δ}
    (related : Outcomes Rel outcome other)
    (onward : ∀ value changed, Rel value changed →
      Outcomes Next (next value) (otherNext changed)) :
    Outcomes Next (outcome >>= next) (other >>= otherNext) := by
  cases outcome with
  | error fault =>
      cases other with
      | error _ => exact .none
      | ok _ => cases related
  | ok value =>
      cases other with
      | error _ => cases related
      | ok changed =>
          cases related with
          | some both => exact onward value changed both

theorem map
    {value : α → γ} {otherValue : β → δ} (related : Outcomes Rel outcome other)
    (onward : ∀ item changed, Rel item changed →
      Next (value item) (otherValue changed)) :
    Outcomes Next (outcome.map value) (other.map otherValue) := by
  cases outcome with
  | error fault =>
      cases other with
      | error _ => exact .none
      | ok _ => cases related
  | ok item =>
      cases other with
      | error _ => cases related
      | ok changed =>
          cases related with
          | some both => exact .some (onward item changed both)

theorem exists_left
    {changed : β} (related : Outcomes Rel outcome other)
    (done : other = .ok changed) :
    ∃ value, outcome = .ok value ∧ Rel value changed := by
  subst done
  cases outcome with
  | error fault => cases related
  | ok value =>
      cases related with
      | some both => exact ⟨value, rfl, both⟩

theorem exists_right
    {value : α} (related : Outcomes Rel outcome other)
    (done : outcome = .ok value) :
    ∃ changed, other = .ok changed ∧ Rel value changed := by
  subst done
  cases other with
  | error fault => cases related
  | ok changed =>
      cases related with
      | some both => exact ⟨changed, rfl, both⟩

end Outcomes

/-- If there is a result on the right, there is a related one on the left. -/
def Recovers (Rel : α → β → Prop) (left : Except ε α) (right : Except ε β) :
    Prop :=
  ∀ changed, right = .ok changed → ∃ value, left = .ok value ∧ Rel value changed

theorem Outcomes.recovers
    {outcome : Except ε α} {other : Except ε β}
    (related : Outcomes Rel outcome other) :
    Recovers Rel outcome other :=
  fun _ done => related.exists_left done

namespace Recovers

variable {outcome : Except ε α} {other : Except ε β}

theorem ok {value : α} {changed : β} (related : Rel value changed) :
    Recovers Rel (.ok value : Except ε α) (.ok changed) :=
  Outcomes.recovers (.ok related)

theorem error (fault : ε) : Recovers Rel outcome (.error fault) :=
  nofun

theorem bind
    {next : α → Except ε γ} {otherNext : β → Except ε δ}
    (recovers : Recovers Rel outcome other)
    (onward : ∀ value changed, outcome = .ok value → other = .ok changed →
      Rel value changed → Recovers Next (next value) (otherNext changed)) :
    Recovers Next (outcome >>= next) (other >>= otherNext) := by
  intro result done
  cases other with
  | error fault => cases done
  | ok changed =>
      obtain ⟨value, rfl, related⟩ := recovers changed rfl
      exact onward value changed rfl rfl related result done

end Recovers

end Related

/-- A relation between candidates that goes with a revision of generations. -/
structure Revision.Carries (revision : Revision)
    (Rel : Candidate → Candidate → Prop) : Prop where
  generation : ∀ {candidate changed : Candidate}, Rel candidate changed →
    changed.generation = revision candidate.generation
  given : ∀ (store : Store) (generation : Generation),
    Rel (.given store generation)
      (.given (revision.store store) (revision generation))

namespace Draft

/-- The same draft with candidates in a revised form. -/
structure Matches (revision : Revision) (Rel : Candidate → Candidate → Prop)
    (draft other : Draft) : Prop where
  store : other.store = revision.store draft.store
  resolving : other.resolving = draft.resolving
  settled : other.settled = draft.settled
  queue : other.queue = draft.queue
  used : other.used = draft.used
  unused : other.unused = draft.unused
  singletons : other.singletons = draft.singletons
  attached : other.attached = draft.attached
  candidates : ∀ id, Option.Rel Rel (draft.candidate? id)
    (other.candidate? id)

variable {revision : Revision} {Rel : Candidate → Candidate → Prop}
  {draft other : Draft}

theorem matches_empty (revision : Revision)
    (Rel : Candidate → Candidate → Prop) (store : Store) :
    (empty store).Matches revision Rel (empty (revision.store store)) :=
  ⟨rfl, rfl, rfl, rfl, rfl, rfl, rfl, rfl, fun _ => .none⟩

namespace Matches

variable (matching : draft.Matches revision Rel other)

include matching

/-- There are candidates for an identity in both drafts or in none. -/
theorem cases (id : GenerationId) :
    (draft.candidate? id = none ∧ other.candidate? id = none) ∨
      ∃ candidate changed, draft.candidate? id = some candidate ∧
        other.candidate? id = some changed ∧ Rel candidate changed := by
  cases found : draft.candidate? id with
  | none => exact .inl ⟨rfl, eq_none_of_rel (matching.candidates id) found⟩
  | some candidate =>
      obtain ⟨changed, hit, related⟩ :=
        exists_right_of_rel (matching.candidates id) found
      exact .inr ⟨candidate, changed, rfl, hit, related⟩

theorem put
    {candidate changed : Candidate} (carries : revision.Carries Rel)
    (related : Rel candidate changed) :
    (draft.put candidate).Matches revision Rel (other.put changed) where
  store := matching.store
  resolving := matching.resolving
  settled := matching.settled
  queue := matching.queue
  used := matching.used
  unused := matching.unused
  singletons := matching.singletons
  attached := matching.attached
  candidates := by
    intro id
    have same : changed.id = candidate.id :=
      (congrArg Generation.id (carries.generation related)).trans
        (revision.revises _).id
    rw [candidate?_put, candidate?_put, same]
    split
    · exact .some related
    · exact matching.candidates id

theorem use (id : GenerationId) :
    (draft.use id).Matches revision Rel (other.use id) :=
  { matching with
    used := congrArg (·.insert id) matching.used
    unused := congrArg (·.erase id) matching.unused }

/-- A name can be taken in both drafts or in none. -/
theorem registerSingleton (generation : Generation) :
    Outcomes (Matches revision Rel) (draft.registerSingleton generation)
      (other.registerSingleton (revision generation)) := by
  have revises := revision.revises generation
  unfold Draft.registerSingleton
  rw [revises.isSingleton, revises.symbolicName, revises.id,
    matching.singletons]
  dsimp only
  split
  · split
    · exact .ok { matching with singletons := rfl }
    · split
      · exact .ok { matching with singletons := rfl }
      · exact .none
  · exact .ok matching

theorem addCandidate (carries : revision.Carries Rel)
    (generation : Generation) :
    Outcomes (Matches revision Rel) (draft.addCandidate generation)
      (other.addCandidate (revision generation)) := by
  rw [addCandidate_eq, addCandidate_eq, matching.store, revision.state_store,
    (revision.revises generation).isFragment]
  split
  · exact .ok matching
  · refine (matching.registerSingleton generation).map
      fun named changed kept => ?_
    unfold enroll
    rw [kept.store, kept.unused, (revision.revises generation).id]
    exact { kept.put carries (carries.given named.store generation) with
      unused := rfl }

end Matches

/-- Pools correspond, or there is none. -/
theorem matches_pool
    (carries : revision.Carries Rel) (store : Store)
    (generations : List Generation) :
    Outcomes (Matches revision Rel) (pool store generations)
      (pool (revision.store store) (generations.map revision)) := by
  have folded : ∀ (items : List Generation) (draft other : Draft),
      draft.Matches revision Rel other →
        Outcomes (Matches revision Rel)
          (items.foldlM Draft.addCandidate draft)
          ((items.map revision).foldlM Draft.addCandidate other) := by
    intro items
    induction items with
    | nil => exact fun _ _ matching => .ok matching
    | cons first rest inductionHypothesis =>
        intro draft other matching
        rw [List.map_cons, List.foldlM_cons, List.foldlM_cons]
        exact (matching.addCandidate carries first).bind inductionHypothesis
  exact folded generations _ _ (matches_empty revision Rel store)

/-- First drafts correspond, or there is none. -/
theorem matches_initial
    (carries : revision.Carries Rel)
    (fresh : ∀ generation : Generation,
      Rel (.bound (.of generation)) (.bound (.of (revision generation))))
    (unresolved : ∀ generation : Generation,
      Rel (.unresolved generation) (.unresolved (revision generation)))
    (store : Store) (generations : List Generation) (target : Generation) :
    Outcomes (Matches revision Rel) (initial store generations target)
      (initial (revision.store store) (generations.map revision)
        (revision target)) := by
  have revises := revision.revises target
  unfold initial
  refine (matches_pool carries store generations).bind
    fun middle otherMiddle pooled => ?_
  refine (pooled.registerSingleton target).bind
    fun named otherNamed registered => ?_
  rw [revises.isFragment, revises.id]
  split
  · have put := registered.put carries (unresolved target)
    exact .ok { put with
      unused := congrArg (·.erase target.id) put.unused
      resolving := rfl }
  · have used := (registered.put carries (fresh target)).use target.id
    exact .ok { used with resolving := rfl }

end Draft

end ModuleWiring
