import ModuleWiring.Proofs.Start

/-!
# The books of a draft

A draft keeps the identities of its candidates in two sets, those that take part
and those that do not, and it notes which fragment belongs to which host.  The
books agree with the candidates: what takes part has been bound or was resolved,
and a fragment that is attached is one that its host has taken on.
-/

namespace ModuleWiring

/-- A candidate is not a fragment that waits for a host. -/
def Candidate.MayHost (candidate : Candidate) : Prop :=
  ∀ installed, candidate = .unresolved installed →
    installed.isFragment = false

namespace Draft

/-- The books of a draft agree with its candidates.  The fragments that a host had
before the search are those that it `carried`. -/
structure IsBalanced (carried : Generation → List Generation)
    (draft : Draft) : Prop where
  disjoint : ∀ {id}, draft.used.contains id = true →
    ¬ draft.unused.contains id = true
  used : ∀ {id}, draft.used.contains id = true →
    ∃ candidate, draft.candidate? id = some candidate ∧
      ∀ installed, candidate ≠ .unresolved installed
  unused : ∀ {id}, draft.unused.contains id = true →
    ∃ candidate, draft.candidate? id = some candidate ∧
      ∀ bound, candidate ≠ .bound bound
  free : ∀ {id installed},
    draft.candidate? id = some (.unresolved installed) →
      installed.isFragment = false → draft.unused.contains id = true
  resolved : ∀ {id wired}, draft.candidate? id = some (.resolved wired) →
    (draft.used.contains id = true ∨ draft.unused.contains id = true) ∧
      wired.fragments ⊆ carried wired.generation
  claimed : ∀ {fragment host}, draft.hostOf? fragment = some host →
    ¬ draft.unused.contains fragment = true ∧
      ∃ installed bound,
        draft.candidate? fragment = some (.unresolved installed) ∧
          draft.candidate? host = some (.bound bound) ∧
            installed ∈ bound.fragments
  joined : ∀ {id bound}, draft.candidate? id = some (.bound bound) →
    ∀ fragment ∈ bound.fragments,
      fragment ∈ carried bound.host ∨
        draft.hostOf? fragment.id = some id ∧
          draft.candidate? fragment.id = some (.unresolved fragment)

/-! ## What a host changes that takes on fragments -/

theorem unused_claimAll
    (draft : Draft) (host id : GenerationId) (fragments : List Generation) :
    (draft.claimAll host fragments).unused.contains id = true ↔
      draft.unused.contains id = true ∧
        ∀ fragment ∈ fragments, fragment.id ≠ id := by
  induction fragments generalizing draft with
  | nil => simp [claimAll]
  | cons first rest inductionHypothesis =>
      have later := inductionHypothesis (draft.claim first.id host)
      have claimed : (draft.claim first.id host).unused.contains id = true ↔
          first.id ≠ id ∧ draft.unused.contains id = true :=
        Roster.contains_erase _ _ _
      rw [claimed] at later
      refine later.trans ?_
      rw [List.forall_mem_cons]
      exact ⟨fun kept => ⟨kept.1.2, kept.1.1, kept.2⟩,
        fun kept => ⟨⟨kept.2.1, kept.1⟩, kept.2.2⟩⟩

theorem hostOf?_claimAll
    (draft : Draft) (host id : GenerationId) (fragments : List Generation) :
    (draft.claimAll host fragments).hostOf? id =
      if id ∈ fragments.map Generation.id then some host
      else draft.hostOf? id := by
  induction fragments generalizing draft with
  | nil => simp [claimAll]
  | cons first rest inductionHypothesis =>
      have later := inductionHypothesis (draft.claim first.id host)
      have claimed : (draft.claim first.id host).hostOf? id =
          if first.id = id then some host else draft.hostOf? id :=
        Table.find?_insert _ _ _ _
      rw [claimed] at later
      refine later.trans ?_
      rw [List.map_cons]
      by_cases inRest : id ∈ rest.map Generation.id
      · rw [if_pos inRest, if_pos (List.mem_cons_of_mem _ inRest)]
      · rw [if_neg inRest]
        by_cases same : first.id = id
        · rw [if_pos same, if_pos (by simp [same])]
        · have absent : id ∉ first.id :: rest.map Generation.id := by
            simp [Ne.symm same, inRest]
          rw [if_neg same, if_neg absent]

/-- A candidate is bound, or goes on to be, and some free fragments join it. -/
structure Enlarges (draft result : Draft) (candidate : Candidate)
    (new : BoundModule) (joined : List Generation) : Prop where
  found : draft.candidate? new.host.id = some candidate
  mayHost : candidate.MayHost
  free : ∀ fragment ∈ joined, draft.IsAvailable fragment
  host : new.host = candidate.generation
  fragments : new.fragments = candidate.fragments ++ joined
  candidates : result.candidates = draft.candidates.insert (.bound new)
  used : ∀ id, result.used.contains id = true ↔
    new.host.id = id ∨ draft.used.contains id = true
  unused : ∀ id, result.unused.contains id = true ↔
    (new.host.id ≠ id ∧ draft.unused.contains id = true) ∧
      ∀ fragment ∈ joined, fragment.id ≠ id
  attached : ∀ id, result.hostOf? id =
    if id ∈ joined.map Generation.id then some new.host.id
    else draft.hostOf? id

variable {carried : Generation → List Generation} {draft result : Draft}
  {candidate : Candidate} {new : BoundModule} {joined : List Generation}

namespace Enlarges

theorem candidate?_host
    (enlarges : draft.Enlarges result candidate new joined) :
    result.candidate? new.host.id = some (.bound new) := by
  unfold candidate?
  rw [enlarges.candidates, Roster.find?_insert, id_bound, if_pos rfl]

theorem candidate?_of_ne
    (enlarges : draft.Enlarges result candidate new joined)
    {id : GenerationId} (other : new.host.id ≠ id) :
    result.candidate? id = draft.candidate? id := by
  unfold candidate?
  rw [enlarges.candidates, Roster.find?_insert, id_bound, if_neg other]

/-- What is not bound was there before. -/
theorem candidate?_of_notBound
    (enlarges : draft.Enlarges result candidate new joined)
    {id : GenerationId} {other : Candidate}
    (notBound : ∀ bound, other ≠ .bound bound)
    (found : result.candidate? id = some other) :
    new.host.id ≠ id ∧ draft.candidate? id = some other := by
  have different : new.host.id ≠ id := by
    rintro rfl
    rw [enlarges.candidate?_host] at found
    exact notBound new (Option.some.inj found).symm
  exact ⟨different, (enlarges.candidate?_of_ne different).symm.trans found⟩

theorem id_ne_of_joined
    (enlarges : draft.Enlarges result candidate new joined)
    {fragment : Generation} (member : fragment ∈ joined) :
    new.host.id ≠ fragment.id := by
  intro same
  have free := enlarges.free fragment member
  have isCandidate : candidate = .unresolved fragment := by
    have hit := free.found
    rw [← same, enlarges.found] at hit
    exact Option.some.inj hit
  have isBundle := enlarges.mayHost fragment isCandidate
  rw [free.isFragment] at isBundle
  cases isBundle

/-- A fragment that joins stays as it is. -/
theorem candidate?_of_joined
    (enlarges : draft.Enlarges result candidate new joined)
    {fragment : Generation} (member : fragment ∈ joined) :
    result.candidate? fragment.id = some (.unresolved fragment) :=
  (enlarges.candidate?_of_ne (enlarges.id_ne_of_joined member)).trans
    (enlarges.free fragment member).found

/-- Only the fragments that join and their host begin to take part. -/
theorem unused_of_mayHost
    (enlarges : draft.Enlarges result candidate new joined)
    {id : GenerationId} {other : Candidate} (different : new.host.id ≠ id)
    (found : draft.candidate? id = some other) (mayHost : other.MayHost)
    (before : draft.unused.contains id = true) :
    result.unused.contains id = true := by
  refine (enlarges.unused id).2 ⟨⟨different, before⟩, ?_⟩
  rintro fragment member rfl
  have free := enlarges.free fragment member
  have isBundle := mayHost fragment
    (Option.some.inj (found.symm.trans free.found))
  rw [free.isFragment] at isBundle
  cases isBundle

end Enlarges

namespace IsBalanced

/-- A candidate that is no fragment is not attached. -/
theorem unattached
    (balanced : draft.IsBalanced carried) {id : GenerationId}
    (found : draft.candidate? id = some candidate)
    (mayHost : candidate.MayHost) : draft.hostOf? id = none := by
  cases attached : draft.hostOf? id with
  | none => rfl
  | some host =>
      obtain ⟨notUnused, installed, _, hit, _⟩ := balanced.claimed attached
      have same : candidate = .unresolved installed :=
        Option.some.inj (found.symm.trans hit)
      exact absurd (balanced.free hit (mayHost installed same)) notUnused

theorem id_ne_of_attached
    (balanced : draft.IsBalanced carried)
    (enlarges : draft.Enlarges result candidate new joined)
    {id host : GenerationId} (attached : draft.hostOf? id = some host) :
    new.host.id ≠ id := by
  rintro rfl
  rw [balanced.unattached enlarges.found enlarges.mayHost] at attached
  cases attached

/-- Whatever is attached belongs to the host that it has joined. -/
theorem claimed_of_enlarges
    (balanced : draft.IsBalanced carried)
    (enlarges : draft.Enlarges result candidate new joined)
    {fragment host : GenerationId}
    (attached : result.hostOf? fragment = some host) :
    ¬ result.unused.contains fragment = true ∧
      ∃ installed bound,
        result.candidate? fragment = some (.unresolved installed) ∧
          result.candidate? host = some (.bound bound) ∧
            installed ∈ bound.fragments := by
  rw [enlarges.attached] at attached
  split at attached
  · rename_i isJoined
    cases attached
    obtain ⟨joining, member, rfl⟩ := List.mem_map.1 isJoined
    refine ⟨fun isUnused =>
      ((enlarges.unused _).1 isUnused).2 joining member rfl,
      joining, new, enlarges.candidate?_of_joined member,
      enlarges.candidate?_host, ?_⟩
    rw [enlarges.fragments]
    exact List.mem_append_right _ member
  · obtain ⟨notUnused, installed, bound, hit, hostHit, member⟩ :=
      balanced.claimed attached
    have kept := enlarges.candidate?_of_ne
      (balanced.id_ne_of_attached enlarges attached)
    refine ⟨fun isUnused =>
      notUnused ((enlarges.unused fragment).1 isUnused).1.2, installed, ?_⟩
    by_cases isHost : new.host.id = host
    · subst isHost
      have same : candidate = .bound bound :=
        Option.some.inj (enlarges.found.symm.trans hostHit)
      refine ⟨new, kept.trans hit, enlarges.candidate?_host, ?_⟩
      rw [enlarges.fragments, same]
      exact List.mem_append_left _ member
    · exact ⟨bound, kept.trans hit,
        (enlarges.candidate?_of_ne isHost).trans hostHit, member⟩

theorem attached_of_enlarges
    (balanced : draft.IsBalanced carried)
    (enlarges : draft.Enlarges result candidate new joined)
    {fragment : Generation} {host : GenerationId}
    (before : draft.hostOf? fragment.id = some host ∧
      draft.candidate? fragment.id = some (.unresolved fragment)) :
    result.hostOf? fragment.id = some host ∧
      result.candidate? fragment.id = some (.unresolved fragment) := by
  have kept := enlarges.candidate?_of_ne
    (balanced.id_ne_of_attached enlarges before.1)
  refine ⟨?_, kept.trans before.2⟩
  rw [enlarges.attached, if_neg, before.1]
  intro isJoined
  obtain ⟨other, member, same⟩ := List.mem_map.1 isJoined
  have vacant := (enlarges.free other member).unattached
  rw [same, before.1] at vacant
  cases vacant

/-- A bound module has the fragments that it carried and those that are attached
to it. -/
theorem joined_of_enlarges
    (balanced : draft.IsBalanced carried)
    (enlarges : draft.Enlarges result candidate new joined)
    {id : GenerationId} {bound : BoundModule}
    (found : result.candidate? id = some (.bound bound))
    {fragment : Generation} (member : fragment ∈ bound.fragments) :
    fragment ∈ carried bound.host ∨
      result.hostOf? fragment.id = some id ∧
        result.candidate? fragment.id = some (.unresolved fragment) := by
  by_cases isHost : new.host.id = id
  · subst isHost
    rw [enlarges.candidate?_host] at found
    cases found
    rw [enlarges.fragments] at member
    rcases List.mem_append.1 member with own | added
    · have before := enlarges.found
      rw [enlarges.host] at before ⊢
      cases candidate with
      | unresolved installed => cases own
      | resolved wired => exact .inl ((balanced.resolved before).2 own)
      | bound binding =>
          exact (balanced.joined before fragment own).imp_right
            (balanced.attached_of_enlarges enlarges)
    · right
      refine ⟨?_, enlarges.candidate?_of_joined added⟩
      rw [enlarges.attached, if_pos (List.mem_map_of_mem added)]
  · rw [enlarges.candidate?_of_ne isHost] at found
    exact (balanced.joined found fragment member).imp_right
      (balanced.attached_of_enlarges enlarges)

/-- Free fragments that join a host that is no fragment itself leave the books
balanced. -/
theorem enlarge
    (balanced : draft.IsBalanced carried)
    (enlarges : draft.Enlarges result candidate new joined) :
    result.IsBalanced carried := by
  refine ⟨?_, ?_, ?_, ?_, ?_, balanced.claimed_of_enlarges enlarges,
    fun found _ => balanced.joined_of_enlarges enlarges found⟩
  · intro id isUsed isUnused
    obtain ⟨⟨different, before⟩, _⟩ := (enlarges.unused id).1 isUnused
    rcases (enlarges.used id).1 isUsed with isHost | wasUsed
    · exact different isHost
    · exact balanced.disjoint wasUsed before
  · intro id isUsed
    by_cases isHost : new.host.id = id
    · exact ⟨_, isHost ▸ enlarges.candidate?_host, by simp⟩
    · have wasUsed := ((enlarges.used id).1 isUsed).resolve_left isHost
      rw [enlarges.candidate?_of_ne isHost]
      exact balanced.used wasUsed
  · intro id isUnused
    obtain ⟨⟨different, before⟩, _⟩ := (enlarges.unused id).1 isUnused
    rw [enlarges.candidate?_of_ne different]
    exact balanced.unused before
  · intro id installed found isBundle
    obtain ⟨different, before⟩ := enlarges.candidate?_of_notBound (by simp)
      found
    refine enlarges.unused_of_mayHost different before ?_
      (balanced.free before isBundle)
    rintro other ⟨rfl⟩
    exact isBundle
  · intro id wired found
    obtain ⟨different, before⟩ := enlarges.candidate?_of_notBound (by simp)
      found
    obtain ⟨placed, within⟩ := balanced.resolved before
    refine ⟨placed.imp (fun wasUsed => (enlarges.used id).2 (.inr wasUsed))
      (enlarges.unused_of_mayHost different before ?_), within⟩
    rintro other ⟨⟩

/-- Whoever is bound or resolved may take part. -/
theorem use
    (balanced : draft.IsBalanced carried) {id : GenerationId}
    (found : draft.candidate? id = some candidate)
    (notUnresolved : ∀ installed, candidate ≠ .unresolved installed) :
    (draft.use id).IsBalanced carried := by
  have used : ∀ other, (draft.use id).used.contains other = true ↔
      id = other ∨ draft.used.contains other = true :=
    fun other => Roster.contains_insert _ _ _
  have unused : ∀ other, (draft.use id).unused.contains other = true ↔
      id ≠ other ∧ draft.unused.contains other = true :=
    fun other => Roster.contains_erase _ _ _
  refine ⟨?_, ?_, ?_, ?_, ?_, ?_, balanced.joined⟩
  · intro other isUsed isUnused
    obtain ⟨different, before⟩ := (unused other).1 isUnused
    have wasUsed := ((used other).1 isUsed).resolve_left different
    exact balanced.disjoint wasUsed before
  · intro other isUsed
    rcases (used other).1 isUsed with rfl | wasUsed
    · exact ⟨candidate, found, notUnresolved⟩
    · exact balanced.used wasUsed
  · intro other isUnused
    exact balanced.unused ((unused other).1 isUnused).2
  · intro other installed hit isBundle
    refine (unused other).2 ⟨?_, balanced.free hit isBundle⟩
    rintro rfl
    exact notUnresolved installed (Option.some.inj (found.symm.trans hit))
  · intro other wired hit
    obtain ⟨placed, within⟩ := balanced.resolved hit
    refine ⟨?_, within⟩
    by_cases same : id = other
    · exact .inl ((used other).2 (.inl same))
    · exact placed.imp (fun wasUsed => (used other).2 (.inr wasUsed))
        fun wasUnused => (unused other).2 ⟨same, wasUnused⟩
  · intro fragment host attached
    obtain ⟨notUnused, listed⟩ := balanced.claimed attached
    exact ⟨fun isUnused => notUnused ((unused fragment).1 isUnused).2,
      listed⟩

/-- The books do not depend on whose turn it is. -/
theorem schedule
    (balanced : draft.IsBalanced carried)
    (resolving : Option GenerationId) (settled queue : List GenerationId)
    (singletons : Table String GenerationId) :
    IsBalanced carried { draft with
      resolving := resolving, settled := settled, queue := queue
      singletons := singletons } :=
  ⟨balanced.disjoint, balanced.used, balanced.unused, balanced.free,
    balanced.resolved, balanced.claimed, balanced.joined⟩

/-- The module in charge may change its wiring. -/
theorem revise
    {bound : BoundModule} (balanced : draft.IsBalanced carried)
    (current : draft.resolvingBound? = some bound)
    (isUsed : draft.used.contains bound.host.id = true)
    (sameHost : new.host = bound.host)
    (sameFragments : new.fragments = bound.fragments) :
    (draft.put (.bound new)).IsBalanced carried := by
  have found := candidate?_of_resolvingBound? current
  rw [← sameHost] at found isUsed
  have notUnused := balanced.disjoint isUsed
  have enlarges : draft.Enlarges (draft.put (.bound new)) (.bound bound) new
      [] := {
    found := found
    mayHost := by rintro installed ⟨⟩
    free := by simp
    host := sameHost
    fragments := sameFragments.trans (List.append_nil _).symm
    candidates := rfl
    used := fun id => by
      refine ⟨.inr, ?_⟩
      rintro (rfl | wasUsed)
      · exact isUsed
      · exact wasUsed
    unused := fun id => by
      refine ⟨fun isUnused => ⟨⟨?_, isUnused⟩, by simp⟩,
        fun kept => kept.1.2⟩
      rintro rfl
      exact notUnused isUnused
    attached := fun _ => rfl }
  exact balanced.enlarge enlarges

/-- An untouched bundle is bound. -/
theorem enlist
    {id : GenerationId} {installed : Generation}
    (balanced : draft.IsBalanced carried)
    (found : draft.candidate? id = some (.unresolved installed))
    (notFragment : installed.isFragment = false) :
    ((draft.put (.bound (.of installed))).use id).IsBalanced carried := by
  have same : installed.id = id := id_of_candidate? found
  have enlarges : draft.Enlarges
      ((draft.put (.bound (.of installed))).use id) (.unresolved installed)
        (.of installed) [] := {
    found := same ▸ found
    mayHost := by
      rintro other ⟨rfl⟩
      exact notFragment
    free := by simp
    host := rfl
    fragments := rfl
    candidates := rfl
    used := fun other => by
      have inserted := Roster.contains_insert draft.used id other
      exact inserted.trans (by rw [← same]; rfl)
    unused := fun other => by
      have erased := Roster.contains_erase draft.unused id other
      refine erased.trans ?_
      rw [← same]
      exact ⟨fun kept => ⟨kept, by simp⟩, fun kept => kept.1⟩
    attached := fun _ => rfl }
  exact balanced.enlarge enlarges

theorem engage
    {id : GenerationId} (balanced : draft.IsBalanced carried)
    (engaged : draft.Engaged id result)
    (found : draft.candidate? id = some candidate)
    (mayHost : candidate.MayHost) : result.IsBalanced carried := by
  cases engaged with
  | already _ => exact balanced
  | use notUnresolved =>
      refine balanced.use found ?_
      intro installed same
      exact notUnresolved installed (same ▸ found)
  | @enlist installed singletons hit =>
      have isBundle := mayHost installed
        (Option.some.inj (found.symm.trans hit))
      exact (balanced.enlist hit isBundle).schedule _ _ _ _

end IsBalanced

end Draft

namespace Search

variable {search : Search} {carried : Generation → List Generation}

/-- Fragments that a fresh host takes on join it. -/
theorem isBalanced_of_bind
    {draft result : Draft} {installed : Generation}
    {joined : List Generation} {new : BoundModule}
    (balanced : draft.IsBalanced carried)
    (isUsed : draft.used.contains installed.id = true)
    (binds : draft.Binds result installed joined new) :
    result.IsBalanced carried := by
  have sameHost : new.host = installed := binds.taken.host
  have notUnused := balanced.disjoint isUsed
  have kept : result.used = draft.used := by
    rw [binds.annotated]
    rfl
  have enlarges : draft.Enlarges result (.bound (.of installed)) new
      joined := {
    found := by
      rw [sameHost]
      exact binds.found
    mayHost := by rintro other ⟨⟩
    free := binds.free
    host := sameHost
    fragments := binds.taken.fragments
    candidates := by
      rw [binds.annotated]
      rfl
    used := fun id => by
      rw [kept, sameHost]
      refine ⟨.inr, ?_⟩
      rintro (rfl | wasUsed)
      · exact isUsed
      · exact wasUsed
    unused := fun id => by
      rw [binds.same, sameHost]
      refine (Draft.unused_claimAll _ _ _ _).trans ?_
      refine and_congr_left fun _ => ⟨fun isUnused => ⟨?_, isUnused⟩,
        fun before => before.2⟩
      rintro rfl
      exact notUnused isUnused
    attached := fun id => by
      rw [binds.same, sameHost]
      exact Draft.hostOf?_claimAll _ _ _ _ }
  exact balanced.enlarge enlarges

/-- A fragment that is attached joins its host. -/
theorem isBalanced_of_attach
    {draft result : Draft} {fragment host : Generation}
    {candidate : Candidate} {base new : BoundModule}
    (balanced : draft.IsBalanced carried) (untouched : draft.IsUntouched)
    (known : draft.candidate? fragment.id = some (.unresolved fragment))
    (isFragment : fragment.isFragment = true)
    (notFragment : candidate.generation.isFragment = false)
    (attaches : draft.Attaches result fragment host candidate base new) :
    result.IsBalanced carried := by
  have vacant : draft.hostOf? fragment.id = none := by
    cases attached : draft.hostOf? fragment.id with
    | none => rfl
    | some other =>
        obtain ⟨_, _, bound, _, hit, _⟩ := balanced.claimed attached
        exact absurd hit (untouched other bound)
  have available : draft.IsAvailable fragment := ⟨known, isFragment, vacant⟩
  have hostId := attaches.id_host
  have carries : base.fragments = candidate.fragments := by
    cases attaches.opened <;> rfl
  let claimed := (draft.openHost new host.id).claim fragment.id host.id
  have enlarges : draft.Enlarges claimed candidate new [fragment] := {
    found := hostId ▸ attaches.found
    mayHost := by
      rintro installed rfl
      exact notFragment
    free := by simpa using available
    host := attaches.host_eq
    fragments := carries ▸ attaches.taken.fragments
    candidates := rfl
    used := fun id => by
      rw [hostId]
      exact Roster.contains_insert _ _ _
    unused := fun id => by
      have unclaimed := Draft.unused_claimAll (draft.openHost new host.id)
        host.id id [fragment]
      refine unclaimed.trans (and_congr_left fun _ => ?_)
      rw [hostId]
      exact Roster.contains_erase _ _ _
    attached := fun id => by
      rw [hostId]
      exact Draft.hostOf?_claimAll (draft.openHost new host.id) host.id id
        [fragment] }
  rw [attaches.same]
  exact (balanced.enlarge enlarges).schedule _ _ _ _

/-- Every decision leaves the books balanced. -/
theorem isBalanced_of_decision
    {node result : Node} (scheduled : Scheduled node)
    (decision : Decision search node result)
    (balanced : node.draft.IsBalanced carried) :
    result.draft.IsBalanced carried := by
  have isUsed : ∀ {bound : BoundModule},
      node.draft.resolvingBound? = some bound →
        node.draft.used.contains bound.host.id = true :=
    fun current => scheduled.used (Draft.candidate?_of_resolvingBound? current)
  cases decision with
  | idle _ => exact balanced
  | attach resolving found isFragment offered done =>
      obtain ⟨untouched, _, _⟩ := scheduled.untouched_of_start resolving found
      obtain ⟨_, _, _, notFragment, attaches⟩ :=
        scheduled.exists_attaches resolving found offered done
      exact isBalanced_of_attach balanced untouched found isFragment
        notFragment attaches
  | bind resolving found notFragment chosen done =>
      obtain ⟨_, _, current, binds⟩ :=
        scheduled.exists_binds resolving found notFragment chosen done
      exact isBalanced_of_bind balanced (isUsed current) binds
  | toImports _ _ => exact balanced
  | leaveRequire current _ _ =>
      exact balanced.revise current (isUsed current) rfl rfl
  | @provide draft middle bound require rest provider current _ offered _
      engaged =>
      obtain ⟨known, other, _⟩ := mem_requireChoices offered
      obtain ⟨candidate, found, _⟩ := Option.map_eq_some_iff.1 known
      have engagedBalanced := balanced.engage engaged found
        (fun installed isCandidate =>
          notFragment_of_mem_requireChoices offered installed
            (isCandidate ▸ found))
      exact engagedBalanced.revise
        ((engaged.resolvingBound? other).trans current)
        (engaged.used (isUsed current)) rfl rfl
  | leaveImport current _ _ =>
      exact balanced.revise current (isUsed current) rfl rfl
  | @wire draft middle bound requirement rest choice current _ _ _ offered _
      engaged =>
      obtain ⟨candidate, found, _⟩ := exists_offer_of_mem_wireChoices offered
      have engagedBalanced := balanced.engage engaged found
        (fun installed isCandidate =>
          notFragment_of_mem_wireChoices offered installed
            (isCandidate ▸ found))
      have other := ne_resolving_of_mem_wireChoices offered
      exact engagedBalanced.revise
        ((engaged.resolvingBound? other).trans current)
        (engaged.used (isUsed current)) rfl rfl
  | settle through =>
      obtain ⟨_, _, resolving, found, _⟩ := scheduled.exists_of_settle through
      rw [scheduled.settle_eq resolving found]
      cases Draft.queue _ with
      | nil => exact balanced.schedule _ _ _ _
      | cons next rest => exact balanced.schedule _ _ _ _

theorem isBalanced_of_line
    {node final : Node} (line : search.problem.Line node final)
    (scheduled : Scheduled node)
    (balanced : node.draft.IsBalanced carried) :
    final.draft.IsBalanced carried :=
  invariant_of_line line scheduled balanced
    fun _ before decision holds =>
      isBalanced_of_decision before decision holds

end Search

/-! ## The books of a first draft -/

namespace Draft

variable {store : Store} {generations : List Generation}
  {carried : Generation → List Generation} {middle draft : Draft}

/-- Nothing of a pool takes part, and no fragment has a host. -/
theorem unused_of_pool
    (done : pool store generations = .ok draft) :
    draft.used = ∅ ∧ draft.attached = ∅ ∧
      ∀ id, draft.unused.contains id = true ↔
        (draft.candidate? id).isSome = true := by
  refine pool_induction (fun draft => draft.used = ∅ ∧ draft.attached = ∅ ∧
    ∀ id, draft.unused.contains id = true ↔
      (draft.candidate? id).isSome = true) ⟨rfl, rfl, fun _ => Iff.rfl⟩ ?_ done
  rintro before result generation _ ⟨used, attached, unused⟩ addition
  rcases eq_of_addCandidate addition with
    rfl | ⟨candidate, rfl, _, _, same⟩
  · exact ⟨used, attached, unused⟩
  · rw [same]
    refine ⟨used, attached, fun id => ?_⟩
    change (before.unused.insert candidate.generation.id).contains id =
      true ↔ ((before.put candidate).candidate? id).isSome = true
    rw [Roster.contains_insert, candidate?_put, unused id]
    change candidate.id = id ∨ _ ↔ _
    by_cases isNew : candidate.id = id <;> simp [isNew]

theorem unused_of_candidate?
    (pooled : pool store generations = .ok middle) {id : GenerationId}
    {candidate : Candidate} (found : middle.candidate? id = some candidate) :
    middle.unused.contains id = true := by
  rw [(unused_of_pool pooled).2.2, found]
  rfl

/-- What a pool knows of a resolved generation comes from the store. -/
theorem carried_of_pool
    (pooled : pool store generations = .ok middle)
    (carries : ∀ generation, (store.state generation).isResolved = true →
      store.fragments generation ⊆ carried generation)
    {id : GenerationId} {wired : ResolvedModule}
    (found : middle.candidate? id = some (.resolved wired)) :
    wired.fragments ⊆ carried wired.generation := by
  cases ((isPool_of_pool pooled).given found).2 with
  | resolved isResolved _ => exact carries _ isResolved

/-- A pool with a candidate put in charge, a fragment that waits for a host or a
module with the fragments that it had before, is balanced. -/
theorem isBalanced_of_placed
    {candidate : Candidate}
    (pooled : pool store generations = .ok middle)
    (carries : ∀ generation, (store.state generation).isResolved = true →
      store.fragments generation ⊆ carried generation)
    (waits : ∀ installed, candidate = .unresolved installed →
      installed.isFragment = true)
    (within : ∀ bound, candidate = .bound bound →
      bound.fragments ⊆ carried bound.host)
    (notResolved : ∀ wired, candidate ≠ .resolved wired)
    (candidates : draft.candidates = middle.candidates.insert candidate)
    (used : ∀ {id}, draft.used.contains id = true →
      candidate.id = id ∧ ∀ installed, candidate ≠ .unresolved installed)
    (unused : draft.unused = middle.unused.erase candidate.id)
    (attached : draft.attached = middle.attached) :
    draft.IsBalanced carried := by
  obtain ⟨_, noneAttached, isUnusedBefore⟩ := unused_of_pool pooled
  have isPool := isPool_of_pool pooled
  have found : ∀ id, draft.candidate? id =
      if candidate.id = id then some candidate
      else middle.candidate? id := by
    intro id
    unfold candidate?
    rw [candidates, Roster.find?_insert]
  have isUnused : ∀ id, draft.unused.contains id = true ↔
      candidate.id ≠ id ∧ middle.unused.contains id = true := by
    intro id
    rw [unused]
    exact Roster.contains_erase _ _ _
  refine ⟨?_, ?_, ?_, ?_, ?_, ?_, ?_⟩
  · intro id member other
    exact ((isUnused id).1 other).1 (used member).1
  · intro id member
    obtain ⟨same, notUnresolved⟩ := used member
    exact ⟨candidate, by rw [found, if_pos same], notUnresolved⟩
  · intro id member
    obtain ⟨different, before⟩ := (isUnused id).1 member
    obtain ⟨other, hit⟩ :=
      Option.isSome_iff_exists.1 ((isUnusedBefore id).1 before)
    refine ⟨other, by rw [found, if_neg different, hit], ?_⟩
    rintro binding rfl
    exact isPool.untouched id binding hit
  · intro id installed hit isBundle
    rw [found] at hit
    split at hit
    · have isFragment := waits installed (Option.some.inj hit)
      rw [isBundle] at isFragment
      cases isFragment
    · rename_i different
      exact (isUnused id).2 ⟨different, unused_of_candidate? pooled hit⟩
  · intro id wired hit
    rw [found] at hit
    split at hit
    · exact absurd (Option.some.inj hit) (notResolved wired)
    · rename_i different
      exact ⟨.inr ((isUnused id).2
        ⟨different, unused_of_candidate? pooled hit⟩),
        carried_of_pool pooled carries hit⟩
  · intro fragment host isAttached
    unfold hostOf? at isAttached
    rw [attached, noneAttached] at isAttached
    cases isAttached
  · intro id binding hit fragment member
    rw [found] at hit
    split at hit
    · exact .inl (within binding (Option.some.inj hit) member)
    · exact absurd hit (isPool.untouched id binding)

theorem isBalanced_of_bound
    {bound : BoundModule}
    (pooled : pool store generations = .ok middle)
    (carries : ∀ generation, (store.state generation).isResolved = true →
      store.fragments generation ⊆ carried generation)
    (within : bound.fragments ⊆ carried bound.host)
    (candidates : draft.candidates = middle.candidates.insert (.bound bound))
    (used : draft.used = middle.used.insert bound.host.id)
    (unused : draft.unused = middle.unused.erase bound.host.id)
    (attached : draft.attached = middle.attached) :
    draft.IsBalanced carried := by
  refine isBalanced_of_placed pooled carries (by simp) ?_ (by simp)
    candidates ?_ unused attached
  · rintro binding ⟨rfl⟩
    exact within
  · intro id member
    rw [used, (unused_of_pool pooled).1] at member
    have isHost := (Roster.contains_insert _ _ _).1 member
    exact ⟨isHost.resolve_right nofun, by simp⟩

/-- A search for a wiring starts with balanced books. -/
theorem isBalanced_of_initial
    {target : Generation}
    (carries : ∀ generation, (store.state generation).isResolved = true →
      store.fragments generation ⊆ carried generation)
    (done : initial store generations target = .ok draft) :
    draft.IsBalanced carried := by
  obtain ⟨middle, pooled, ⟨isFragment, same⟩ | ⟨_, same⟩⟩ :=
    exists_of_initial done
  · have noneUsed : ∀ {id}, ¬ draft.used.contains id = true := by
      rw [same]
      change ∀ {id}, ¬ middle.used.contains id = true
      rw [(unused_of_pool pooled).1]
      exact nofun
    have waits : ∀ installed,
        Candidate.unresolved target = .unresolved installed →
          installed.isFragment = true := by
      rintro installed ⟨rfl⟩
      exact isFragment
    exact isBalanced_of_placed pooled carries waits (by simp) (by simp)
      (by rw [same]; rfl) (fun member => absurd member noneUsed)
      (by rw [same]; rfl) (by rw [same]; rfl)
  · rw [same]
    exact isBalanced_of_bound pooled carries (List.nil_subset _) rfl rfl rfl
      rfl

/-- A search for a dynamic import starts with balanced books. -/
theorem isBalanced_of_forDynamicImport
    {host : Generation} {imports : List PackageImport}
    (carries : ∀ generation,
      (store.state generation).isResolved = true ∨ generation = host →
        store.fragments generation ⊆ carried generation)
    (done : forDynamicImport store generations host imports = .ok draft) :
    draft.IsBalanced carried := by
  obtain ⟨middle, reopened, pooled, sameId, origin, same⟩ :=
    exists_of_forDynamicImport done
  have within : store.fragments reopened ⊆ carried reopened :=
    carries reopened (origin.imp_left And.right)
  rw [same, ← sameId]
  exact isBalanced_of_bound pooled
    (fun generation isResolved => carries generation (.inl isResolved))
    within rfl rfl rfl rfl

end Draft

end ModuleWiring
