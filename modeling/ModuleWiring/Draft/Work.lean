import ModuleWiring.Draft.Transition

/-!
# The work left in a draft

Every decision takes work off a draft: deciding a requirement takes it off the
list, a candidate that is bound brings the requirements that it was counted for,
and a fragment brings no more to its host than it weighed itself.
-/

namespace ModuleWiring

def Generation.demands (generation : Generation) : Nat :=
  generation.imports.length + generation.manifest.requires.length

/-- The number of requirements that a bound module has to decide. -/
def BoundModule.pending (bound : BoundModule) : Nat :=
  bound.imports.length + bound.requires.length

namespace Draft

/-- What a candidate adds to the work of a search. An untouched one can be bound
and queued, unless it is a fragment that has gone to its host. -/
def weight (attached : Table GenerationId GenerationId) :
    Candidate → Nat
  | .unresolved installed =>
      if installed.isFragment && attached.contains installed.id then 0
      else installed.demands + 3
  | .resolved _ => 0
  | .bound binding => binding.pending

/-- The work that all candidates together stand for. -/
def load (draft : Draft) : Nat :=
  draft.candidates.total (weight draft.attached)

def work (draft : Draft) : Nat :=
  draft.load + 2 * draft.queue.length +
    if draft.resolving.isSome then 1 else 0

theorem load_put {draft : Draft} {candidate old : Candidate}
    (found : draft.candidate? candidate.id = some old) :
    (draft.put candidate).load + weight draft.attached old =
      draft.load + weight draft.attached candidate :=
  Roster.total_insert (weight draft.attached) found

theorem candidate?_put (draft : Draft) (candidate : Candidate)
    (id : GenerationId) :
    (draft.put candidate).candidate? id =
      if candidate.id = id then some candidate else draft.candidate? id :=
  Roster.find?_insert draft.candidates candidate id

/-- A candidate that is put into its own place changes nothing. -/
theorem put_of_candidate?
    {draft : Draft} {candidate : Candidate} {id : GenerationId}
    (found : draft.candidate? id = some candidate) :
    draft.put candidate = draft := by
  have same : candidate.id = id := id_of_candidate? found
  unfold put
  rw [Roster.insert_of_find? (same ▸ found)]

theorem id_bound (bound : BoundModule) :
    (Candidate.bound bound).id = bound.host.id :=
  rfl

theorem exists_of_resolvingBound? {draft : Draft} {bound : BoundModule}
    (found : draft.resolvingBound? = some bound) :
    ∃ id, draft.resolving = some id ∧
      draft.candidate? id = some (.bound bound) := by
  obtain ⟨id, resolving, hit⟩ := Option.bind_eq_some_iff.1 found
  exact ⟨id, resolving, candidate?_of_bound? hit⟩

theorem candidate?_of_resolvingBound? {draft : Draft} {bound : BoundModule}
    (found : draft.resolvingBound? = some bound) :
    draft.candidate? bound.host.id = some (.bound bound) := by
  obtain ⟨id, _, hit⟩ := exists_of_resolvingBound? found
  have same : bound.host.id = id := id_of_candidate? hit
  rw [same, hit]

theorem work_put_bound {draft : Draft} {old : BoundModule}
    (found : draft.candidate? old.host.id = some (.bound old))
    (new : BoundModule) (sameHost : new.host = old.host) :
    (draft.put (.bound new)).work + old.pending =
      draft.work + new.pending := by
  have member :
      draft.candidate? (Candidate.bound new).id = some (.bound old) := by
    rw [id_bound, sameHost]
    exact found
  have change := load_put member
  simp only [weight] at change
  have queue : (draft.put (.bound new)).queue = draft.queue := rfl
  have resolving : (draft.put (.bound new)).resolving = draft.resolving := rfl
  unfold work
  rw [queue, resolving]
  omega

theorem work_skipRequire {draft : Draft} {require : Require}
    (next : draft.nextRequire? = some require) :
    draft.skipRequire.work < draft.work := by
  obtain ⟨bound, resolving, head⟩ := Option.bind_eq_some_iff.1 next
  have change := work_put_bound (candidate?_of_resolvingBound? resolving)
    { bound with requires := bound.requires.tail } rfl
  cases requires : bound.requires with
  | nil => simp [requires] at head
  | cons first rest =>
      simp only [skipRequire, changeResolving, resolving]
      simp only [BoundModule.pending, requires, List.tail_cons,
        List.length_cons] at change ⊢
      omega

theorem work_skipImport {draft : Draft} {bound : BoundModule}
    (resolving : draft.resolvingBound? = some bound)
    (nonempty : bound.imports ≠ []) :
    draft.skipImport.work < draft.work := by
  have change := work_put_bound (candidate?_of_resolvingBound? resolving)
    { bound with imports := bound.imports.tail } rfl
  cases imports : bound.imports with
  | nil => exact absurd imports nonempty
  | cons first rest =>
      simp only [skipImport, changeResolving, resolving]
      simp only [BoundModule.pending, imports, List.tail_cons,
        List.length_cons] at change ⊢
      omega

theorem work_acceptRequire {draft : Draft} {id : GenerationId}
    {candidate : Candidate} {require : Require}
    (provider : draft.candidate? id = some candidate)
    (next : draft.nextRequire? = some require) :
    (draft.acceptRequire id).work < draft.work := by
  obtain ⟨bound, resolving, head⟩ := Option.bind_eq_some_iff.1 next
  have found := candidate?_of_resolvingBound? resolving
  cases requires : bound.requires with
  | nil => simp [requires] at head
  | cons first rest =>
      have generation : draft.generation? id = some candidate.generation := by
        simp [generation?, provider]
      simp only [acceptRequire, generation, resolving, requires]
      have change := work_put_bound found
        ({ bound with requires := rest }.addProvision
          ⟨first, candidate.generation⟩
          (if first.isReexport then draft.visible candidate.generation
            else [])) rfl
      simp only [BoundModule.pending, BoundModule.addProvision, requires,
        List.length_cons] at change ⊢
      omega

theorem work_use (draft : Draft) (id : GenerationId) :
    (draft.use id).work = draft.work :=
  rfl

/-- Registering a singleton leaves all else as it is. -/
theorem registerSingleton_eq {draft result : Draft} {generation : Generation}
    (done : draft.registerSingleton generation = .ok result) :
    result = { draft with singletons := result.singletons } := by
  unfold registerSingleton at done
  simp only at done
  split at done
  · split at done
    · cases done; rfl
    · split at done
      · cases done; rfl
      · cases done
  · cases done; rfl

theorem enlist_eq {draft result : Draft} {id : GenerationId}
    {installed : Generation}
    (found : draft.candidate? id = some (.unresolved installed))
    (done : draft.enlist id = .ok result) :
    result.candidates =
        draft.candidates.insert (.bound (BoundModule.of installed)) ∧
      result.attached = draft.attached ∧
      result.queue = draft.queue ++ [id] ∧
      result.resolving = draft.resolving := by
  simp only [enlist, found] at done
  cases registered : draft.registerSingleton installed with
  | error conflict =>
      rw [registered] at done
      cases done
  | ok draftAfter =>
      rw [registered] at done
      cases done
      rw [registerSingleton_eq registered]
      exact ⟨rfl, rfl, rfl, rfl⟩

theorem work_enlist {draft result : Draft} {id : GenerationId}
    {installed : Generation}
    (found : draft.candidate? id = some (.unresolved installed))
    (notFragment : installed.isFragment = false)
    (done : draft.enlist id = .ok result) :
    result.work < draft.work := by
  obtain ⟨candidates, attached, queue, resolving⟩ := enlist_eq found done
  have same : installed.id = id := id_of_candidate? found
  have member : draft.candidates.find?
      (Candidate.bound (BoundModule.of installed)).id =
        some (.unresolved installed) := by
    rw [id_bound]
    exact same ▸ found
  have change := Roster.total_insert (weight draft.attached) member
  simp only [weight, notFragment, Bool.false_and, Bool.false_eq_true,
    if_false] at change
  have pending : (BoundModule.of installed).pending = installed.demands := rfl
  unfold work load
  rw [candidates, attached, queue, resolving, List.length_append,
    List.length_singleton]
  omega

theorem candidate?_enlist {draft result : Draft} {id other : GenerationId}
    {installed : Generation}
    (found : draft.candidate? id = some (.unresolved installed))
    (done : draft.enlist id = .ok result) (different : id ≠ other) :
    result.candidate? other = draft.candidate? other := by
  obtain ⟨candidates, _, _, _⟩ := enlist_eq found done
  have same : installed.id = id := id_of_candidate? found
  unfold candidate?
  rw [candidates, Roster.find?_insert, id_bound]
  have : ¬ (BoundModule.of installed).host.id = other := by
    intro equality
    exact different (same.symm.trans equality)
  rw [if_neg this]

/-- The module in charge stays the same where only somebody else changes. -/
theorem resolvingBound?_eq_of_others {draft result : Draft}
    {id : GenerationId}
    (resolving : result.resolving = draft.resolving)
    (others : ∀ other, id ≠ other →
      result.candidate? other = draft.candidate? other)
    (busy : draft.resolving ≠ some id) :
    result.resolvingBound? = draft.resolvingBound? := by
  unfold resolvingBound?
  rw [resolving]
  cases current : draft.resolving with
  | none => rfl
  | some currentId =>
      have different : id ≠ currentId := by
        rintro rfl
        exact busy current
      simp only [Option.bind_some, bound?, others currentId different]

theorem resolvingBound?_enlist {draft result : Draft} {id : GenerationId}
    {installed : Generation}
    (found : draft.candidate? id = some (.unresolved installed))
    (done : draft.enlist id = .ok result)
    (other : draft.resolving ≠ some id) :
    result.resolvingBound? = draft.resolvingBound? := by
  obtain ⟨_, _, _, resolving⟩ := enlist_eq found done
  exact resolvingBound?_eq_of_others resolving
    (fun _ different => candidate?_enlist found done different) other

theorem work_engage {draft result : Draft} {id : GenerationId}
    (notFragment : ∀ installed,
      draft.candidate? id = some (.unresolved installed) →
        installed.isFragment = false)
    (done : draft.engage id = .ok result) :
    result.work ≤ draft.work := by
  unfold engage at done
  split at done
  · rename_i installed found
    exact Nat.le_of_lt (work_enlist found (notFragment installed found) done)
  · cases done
    split
    · exact Nat.le_of_eq (work_use draft id)
    · exact Nat.le_refl _
  · cases done
    exact Nat.le_refl _

theorem resolvingBound?_engage {draft result : Draft} {id : GenerationId}
    (other : draft.resolving ≠ some id)
    (done : draft.engage id = .ok result) :
    result.resolvingBound? = draft.resolvingBound? := by
  unfold engage at done
  split at done
  · rename_i installed found
    exact resolvingBound?_enlist found done other
  · cases done
    split <;> rfl
  · cases done
    rfl

theorem work_addWiring {draft : Draft} {bound new : BoundModule}
    {requirement : PackageImport} {rest : List PackageImport} {wire : Wire}
    (resolving : draft.resolvingBound? = some bound)
    (imports : bound.imports = requirement :: rest)
    (added : { bound with imports := rest }.addWiring wire = .ok new) :
    (draft.put (.bound new)).work < draft.work := by
  unfold BoundModule.addWiring at added
  split at added
  · cases added
  · cases added
    have change := work_put_bound (candidate?_of_resolvingBound? resolving)
      { bound with
        imports := rest
        wirings := bound.wirings.insert wire.package wire
        offers := bound.offers.filter (·.package ≠ wire.package) } rfl
    simp only [BoundModule.pending, imports, List.length_cons] at change ⊢
    omega

theorem work_wire {draft result : Draft} {exporter : Generation}
    {declared : Export} {bound : BoundModule}
    (notFragment : ∀ installed,
      draft.candidate? exporter.id = some (.unresolved installed) →
        installed.isFragment = false)
    (other : draft.resolving ≠ some exporter.id)
    (resolving : draft.resolvingBound? = some bound)
    (nonempty : bound.imports ≠ [])
    (done : draft.wire exporter declared = .ok result) :
    result.work < draft.work := by
  unfold wire at done
  cases engaged : draft.engage exporter.id with
  | error conflict =>
      rw [engaged] at done
      cases done
  | ok middle =>
      have less := work_engage notFragment engaged
      have kept := resolvingBound?_engage other engaged
      rw [resolving] at kept
      simp only [engaged, bind, Except.bind, kept] at done
      split at done
      · rename_i empty
        exact absurd empty nonempty
      · rename_i requirement rest imports
        split at done
        · cases done
        · rename_i new added
          cases done
          exact Nat.lt_of_lt_of_le (work_addWiring kept imports added) less

/-- What a bound module has to decide after it has taken on a fragment. -/
theorem pending_attach {bound new : BoundModule} {fragment : Generation}
    (done : bound.attach fragment = .ok new) :
    new.host = bound.host ∧
      new.pending ≤ bound.pending + fragment.demands := by
  have shorter : ∀ (requirements imports : List PackageImport),
      bound.pendingImports fragment requirements = .ok imports →
        imports.length ≤ requirements.length := by
    intro requirements
    induction requirements with
    | nil =>
        intro imports listed
        cases listed
        exact Nat.le_refl _
    | cons requirement rest ih =>
        intro imports listed
        rw [BoundModule.pendingImports] at listed
        split at listed
        · cases later : bound.pendingImports fragment rest with
          | error conflict =>
              rw [later] at listed
              cases listed
          | ok remaining =>
              rw [later] at listed
              cases listed
              exact Nat.succ_le_succ (ih remaining later)
        · split at listed
          · exact Nat.le_succ_of_le (ih imports listed)
          · cases listed
  unfold BoundModule.attach at done
  simp only [bind, Except.bind, pure, Except.pure] at done
  split at done
  · cases done
  · split at done
    · cases done
    · rename_i imports listed
      cases done
      refine ⟨rfl, ?_⟩
      have few := shorter _ _ listed
      have requires : (bound.pendingRequires fragment).length ≤
          fragment.manifest.requires.length := List.length_filter_le _ _
      simp only [BoundModule.pending, Generation.demands,
        List.length_append]
      omega

/-- A fragment that no host has claimed. -/
def IsFree (draft : Draft) (id : GenerationId) : Prop :=
  ∃ generation, draft.candidate? id = some (.unresolved generation) ∧
    generation.isFragment = true ∧ draft.attached.contains id = false

theorem weight_eq_of_ne {attached : Table GenerationId GenerationId}
    {fragment host : GenerationId} {candidate : Candidate}
    (different : candidate.id ≠ fragment) :
    weight (attached.insert fragment host) candidate =
      weight attached candidate := by
  cases candidate with
  | unresolved installed =>
      have other : ¬ fragment = installed.id :=
        fun same => different same.symm
      simp [weight, Table.contains, Table.find?_insert, other]
  | resolved wired => rfl
  | bound binding => rfl

theorem load_claim {draft : Draft} {fragment host : GenerationId}
    {generation : Generation}
    (found : draft.candidate? fragment = some (.unresolved generation))
    (isFragment : generation.isFragment = true)
    (free : draft.attached.contains fragment = false) :
    (draft.claim fragment host).load + (generation.demands + 3) =
      draft.load := by
  have same : generation.id = fragment := id_of_candidate? found
  have others : ∀ candidate ∈ draft.candidates.members,
      candidate.id ≠ (Candidate.unresolved generation).id →
        weight (draft.attached.insert fragment host) candidate =
          weight draft.attached candidate :=
    fun candidate _ different =>
      weight_eq_of_ne fun equality => different (equality.trans same.symm)
  have change := Roster.total_change (mem_of_candidate? found) others
  have before : weight draft.attached (.unresolved generation) =
      generation.demands + 3 := by
    simp [weight, same, free]
  have after : weight (draft.attached.insert fragment host)
      (.unresolved generation) = 0 := by
    simp [weight, same, isFragment, Table.contains, Table.find?_insert]
  rw [before, after] at change
  exact change

theorem isFree_claim {draft : Draft} {fragment host id : GenerationId}
    (free : draft.IsFree id) (different : fragment ≠ id) :
    (draft.claim fragment host).IsFree id := by
  obtain ⟨generation, found, isFragment, unclaimed⟩ := free
  refine ⟨generation, found, isFragment, ?_⟩
  simpa [claim, Table.contains, Table.find?_insert, different] using unclaimed

/-- Attaching free fragments moves their requirements to the host and leaves all
else as it is. -/
theorem load_attachAll {host : Candidate} {fragments : List GenerationId}
    {draft result : Draft} {bound new : BoundModule}
    (free : ∀ id ∈ fragments, draft.IsFree id)
    (distinct : fragments.Nodup)
    (done : attachAll host fragments draft bound = .ok (result, new)) :
    result.load + new.pending ≤ draft.load + bound.pending ∧
      new.host = bound.host ∧ result.candidates = draft.candidates ∧
        result.queue = draft.queue ∧ result.resolving = draft.resolving := by
  induction fragments generalizing draft bound with
  | nil =>
      cases done
      exact ⟨Nat.le_refl _, rfl, rfl, rfl, rfl⟩
  | cons fragment rest ih =>
      rw [List.nodup_cons] at distinct
      obtain ⟨generation, found, isFragment, unclaimed⟩ :=
        free fragment List.mem_cons_self
      have present : draft.generation? fragment = some generation := by
        simp [generation?, found, Candidate.generation]
      simp only [attachAll, present, Except.bind, Bind.bind] at done
      split at done
      · cases done
      · split at done
        · cases done
        · rename_i middle attached
          obtain ⟨sameHost, grown⟩ := pending_attach attached
          have claimed : (draft.claim fragment host.id).load +
              (generation.demands + 3) = draft.load :=
            load_claim found isFragment unclaimed
          obtain ⟨less, hostKept, candidates, queue, resolving⟩ := ih
            (fun id member => isFree_claim
              (free id (List.mem_cons_of_mem _ member))
              (fun equality => distinct.1 (by rwa [equality])))
            distinct.2 done
          refine ⟨?_, hostKept.trans sameHost, candidates, queue, resolving⟩
          omega

theorem work_bindFragments {draft result : Draft} {host : GenerationId}
    {fragments : List GenerationId}
    (free : ∀ id ∈ fragments, draft.IsFree id)
    (distinct : fragments.Nodup)
    (done : draft.bindFragments host fragments = .ok result) :
    result.work ≤ draft.work := by
  unfold bindFragments at done
  split at done
  · rename_i binding found
    simp only [Except.bind, Bind.bind] at done
    split at done
    · cases done
    · rename_i pair attached
      obtain ⟨middle, new⟩ := pair
      cases done
      obtain ⟨less, sameHost, candidates, queue, resolving⟩ :=
        load_attachAll free distinct attached
      have hostId : binding.host.id = host := id_of_candidate? found
      have change := work_put_bound
        (show middle.candidate? binding.host.id = some (.bound binding) by
          rw [candidate?, candidates, hostId]
          exact found) new sameHost
      have sameWork : middle.work + draft.load = draft.work + middle.load := by
        unfold work
        rw [queue, resolving]
        omega
      exact Nat.le_of_add_le_add_right (b := draft.load + binding.pending) (by
        change (middle.put (.bound new)).work + _ ≤ _
        omega)
  · cases done
    exact Nat.le_refl _

/-- Opening a host for a fragment brings at most the fragment's requirements,
which the fragment itself was counted for. -/
theorem work_claim_put {draft : Draft} {fragment host : GenerationId}
    {generation : Generation} {old : Candidate} {new : BoundModule}
    (found : draft.candidate? fragment = some (.unresolved generation))
    (isFragment : generation.isFragment = true)
    (unclaimed : draft.attached.contains fragment = false)
    (hostFound : draft.candidate? host = some old)
    (notFragment : old.generation.isFragment = false)
    (sameHost : new.host = old.generation)
    (grown : new.pending ≤
      weight draft.attached old + generation.demands) :
    ((draft.put (.bound new)).claim fragment host).load ≤ draft.load := by
  have different : host ≠ fragment := by
    rintro rfl
    rw [found] at hostFound
    cases hostFound
    simp [Candidate.generation, isFragment] at notFragment
  have newId : (Candidate.bound new).id = host := by
    rw [id_bound, sameHost]
    exact id_of_candidate? hostFound
  have change := load_put (newId ▸ hostFound)
  have stillFound : (draft.put (.bound new)).candidate? fragment =
      some (.unresolved generation) := by
    rw [candidate?_put, newId, if_neg different, found]
  have claimed : ((draft.put (.bound new)).claim fragment host).load +
      (generation.demands + 3) = (draft.put (.bound new)).load :=
    load_claim stillFound isFragment unclaimed
  have newWeight : weight draft.attached (.bound new) = new.pending := rfl
  rw [newWeight] at change
  omega

theorem work_attachFragment {draft result : Draft}
    {fragment host : GenerationId} {generation : Generation}
    {candidate : Candidate}
    (resolving : draft.resolving = some fragment)
    (found : draft.candidate? fragment = some (.unresolved generation))
    (isFragment : generation.isFragment = true)
    (unclaimed : draft.attached.contains fragment = false)
    (hostFound : draft.candidate? host = some candidate)
    (notFragment : candidate.generation.isFragment = false)
    (done : draft.attachFragment fragment host = .ok result) :
    result.work ≤ draft.work := by
  have present : draft.generation? fragment = some generation := by
    simp [generation?, found, Candidate.generation]
  have claimed : ∀ new : BoundModule, new.host = candidate.generation →
      new.pending ≤ weight draft.attached candidate + generation.demands →
        ((draft.put (.bound new)).claim fragment host).load ≤ draft.load :=
    fun new => work_claim_put found isFragment unclaimed hostFound notFragment
  have before : draft.work = draft.load + 2 * draft.queue.length + 1 := by
    simp [work, resolving]
  simp only [attachFragment, present, hostFound, Except.bind,
    Bind.bind] at done
  split at done
  · cases done
  · cases candidate with
    | resolved wired =>
        cases attached : (BoundModule.reopen wired).attach generation with
        | error conflict =>
            simp only [attached] at done
            cases done
        | ok new =>
            simp only [attached] at done
            cases done
            obtain ⟨sameHost, grown⟩ := pending_attach attached
            have less := claimed new sameHost grown
            rw [before]
            exact Nat.add_le_add_right
              (Nat.add_le_add_right less _) _
    | bound binding =>
        cases attached : binding.attach generation with
        | error conflict =>
            simp only [attached] at done
            cases done
        | ok new =>
            obtain ⟨sameHost, grown⟩ := pending_attach attached
            have less := claimed new sameHost grown
            simp only [attached] at done
            rw [before]
            split at done
            · cases done
              exact Nat.add_le_add_right
                (Nat.add_le_add_right less _) _
            · cases done
              exact Nat.le_succ_of_le (Nat.add_le_add_right less _)
    | unresolved installed =>
        cases registered : draft.registerSingleton installed with
        | error conflict =>
            simp only [registered] at done
            cases done
        | ok named =>
            cases attached : (BoundModule.of installed).attach generation with
            | error conflict =>
                simp only [registered, attached] at done
                cases done
            | ok new =>
                simp only [registered, attached] at done
                cases done
                rw [registerSingleton_eq registered]
                obtain ⟨sameHost, grown⟩ := pending_attach attached
                have untouched : weight draft.attached (.unresolved installed) =
                    installed.demands + 3 := by
                  simp only [Candidate.generation] at notFragment
                  simp [weight, notFragment]
                have own : (BoundModule.of installed).pending =
                    installed.demands := rfl
                have less := claimed new sameHost (by omega)
                rw [before]
                exact Nat.add_le_add_right
                  (Nat.add_le_add_right less _) _

theorem completeResolving_eq (draft : Draft) :
    draft.completeResolving.load = draft.load ∧
      draft.completeResolving.queue = draft.queue ∧
        draft.completeResolving.resolving = none := by
  unfold completeResolving
  split
  · rename_i none
    exact ⟨rfl, rfl, none⟩
  · exact ⟨rfl, rfl, rfl⟩

theorem work_startNext? {draft next : Draft}
    (started : draft.completeResolving.startNext? = some next) :
    next.work < draft.work := by
  obtain ⟨load, queue, _⟩ := completeResolving_eq draft
  unfold startNext? at started
  split at started
  · cases started
  · rename_i id rest waiting
    cases started
    rw [queue] at waiting
    have length : draft.queue.length = rest.length + 1 := by
      rw [waiting, List.length_cons]
    have after : Draft.load
        { draft.completeResolving with
          resolving := some id, queue := rest } = draft.load := load
    unfold work
    rw [after, length]
    simp only [Option.isSome_some, if_true]
    omega

theorem work_completeResolving_le (draft : Draft) :
    draft.completeResolving.work ≤ draft.work := by
  obtain ⟨load, queue, resolving⟩ := completeResolving_eq draft
  unfold work
  rw [load, queue, resolving]
  simp only [Option.isSome_none, Bool.false_eq_true, if_false]
  omega

end Draft

end ModuleWiring
