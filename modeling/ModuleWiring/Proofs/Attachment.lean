import ModuleWiring.Proofs.FragmentNames
import ModuleWiring.Proofs.Partition
import ModuleWiring.Proofs.Preference
import ModuleWiring.Proofs.Subsets

/-!
# The fragments of a host

What a host has taken on by the end of a search was the search's to choose, in
its order of preference.  Whatever is still free then may be taken on likewise.
-/

namespace ModuleWiring

/-! ## Sorted choices -/

theorem GenerationId.eq_of_compare
    {left right : GenerationId}
    (equal : Ord.compare left right = .eq) : left = right := by
  change (Ord.compare left.bundle right.bundle).then
    (Ord.compare left.generation right.generation) = .eq at equal
  obtain ⟨bundle, generation⟩ := Ordering.then_eq_eq.1 equal
  cases left
  cases right
  cases Nat.compare_eq_eq.1 bundle
  cases Nat.compare_eq_eq.1 generation
  rfl

namespace Policy

variable {policy : Policy}

/-- Only one of two generations is preferred to the other. -/
theorem Precedes.id_eq
    {left right : Generation}
    (lower : policy.Precedes Generation.preference left right)
    (upper : policy.Precedes Generation.preference right left) :
    left.id = right.id := by
  have equal : policy.compare left.preference right.preference = .eq :=
    Std.OrientedCmp.isLE_antisymm lower upper
  exact GenerationId.eq_of_compare (Ordering.then_eq_eq.1 equal).2

/-- Of sorted generations with identities of their own, those that are sorted as
well are a sublist. -/
theorem sublist_of_subset
    {chosen items : List Generation}
    (sorted : items.Pairwise (policy.Precedes Generation.preference))
    (distinct : (items.map Generation.id).Nodup)
    (chosenSorted : chosen.Pairwise (policy.Precedes Generation.preference))
    (nodup : chosen.Nodup) (subset : chosen ⊆ items) :
    chosen.Sublist items := by
  induction items generalizing chosen with
  | nil => rw [List.subset_nil.1 subset]
  | cons first rest inductionHypothesis =>
      obtain ⟨least, restSorted⟩ := List.pairwise_cons.1 sorted
      obtain ⟨firstNew, restDistinct⟩ := List.nodup_cons.1 distinct
      cases chosen with
      | nil => exact List.nil_sublist _
      | cons head tail =>
          obtain ⟨headLeast, tailSorted⟩ := List.pairwise_cons.1 chosenSorted
          obtain ⟨notInTail, tailNodup⟩ := List.nodup_cons.1 nodup
          by_cases same : head = first
          · subst same
            refine (inductionHypothesis restSorted restDistinct tailSorted
              tailNodup fun generation member => ?_).cons_cons head
            refine (List.mem_cons.1 (subset
              (List.mem_cons_of_mem _ member))).resolve_left ?_
            rintro rfl
            exact notInTail member
          · have headInRest : head ∈ rest :=
              (List.mem_cons.1 (subset List.mem_cons_self)).resolve_left same
            refine (inductionHypothesis restSorted restDistinct chosenSorted
              nodup fun generation member => ?_).cons first
            refine (List.mem_cons.1 (subset member)).resolve_left ?_
            rintro rfl
            rcases List.mem_cons.1 member with isHead | inTail
            · exact same isHead.symm
            · have sameId := (headLeast _ inTail).id_eq (least _ headInRest)
              exact firstNew (sameId ▸ List.mem_map_of_mem headInRest)

end Policy

/-! ## What a host has taken on -/

namespace Draft

/-- A host that takes on fragments does not refuse them. -/
theorem attachable_of_attachAll
    {installed : Generation} {ids : List GenerationId}
    {draft result : Draft} {bound new : BoundModule}
    (done : attachAll (.bound (.of installed)) ids draft bound =
      .ok (result, new))
    (some : ids.filterMap draft.generation? ≠ []) :
    installed.manifest.fragmentAttachment ≠ .never := by
  induction ids generalizing draft bound with
  | nil => exact absurd rfl some
  | cons id rest inductionHypothesis =>
      rw [attachAll] at done
      split at done
      · rename_i unknown
        rw [List.filterMap_cons_none unknown] at some
        exact inductionHypothesis done some
      · simp only [bind, Except.bind] at done
        split at done
        · cases done
        · rename_i accepted
          intro never
          simp [checkAttachment, Candidate.generation, BoundModule.of,
            never] at accepted

end Draft

namespace Search

variable {search : Search}

/-- The fragments of a bound module are such as the search may choose for it. -/
structure Suits (search : Search) (bound : BoundModule) : Prop where
  sorted : bound.fragments.Pairwise
    (search.policy.Precedes Generation.preference)
  hosted : ∀ fragment ∈ bound.fragments,
    search.framework.isHostOf fragment bound.host = true
  attachable : bound.fragments ≠ [] →
    bound.host.manifest.fragmentAttachment ≠ .never
  distinct : DistinctNames bound.fragments

theorem suits_of_nil
    {bound : BoundModule} (alone : bound.fragments = []) :
    search.Suits bound where
  sorted := by
    rw [alone]
    exact .nil
  hosted := by simp [alone]
  attachable := by simp [alone]
  distinct := by
    rw [alone]
    exact distinctNames_nil

theorem Suits.of_same
    {bound new : BoundModule} (suits : search.Suits bound)
    (host : new.host = bound.host)
    (fragments : new.fragments = bound.fragments) :
    search.Suits new where
  sorted := fragments ▸ suits.sorted
  hosted := by
    rw [host, fragments]
    exact suits.hosted
  attachable := by
    rw [host, fragments]
    exact suits.attachable
  distinct := fragments ▸ suits.distinct

theorem filterMap_generation?_of_available
    {draft : Draft} {joined : List Generation}
    (available : ∀ fragment ∈ joined, draft.IsAvailable fragment) :
    (joined.map Generation.id).filterMap draft.generation? = joined := by
  rw [List.filterMap_map]
  refine (List.filterMap_congr (g := some) fun fragment member => ?_).trans
    List.filterMap_some
  simp [Draft.generation?, (available fragment member).found,
    Candidate.generation]

/-- A fresh host takes on the fragments that are chosen for it, and they suit
it. -/
theorem suits_of_bind
    {draft result : Draft} {installed : Generation}
    {joined : List Generation}
    (found : draft.candidate? installed.id = some (.bound (.of installed)))
    (chosen : joined.Sublist (search.fragmentChoices draft installed))
    (done : bind? draft installed.id (joined.map Generation.id) =
      some result) :
    ∃ new, draft.Binds result installed joined new ∧ search.Suits new := by
  have available : ∀ fragment ∈ joined, draft.IsAvailable fragment :=
    fun _ member => isAvailable_of_mem_fragmentChoices (chosen.subset member)
  have same := filterMap_generation?_of_available available
  rw [bind?_eq _ found] at done
  replace done := eq_ok_of_toOption done
  simp only [Draft.bindFragments, found, Bind.bind, Except.bind] at done
  split at done
  · cases done
  · rename_i pair attached
    obtain ⟨middle, new⟩ := pair
    cases done
    have attachable := Draft.attachable_of_attachAll attached
    obtain ⟨taken, claimed⟩ := Draft.claimAll_of_attachAll attached
    rw [same] at attachable taken claimed
    have fragments : new.fragments = joined := taken.fragments
    have host : new.host = installed := taken.host
    refine ⟨new, ⟨found, taken, available, by rw [claimed]; rfl⟩, ?_⟩
    constructor
    · rw [fragments]
      exact (Policy.pairwise_sort _).sublist chosen
    · intro fragment member
      rw [fragments] at member
      rw [host]
      have listed := Policy.mem_sort.1 (chosen.subset member)
      exact (List.mem_filter.1 listed).2
    · rw [fragments, host]
      exact attachable
    · exact taken.distinctNames distinctNames_nil

/-- All bound modules suit their fragments. -/
def AllSuit (search : Search) (draft : Draft) : Prop :=
  ∀ ⦃id bound⦄, draft.candidate? id = some (.bound bound) →
    search.Suits bound

theorem AllSuit.put
    {draft : Draft} {bound new : BoundModule} (suited : search.AllSuit draft)
    (suits : search.Suits bound) (host : new.host = bound.host)
    (fragments : new.fragments = bound.fragments) :
    search.AllSuit (draft.put (.bound new)) := by
  intro id other found
  rw [Draft.candidate?_put] at found
  split at found
  · cases found
    exact suits.of_same host fragments
  · exact suited found

theorem AllSuit.engage
    {draft middle : Draft} {id : GenerationId} (suited : search.AllSuit draft)
    (engaged : draft.Engaged id middle) :
    search.AllSuit middle := by
  intro other bound found
  by_cases here : id = other
  · subst here
    rcases engaged.candidate?_self with same | ⟨installed, _, opened⟩
    · exact suited (same ▸ found)
    · rw [opened] at found
      cases found
      exact suits_of_nil rfl
  · exact suited (engaged.candidate?_of_ne here ▸ found)

/-- Every decision lets all bound modules suit their fragments, unless it is the
first one for a fragment. -/
theorem allSuit_of_decision
    {node result : Node} (scheduled : Scheduled node)
    (touched : ¬ node.draft.IsUntouched)
    (decision : Decision search node result)
    (suited : search.AllSuit node.draft) :
    search.AllSuit result.draft := by
  cases decision with
  | idle _ => exact suited
  | attach resolving found _ _ _ =>
      exact absurd (scheduled.untouched_of_start resolving found).1 touched
  | @bind draft result id candidate ids resolving found notFragment chosen
      done =>
      have fresh := scheduled.fresh_of_start resolving found notFragment
      have sameId : candidate.generation.id = id :=
        Draft.id_of_candidate? found
      have hit : draft.candidate? candidate.generation.id =
          some (.bound (.of candidate.generation)) := by
        rw [sameId]
        exact found.trans (congrArg some fresh)
      obtain ⟨joined, sublist, rfl⟩ := List.sublist_map_iff.1 chosen
      rw [← sameId] at done
      obtain ⟨new, binds, suits⟩ := suits_of_bind hit sublist done
      intro other bound known
      have same := binds.annotated
      change result.candidate? other = _ at known
      rw [same] at known
      exact suited.put suits rfl rfl known
  | toImports _ _ => exact suited
  | leaveRequire current _ _ =>
      exact suited.put (suited (Draft.candidate?_of_resolvingBound? current))
        rfl rfl
  | provide current _ _ _ engaged =>
      exact (suited.engage engaged).put
        (suited (Draft.candidate?_of_resolvingBound? current)) rfl rfl
  | leaveImport current _ _ =>
      exact suited.put (suited (Draft.candidate?_of_resolvingBound? current))
        rfl rfl
  | wire current _ _ _ _ _ engaged =>
      exact (suited.engage engaged).put
        (suited (Draft.candidate?_of_resolvingBound? current)) rfl rfl
  | settle through =>
      obtain ⟨current, bound, resolving, found, _⟩ :=
        scheduled.exists_of_settle through
      rw [scheduled.settle_eq resolving found]
      split <;> exact suited

end Search

/-- The search for a bundle starts with nothing bound but the bundle. -/
theorem Draft.eq_of_bound_of_initial
    {store : Store} {generations : List Generation} {target : Generation}
    {draft : Draft} (done : initial store generations target = .ok draft)
    {id : GenerationId} {bound : BoundModule}
    (found : draft.candidate? id = some (.bound bound)) :
    bound = .of target := by
  obtain ⟨middle, pooled, _, candidates⟩ := candidate?_of_initial done
  rw [candidates] at found
  split at found
  · unfold asTarget at found
    split at found
    · cases found
    · cases found
      rfl
  · exact absurd found ((isPool_of_pool pooled).untouched id bound)

theorem Draft.candidate?_target_of_initial
    {store : Store} {generations : List Generation} {target : Generation}
    {draft : Draft} (done : initial store generations target = .ok draft)
    (notFragment : target.isFragment = false) :
    draft.candidate? target.id = some (.bound (.of target)) := by
  obtain ⟨middle, _, _, candidates⟩ := candidate?_of_initial done
  rw [candidates, if_pos rfl, asTarget, if_neg (by simp [notFragment])]

namespace World.Solves

open Search

variable {world : World} {target : Generation} {framework : Framework}
  {draft final : Draft}

/-- The target of a search for a bundle is bound all along. -/
theorem exists_bound_target
    (solves : world.Solves target framework draft final)
    (notFragment : target.isFragment = false) {position : Node}
    (line : (world.resolver.search framework).problem.Line ⟨.start, draft⟩
      position) :
    ∃ bound, position.draft.candidate? target.id = some (.bound bound) := by
  refine @invariant_of_line _ (fun node => ∃ bound,
    node.draft.candidate? target.id = some (.bound bound)) _ _ line
      solves.run.scheduled ?_ ?_
  · exact ⟨_, Draft.candidate?_target_of_initial solves.begun notFragment⟩
  · rintro position result _ scheduled decision ⟨bound, found⟩
    obtain ⟨later, hit, evolution⟩ :=
      exists_later_candidate scheduled decision found
    obtain ⟨new, rfl, _⟩ := evolution.exists_bound
    exact ⟨new, hit⟩

/-- A search for a bundle leaves all bound modules with fragments that suit
them. -/
theorem suits
    (solves : world.Solves target framework draft final)
    (notFragment : target.isFragment = false) {id : GenerationId}
    {bound : BoundModule} (found : final.candidate? id = some (.bound bound)) :
    (world.resolver.search framework).Suits bound := by
  have allSuit : ∀ {position : Node},
      (world.resolver.search framework).problem.Line ⟨.start, draft⟩
        position → (world.resolver.search framework).AllSuit
          position.draft := by
    intro position line
    refine @invariant_of_line _ (fun node =>
      (world.resolver.search framework).AllSuit node.draft) _ _ line
        solves.run.scheduled ?_ ?_
    · intro other module known
      rw [Draft.eq_of_bound_of_initial solves.begun known]
      exact suits_of_nil rfl
    · intro before result lineBefore scheduled decision suited
      refine allSuit_of_decision scheduled (fun untouched => ?_) decision
        suited
      obtain ⟨module, known⟩ :=
        solves.exists_bound_target notFragment lineBefore
      exact untouched _ module known
  exact allSuit solves.run.line found

end World.Solves

/-! ## Taking on what is free -/

namespace Draft

/-- Fragments of different names can be attached to a host that does not refuse
them and has no wires yet. -/
theorem exists_attachAll
    {draft : Draft} {host : Candidate} {bound : BoundModule}
    {joined : List Generation}
    (known : ∀ fragment ∈ joined,
      draft.generation? fragment.id = some fragment)
    (accepted : joined ≠ [] → ∀ id, checkAttachment id host = .ok ())
    (unwired : ∀ package, bound.wirings.find? package = none)
    (distinct : DistinctNames (bound.fragments ++ joined)) :
    ∃ outcome, attachAll host (joined.map Generation.id) draft bound =
      .ok outcome := by
  induction joined generalizing draft bound with
  | nil => exact ⟨_, rfl⟩
  | cons fragment rest inductionHypothesis =>
      have hit := known fragment List.mem_cons_self
      have other : bound.fragments.any
          (·.symbolicName = fragment.symbolicName) = false := by
        rw [List.any_eq_false]
        intro generation member same
        unfold DistinctNames at distinct
        rw [List.map_append, List.nodup_append] at distinct
        exact distinct.2.2 _ (List.mem_map_of_mem member) _
          (List.mem_map_of_mem List.mem_cons_self) (of_decide_eq_true same)
      have pending : bound.pendingImports fragment fragment.imports =
          .ok fragment.imports :=
        BoundModule.pendingImports_eq unwired fragment.imports
      have attached : ∃ new, bound.attach fragment = .ok new ∧
          new.fragments = bound.fragments ++ [fragment] ∧
          new.wirings = bound.wirings := by
        simp [BoundModule.attach, other, pending, bind, Except.bind, pure,
          Except.pure]
      obtain ⟨new, done, fragments, wirings⟩ := attached
      rw [List.map_cons, attachAll, hit]
      simp only [bind, Except.bind, accepted (by simp), done]
      refine inductionHypothesis ?_ (fun _ => accepted (by simp))
        (fun package => wirings ▸ unwired package) ?_
      · intro later member
        exact known later (List.mem_cons_of_mem _ member)
      · rw [fragments, List.append_assoc]
        exact distinct

end Draft

namespace Search

variable {search : Search} {draft : Draft}

/-- A fragment that is available and takes no part may be chosen for a host that
it asks for. -/
theorem mem_fragmentChoices_of_unused
    {host fragment : Generation} (available : draft.IsAvailable fragment)
    (unused : draft.unused.contains fragment.id = true)
    (hosted : search.framework.isHostOf fragment host = true) :
    fragment ∈ search.fragmentChoices draft host := by
  refine Policy.mem_sort.2 (List.mem_filter.2 ⟨List.mem_map.2
    ⟨.unresolved fragment, List.mem_filter.2
      ⟨Draft.mem_of_candidate? available.found, ?_⟩, rfl⟩, hosted⟩)
  have vacant : draft.attached.contains fragment.id = false := by
    simp [Table.contains, show draft.attached.find? fragment.id = none from
      available.unattached]
  have isFragment : fragment.isFragment = true := available.isFragment
  simp [isFreeFragment, isUnresolved, Candidate.generation, Candidate.id,
    isFragment, unused, vacant]

/-- A host that begins to be decided can take on any fragments that are free and
suit it. -/
theorem exists_step_of_suits
    {installed : Generation} {bound : BoundModule}
    (resolving : draft.resolving = some installed.id)
    (found : draft.candidate? installed.id = some (.bound (.of installed)))
    (notFragment : installed.isFragment = false)
    (isHost : bound.host = installed) (suits : search.Suits bound)
    (available : ∀ fragment ∈ bound.fragments, draft.IsAvailable fragment)
    (unused : ∀ fragment ∈ bound.fragments,
      draft.unused.contains fragment.id = true) :
    ∃ result new, search.problem.Step ⟨.start, draft⟩ ⟨.requires, result⟩ ∧
      draft.Binds result installed bound.fragments new := by
  have chosen : bound.fragments.Sublist
      (search.fragmentChoices draft installed) := by
    refine Policy.sublist_of_subset (Policy.pairwise_sort _)
      (search.nodup_fragmentChoices draft installed) suits.sorted
      suits.distinct.nodup ?_
    intro fragment member
    exact mem_fragmentChoices_of_unused (available fragment member)
      (unused fragment member) (isHost ▸ suits.hosted fragment member)
  have known : ∀ fragment ∈ bound.fragments,
      draft.generation? fragment.id = some fragment := by
    intro fragment member
    simp [Draft.generation?, (available fragment member).found,
      Candidate.generation]
  have accepted : bound.fragments ≠ [] → ∀ id,
      Draft.checkAttachment id (.bound (.of installed)) = .ok () := by
    intro some id
    have attachable := suits.attachable some
    rw [isHost] at attachable
    unfold Draft.checkAttachment
    simp only [Candidate.generation, BoundModule.of]
    split
    · rename_i never
      exact absurd never attachable
    · cases ‹Candidate.bound _ = .resolved _›
    · rfl
  have outcome : ∃ outcome, Draft.attachAll (.bound (.of installed))
      (bound.fragments.map Generation.id) draft (.of installed) =
        .ok outcome :=
    Draft.exists_attachAll known accepted (fun _ => rfl) suits.distinct
  obtain ⟨⟨middle, new⟩, attached⟩ := outcome
  have done : bind? draft installed.id
      (bound.fragments.map Generation.id) =
        some (middle.put (.bound new)) := by
    rw [bind?_eq _ found]
    simp [Draft.bindFragments, found, attached, Bind.bind, Except.bind,
      pure, Except.pure, Except.toOption]
  obtain ⟨other, binds, _⟩ := suits_of_bind found chosen done
  refine ⟨_, other, ⟨.bind installed.id (bound.fragments.map Generation.id),
    ?_, by simp [problem, play?, done]⟩, binds⟩
  change _ ∈ (search.startMoves draft).toList
  simp only [startMoves, resolving, found, Candidate.generation,
    BoundModule.of, notFragment, Bool.false_eq_true, if_false,
    Alternatives.toList_map]
  exact List.mem_map.2
    ⟨_, mem_subsets_of_sublist (chosen.map Generation.id), rfl⟩

end Search

end ModuleWiring
