import ModuleWiring.Proofs.Commitments
import ModuleWiring.Proofs.Conditions
import ModuleWiring.Proofs.Dependencies

/-!
# Consistency of what an answer implies

Along every run, what a chosen wire implies agrees with the wires of its module
and of the modules before it.  A search tells exporters apart by their identities.
Those that agree are one generation where no other one bears the identity.
-/

namespace ModuleWiring

namespace Search

variable {search : Search} {known : Generation → Prop}

theorem agrees_nil (draft : Draft) : draft.agrees [] = true :=
  Draft.agrees_of_exporter_eq (by simp) (by simp)

/-- A decision that gives the module in charge no wire and no offer commits it to
nothing. -/
theorem accords_of_leave
    {draft : Draft} {bound new : BoundModule}
    (fragments : bound.fragments ⊆ new.fragments)
    (wirings : new.wirings = bound.wirings)
    (offers : new.offers = bound.offers) :
    draft.Accords bound new [] :=
  Draft.accords_of_append [] fragments wirings
    (offers.trans (List.append_nil _).symm) (agrees_nil draft) (by simp)

/-- Fragments bring what they export to a host that has no wires yet. -/
theorem accords_of_takesOn
    {draft : Draft} {installed : Generation} {joined : List Generation}
    {new : BoundModule}
    (taken : (BoundModule.of installed).TakesOn joined new) :
    draft.Accords (.of installed) new [] := by
  have members : new.fragments = joined := taken.fragments
  refine Draft.accords_of_append _ (by simp [BoundModule.of]) taken.wirings
    taken.offers (agrees_nil draft) ?_
  intro offer member owner here
  obtain ⟨fragment, listed, offered⟩ := List.mem_flatMap.1 member
  obtain ⟨exported, _, own⟩ := Generation.mem_offers offered
  refine .inr ⟨taken.wirings, ?_, fragment, members ▸ listed, exported⟩
  change new.host.id = (offer.exporter owner).id
  rw [taken.host, Offer.exporter, own]
  exact here

/-- What becomes visible through a provider has been checked. -/
theorem accords_of_provide
    {draft middle : Draft} {bound : BoundModule} {require : Require}
    {rest : List Require} {provider : Generation}
    (current : draft.resolvingBound? = some bound)
    (consistent : isRequireConsistent draft provider = true)
    (engaged : draft.Engaged provider.id middle) :
    draft.Accords bound
      ({ bound with requires := rest }.addProvision ⟨require, provider⟩
        (if require.isReexport then middle.visible provider else []))
      (draft.accepted bound ++
        (draft.visible provider).flatMap draft.implied) := by
  rw [engaged.visible]
  unfold isRequireConsistent at consistent
  rw [current] at consistent
  cases isReexport : require.isReexport with
  | false =>
      refine Draft.accords_of_append [] (List.Subset.refl _) rfl ?_
        consistent (by simp)
      simp [BoundModule.addProvision, isReexport]
  | true =>
      obtain ⟨more, same, listed⟩ :=
        exists_reexport_eq bound.offers (draft.visible provider)
      refine Draft.accords_of_append more (List.Subset.refl _) rfl ?_
        consistent ?_
      · simp [BoundModule.addProvision, isReexport, same]
      · intro offer member owner _
        obtain ⟨wire, visible, rfl⟩ := listed offer member
        left
        intro implied follows
        exact List.mem_append_right _
          (List.mem_flatMap.2 ⟨wire, visible, follows⟩)

/-- To settle a module is to go on with the order. -/
theorem exists_order_settle
    {phase : Phase} {draft : Draft} (scheduled : Scheduled ⟨phase, draft⟩)
    {id : GenerationId} {bound : BoundModule}
    (resolving : draft.resolving = some id)
    (found : draft.candidate? id = some (.bound bound)) :
    ∃ more, (settle draft).draft.order = draft.order ++ more := by
  rw [scheduled.settle_eq resolving found]
  unfold Draft.order
  rw [resolving]
  cases draft.queue with
  | nil => exact ⟨[], rfl⟩
  | cons next rest => exact ⟨[next], by simp⟩

/-- To settle a module changes no candidate. -/
theorem settle_same
    {phase : Phase} {draft : Draft} (scheduled : Scheduled ⟨phase, draft⟩)
    {id : GenerationId} {bound : BoundModule}
    (resolving : draft.resolving = some id)
    (found : draft.candidate? id = some (.bound bound)) :
    (∀ other, (settle draft).draft.candidate? other =
      draft.candidate? other) ∧ (settle draft).draft.store = draft.store := by
  rw [scheduled.settle_eq resolving found]
  cases draft.queue with
  | nil => exact ⟨fun _ => rfl, rfl⟩
  | cons next rest => exact ⟨fun _ => rfl, rfl⟩

theorem usesAgree_of_settle
    {phase : Phase} {draft : Draft} (scheduled : Scheduled ⟨phase, draft⟩)
    (after : Scheduled (settle draft)) {id : GenerationId}
    {bound : BoundModule} (resolving : draft.resolving = some id)
    (found : draft.candidate? id = some (.bound bound))
    (agree : draft.UsesAgree) :
    (settle draft).draft.UsesAgree := by
  obtain ⟨more, order⟩ := exists_order_settle scheduled resolving found
  obtain ⟨candidates, store⟩ := settle_same scheduled resolving found
  exact agree.proceed candidates store order (Draft.nodup_order after)
    (Draft.mem_order_of_wire scheduled)

/-- A search for a fragment begins with a host that has no new wires. -/
theorem usesAgree_of_attach
    {draft result : Draft} {fragment : Generation}
    (scheduled : Scheduled ⟨.start, draft⟩)
    (resolving : draft.resolving = some fragment.id)
    (found : draft.candidate? fragment.id = some (.unresolved fragment))
    (decision : Decision search ⟨.start, draft⟩ ⟨.requires, result⟩)
    (resolved : ∀ {id wired}, draft.candidate? id = some (.resolved wired) →
      wired = .of draft.store wired.generation) :
    result.UsesAgree := by
  obtain ⟨untouched, _, _⟩ := scheduled.untouched_of_start resolving found
  intro id mine wire implied hit member isNew
  obtain ⟨earlier, old, evolution⟩ :=
    exists_evolution scheduled decision hit
  have store : result.store = draft.store :=
    store_of_decision scheduled decision
  rw [store] at isNew
  cases evolution with
  | keep => exact absurd old (untouched id mine)
  | deciding step => exact absurd old (untouched id _)
  | opening opens taken _ _ _ =>
      rw [taken.wirings] at member
      cases opens with
      | fresh installed => cases member
      | queued installed => cases member
      | reopen wired =>
          refine absurd ?_ isNew
          rw [taken.host]
          change wire ∈ wired.wirings.values at member
          rw [resolved old] at member
          obtain ⟨package, held⟩ := Table.exists_of_mem_values member
          exact Wirings.mem_of_find?_ofList held

/-- Every decision keeps all agreed. -/
theorem usesAgree_of_decision
    {node result : Node} (scheduled : Scheduled node)
    (decision : Decision search node result)
    (resolved : ∀ {id wired},
      node.draft.candidate? id = some (.resolved wired) →
        wired = .of node.draft.store wired.generation)
    (stored : node.draft.store.LeadsTo known)
    (leads : Everywhere (Candidate.LeadsTo known) node)
    (distinguishes : node.draft.Distinguishes known)
    (agree : node.draft.UsesAgree) :
    result.draft.UsesAgree := by
  have stillStored : result.draft.store.LeadsTo known := by
    rw [store_of_decision scheduled decision]
    exact stored
  have stillLeads := leadsTo_of_decision scheduled decision stored leads
  have stillDistinguishes : result.draft.Distinguishes known :=
    fun left right leftKnown rightKnown same missing =>
      distinguishes left right leftKnown rightKnown same
        ((candidate?_eq_none_iff scheduled decision left.id).1 missing)
  have goesOn : ∀ {bound new : BoundModule} {checked : List Wire},
      node.draft.Replaces result.draft bound new →
        node.draft.Accords bound new checked → result.draft.UsesAgree :=
    fun replaces accords => replaces.usesAgree scheduled accords
      (Draft.isCoherent_of_leadsTo stored (fun hit => leads hit) distinguishes)
      (Draft.isCoherent_of_leadsTo stillStored (fun hit => stillLeads hit)
        stillDistinguishes)
      (fun hit => stillLeads hit) agree
  have after := scheduled_of_decision scheduled decision
  cases decision with
  | idle _ => exact agree
  | toImports _ _ => exact agree
  | attach resolving found isFragment offered done =>
      exact usesAgree_of_attach scheduled resolving found
        (.attach resolving found isFragment offered done) resolved
  | bind resolving found notFragment chosen done =>
      obtain ⟨_, _, current, binds⟩ :=
        scheduled.exists_binds resolving found notFragment chosen done
      exact goesOn (binds.replaces current) (accords_of_takesOn binds.taken)
  | leaveRequire current _ _ =>
      exact goesOn (Draft.replaces_put current rfl)
        (accords_of_leave (List.Subset.refl _) rfl rfl)
  | leaveImport current _ _ =>
      exact goesOn (Draft.replaces_put current rfl)
        (accords_of_leave (List.Subset.refl _) rfl rfl)
  | provide current _ _ consistent engaged =>
      exact goesOn (engaged.replaces current rfl)
        (accords_of_provide current consistent engaged)
  | wire current _ _ _ offered consistent engaged =>
      refine goesOn (engaged.replaces current rfl)
        (Draft.accords_of_wire ?_ rfl rfl rfl consistent)
      intro same
      obtain ⟨id, resolving, found⟩ :=
        Draft.exists_of_resolvingBound? current
      refine ne_resolving_of_mem_wireChoices offered ?_
      rw [resolving, ← Draft.id_of_candidate? found]
      exact congrArg some same.symm
  | settle through =>
      obtain ⟨id, bound, resolving, found, _⟩ :=
        scheduled.exists_of_settle through
      exact usesAgree_of_settle scheduled after resolving found agree

/-- Before anything is decided there are no wires but those that the store
knows. -/
theorem usesAgree_of_given
    {node : Node}
    (given : Everywhere (Candidate.IsGiven node.draft.store) node) :
    node.draft.UsesAgree := by
  intro id mine wire implied found member isNew
  refine absurd ?_ isNew
  cases given found with
  | target _ _ => cases member
  | reopened _ _ =>
      obtain ⟨package, held⟩ := Table.exists_of_mem_values member
      exact Wirings.mem_of_find?_ofList held

/-- Along every run all is agreed. -/
theorem usesAgree_of_line
    (known : Generation → Prop) {node final : Node}
    (line : search.problem.Line node final) (scheduled : Scheduled node)
    (given : Everywhere (Candidate.IsGiven node.draft.store) node)
    (stored : node.draft.store.LeadsTo known)
    (leads : Everywhere (Candidate.LeadsTo known) node)
    (distinguishes : final.draft.Distinguishes known) :
    final.draft.UsesAgree := by
  refine @invariant_of_line _ (fun position => position.draft.UsesAgree) _ _
    line scheduled ?_ ?_
  · exact usesAgree_of_given given
  · intro position result before isScheduled decision agree
    have store := store_of_line before scheduled
    refine usesAgree_of_decision isScheduled decision ?_ ?_
      (leadsTo_of_line before scheduled stored leads) ?_ agree
    · intro id wired found
      rw [store]
      exact eq_of_resolved before scheduled given found
    · rw [store]
      exact stored
    · intro left right leftKnown rightKnown same missing
      exact distinguishes left right leftKnown rightKnown same
        ((candidate?_eq_none_iff_of_line line scheduled left.id).2
          ((candidate?_eq_none_iff_of_line before scheduled left.id).1
            missing))

end Search

namespace Draft

variable {draft : Draft}

/-- Settled modules and solutions come in one order. -/
theorem map_host_solutions
    (settled : ∀ id ∈ draft.settled, ∃ bound,
      draft.candidate? id = some (.bound bound)) :
    draft.solutions.map (·.host.id) = draft.settled := by
  have folded : ∀ ids ⊆ draft.settled,
      (ids.filterMap draft.bound?).map (·.host.id) = ids := by
    intro ids listed
    induction ids with
    | nil => rfl
    | cons id rest inductionHypothesis =>
        obtain ⟨bound, found⟩ := settled id (listed List.mem_cons_self)
        have isBound : draft.bound? id = some bound := by
          simp [bound?, found, Candidate.bound?]
        have host : bound.host.id = id := id_of_candidate? found
        rw [List.filterMap_cons_some isBound, List.map_cons, host,
          inductionHypothesis (List.subset_of_cons_subset listed)]
  unfold solutions
  rw [List.map_map]
  exact folded _ (List.Subset.refl _)

end Draft

/-- A wire to an export that a fragment of a solution brings. -/
def Solution.Brings (solution : Solution) (wire : Wire) : Prop :=
  solution.host.id = wire.exporter.id ∧
    ∃ fragment ∈ solution.fragments,
      wire.declared ∈ fragment.manifest.exports

/-- The conditions on a wire of a solution, with respect to another one, that keep
what it implies consistent. -/
inductive Condition where
  | ordered
  | isNew
  | timely
  | faithful
  | distinct
  deriving DecidableEq, Inhabited

instance : Fintype Condition :=
  .ofList [.ordered, .isNew, .timely, .faithful, .distinct]
    (by rintro (_ | _ | _ | _ | _) <;> decide)

/-- The other solution comes no later than the first, the wire is new, whatever
else it implies is not brought by a fragment of a later solution and is what
its exporter stands for, and identities tell generations apart. -/
def Draft.Meets (draft : Draft) (solution : Solution) (later : List Solution)
    (other : Solution) (wire : Wire) : Condition → Prop
  | .ordered => other ∉ later
  | .isNew => wire ∉ draft.store.wires solution.host
  | .timely => ∀ implied ∈ draft.implied wire, implied ≠ wire →
      ∀ next ∈ later, ¬ next.Brings implied
  | .faithful => ∀ implied ∈ draft.implied wire, implied ≠ wire →
      draft.IsFaithful implied
  | .distinct => draft.Distinguishes (· ∈ draft.store.exporters)

/-- The generations that a search can come across: its candidates and those that
applied wirings lead to. -/
def Draft.met (draft : Draft) : List Generation :=
  draft.candidates.members.map Candidate.generation ++ draft.store.exporters

/-- No other generation that a search can come across has this one's identity. -/
def Draft.Identifies (draft : Draft) (generation : Generation) : Prop :=
  ∀ other ∈ draft.met, other.id = generation.id → other = generation

theorem Draft.mem_met_of_candidate?
    {draft : Draft} {id : GenerationId} {candidate : Candidate}
    (found : draft.candidate? id = some candidate) :
    candidate.generation ∈ draft.met :=
  List.mem_append_left _ (List.mem_map_of_mem (mem_of_candidate? found))

/-- Generations that a search can come across are told apart if those are that
applied wirings lead to. -/
theorem Draft.Distinguishes.met
    {draft : Draft}
    (distinguishes : draft.Distinguishes (· ∈ draft.store.exporters)) :
    draft.Distinguishes (· ∈ draft.met) := by
  have stored : ∀ {generation : Generation}, generation ∈ draft.met →
      draft.candidate? generation.id = none →
        generation ∈ draft.store.exporters := by
    intro generation member missing
    rcases List.mem_append.1 member with listed | stored
    · obtain ⟨candidate, present, rfl⟩ := List.mem_map.1 listed
      have found := Roster.find?_of_mem present
      exact absurd (missing.symm.trans found) (by simp)
    · exact stored
  intro left right leftMet rightMet same missing
  exact distinguishes left right (stored leftMet missing)
    (stored rightMet (same ▸ missing)) same missing

instance Draft.decidableIsFaithful (draft : Draft) (wire : Wire) :
    Decidable (draft.IsFaithful wire) :=
  decidable_of_iff (∀ target ∈ draft.target? wire.source,
    target.declared = wire.declared ∧
      target.exporter.id = wire.exporter.id) Iff.rfl

instance Draft.decidableIdentifies (draft : Draft)
    (generation : Generation) :
    Decidable (draft.Identifies generation) :=
  inferInstanceAs (Decidable (∀ _ ∈ _, _))

instance Solution.decidableBrings (solution : Solution) (wire : Wire) :
    Decidable (solution.Brings wire) :=
  inferInstanceAs (Decidable (_ ∧ _))

instance Draft.decidableMeets (draft : Draft) (solution : Solution)
    (later : List Solution) (other : Solution) (wire : Wire) :
    (condition : Condition) →
      Decidable (draft.Meets solution later other wire condition)
  | .ordered => inferInstanceAs (Decidable (other ∉ later))
  | .isNew =>
      inferInstanceAs (Decidable (wire ∉ draft.store.wires solution.host))
  | .timely => inferInstanceAs (Decidable (∀ implied ∈ draft.implied wire,
      implied ≠ wire → ∀ next ∈ later, ¬ next.Brings implied))
  | .faithful => inferInstanceAs (Decidable (∀ implied ∈ draft.implied wire,
      implied ≠ wire → draft.IsFaithful implied))
  | .distinct => decidable_of_iff (∀ left ∈ draft.store.exporters,
      ∀ right ∈ draft.store.exporters, left.id = right.id →
        draft.candidate? left.id = none → left = right)
      ⟨fun holds left right leftKnown => holds left leftKnown right,
        fun holds left leftKnown right => holds left right leftKnown⟩

namespace Search

variable {final : Draft} {earlier later : List Solution}
  {solution : Solution}

/-- No two solutions have hosts of one identity. -/
theorem nodup_hosts_of_finished
    (scheduled : Scheduled ⟨.finished, final⟩) :
    (final.solutions.map (·.host.id)).Nodup := by
  rw [Draft.map_host_solutions fun id member =>
    (scheduled.settled id member).imp fun _ facts => facts.1]
  exact (List.nodup_append.1 scheduled.distinct).1

theorem order_of_split
    (scheduled : Scheduled ⟨.finished, final⟩)
    (split : final.solutions = earlier ++ solution :: later) :
    final.order = earlier.map (·.host.id) ++
      solution.host.id :: later.map (·.host.id) := by
  have hosts := Draft.map_host_solutions fun id member =>
    (scheduled.settled id member).imp fun _ facts => facts.1
  rw [split, List.map_append, List.map_cons] at hosts
  rw [Draft.order, scheduled.resolving_of_finished.1, ← hosts]
  exact List.append_nil _

/-- What comes late to a solution is brought by a later solution. -/
theorem exists_brings_of_bringsLate
    (scheduled : Scheduled ⟨.finished, final⟩)
    (split : final.solutions = earlier ++ solution :: later) {wire : Wire}
    (late : final.BringsLate solution.host.id wire) :
    ∃ other ∈ later, other.Brings wire := by
  obtain ⟨id, bound, ⟨front, back, order, comesBefore⟩, found, brings⟩ :=
    late
  have whole := order_of_split scheduled split
  have distinct : final.order.Nodup := Draft.nodup_order scheduled
  obtain ⟨before, between, apart⟩ := List.append_of_mem comesBefore
  rw [order, apart, List.append_assoc, List.cons_append] at whole distinct
  have rest := (Draft.eq_of_split distinct whole).2
  have listed : id ∈ later.map (·.host.id) := by
    rw [← rest]
    exact List.mem_append_right _ List.mem_cons_self
  obtain ⟨other, member, isHost⟩ := List.mem_map.1 listed
  refine ⟨other, member, ?_⟩
  have answered : other ∈ final.solutions := by
    rw [split]
    exact List.mem_append_right _ (List.mem_cons_of_mem _ member)
  obtain ⟨module, otherFound, rfl⟩ :=
    Draft.candidate?_of_mem_solutions answered
  have isOther : module.host.id = id := isHost
  change final.candidate? module.host.id = _ at otherFound
  rw [isOther, found] at otherFound
  cases otherFound
  exact brings

/-- No later decision turns what such a wire implies. -/
theorem trail_of_meets
    (scheduled : Scheduled ⟨.finished, final⟩)
    (split : final.solutions = earlier ++ solution :: later)
    {other : Solution} {wire : Wire}
    (timely : final.Meets solution later other wire .timely)
    (faithful : final.Meets solution later other wire .faithful) :
    ∀ implied ∈ final.implied wire,
      final.Trail (final.Allows solution.host.id wire) wire implied := by
  apply Draft.forall_mem_implied
    (final.Trail (final.Allows solution.host.id wire) wire) .refl
  intro before view next trail used stands onward member
  by_cases returned : next = wire
  · rw [returned]
    exact .refl
  · refine .step trail used stands
      ⟨onward, faithful next member returned, ?_⟩
    intro late
    obtain ⟨other, listed, brings⟩ :=
      exists_brings_of_bringsLate scheduled split late
    exact timely next member returned other listed brings

end Search

namespace Resolver

variable {resolver : Resolver} {store : Store} {target : Generation}
  {framework : Framework} {start : Node} {final : Draft}

theorem Run.sameStore
    (run : resolver.Run store target framework start final) :
    final.store = store :=
  (Search.store_of_line run.line run.scheduled).trans run.begins.sameStore

/-- Wires of solutions for one package lead to one exporter. -/
theorem Run.exporter_eq
    (run : resolver.Run store target framework start final)
    {solution other : Solution} (member : solution ∈ final.solutions)
    (otherMember : other ∈ final.solutions) {wire theirs : Wire}
    (listed : wire ∈ solution.wires) (theirListed : theirs ∈ other.wires)
    (samePackage : theirs.package = wire.package) :
    theirs.exporter.id = wire.exporter.id := by
  have keyed : Search.Everywhere (Wirings.IsKeyed ∘ Candidate.wirings)
      start := by
    intro id candidate found
    have leads : candidate.LeadsTo fun _ => True :=
      Candidate.leadsTo_of_isGiven
        (Store.leadsTo_of_exporters fun _ _ => trivial) trivial
        (run.begins.given found).2
    exact leads.keyed
  have allKeyed := Search.keyed_of_line run.line run.scheduled keyed
  have agree := Search.wiresAgree_of_line run.line run.scheduled keyed
    run.begins.settled run.begins.queue
  obtain ⟨bound, found, rfl⟩ := Draft.candidate?_of_mem_solutions member
  obtain ⟨module, otherFound, rfl⟩ :=
    Draft.candidate?_of_mem_solutions otherMember
  have held := (allKeyed found).find?_of_mem listed
  have theirHeld := (allKeyed otherFound).find?_of_mem theirListed
  exact agree otherFound found theirHeld (samePackage.symm ▸ held)

/-- A run leads to no generation that its draft cannot come across. -/
theorem Run.leadsTo_met
    (run : resolver.Run store target framework start final) :
    final.store.LeadsTo (· ∈ final.met) ∧
      Search.Everywhere (Candidate.LeadsTo (· ∈ final.met)) start ∧
        Search.Everywhere (Candidate.LeadsTo (· ∈ final.met))
          ⟨.finished, final⟩ := by
  have stored : final.store.LeadsTo (· ∈ final.met) :=
    Store.leadsTo_of_exporters fun _ member => List.mem_append_right _ member
  have same : start.draft.store = final.store :=
    run.begins.sameStore.trans run.sameStore.symm
  have initial : Search.Everywhere (Candidate.LeadsTo (· ∈ final.met))
      start := by
    intro id candidate found
    refine Candidate.leadsTo_of_isGiven stored ?_
      (run.sameStore.symm ▸ (run.begins.given found).2)
    have known : start.draft.generation? id = some candidate.generation :=
      Option.map_eq_some_iff.2 ⟨candidate, found, rfl⟩
    have kept := @Search.invariant_of_line _ (fun node =>
      node.draft.generation? id = some candidate.generation) _ _
      run.line run.scheduled known fun _ scheduled decision holds =>
        Search.generation?_of_decision scheduled decision holds
    obtain ⟨later, laterFound, sameGeneration⟩ :=
      Option.map_eq_some_iff.1 kept
    exact sameGeneration ▸ Draft.mem_met_of_candidate? laterFound
  exact ⟨stored, initial, Search.leadsTo_of_line run.line run.scheduled
    (same.symm ▸ stored) initial⟩

/-- A wire of a solution leads to a generation that the search can come across. -/
theorem Run.exporter_mem_met
    (run : resolver.Run store target framework start final)
    {solution : Solution} (member : solution ∈ final.solutions)
    {wire : Wire} (listed : wire ∈ solution.wires) :
    wire.exporter ∈ final.met := by
  obtain ⟨bound, found, rfl⟩ := Draft.candidate?_of_mem_solutions member
  exact (run.leadsTo_met.2.2 found).wires wire listed

/-- Where applied wirings lead to no two generations of one identity, unless a
candidate has it, all is agreed. -/
theorem Run.usesAgree
    (run : resolver.Run store target framework start final)
    (distinguishes : final.Distinguishes (· ∈ final.store.exporters)) :
    final.UsesAgree := by
  obtain ⟨stored, initial, _⟩ := run.leadsTo_met
  have same : start.draft.store = final.store :=
    run.begins.sameStore.trans run.sameStore.symm
  refine Search.usesAgree_of_line (· ∈ final.met) run.line run.scheduled ?_
    (same ▸ stored) initial distinguishes.met
  rw [run.begins.sameStore]
  exact fun _ _ found => (run.begins.given found).2

/-- Any two wires of an answer for one package lead to exporters of one identity.
Under the conditions, this holds of what a wire implies as well.  The exporters
are one generation if no other one has the identity. -/
theorem uses_consistent
    {answer : List Solution}
    (solved : resolver.resolve store target = .ok answer) :
    ∃ draft, (resolver.attempt store target).result = .ok draft ∧
      draft.solutions = answer ∧
      (∀ solution ∈ answer, ∀ other ∈ answer,
        ∀ wire ∈ solution.wires, ∀ theirs ∈ other.wires,
          theirs.package = wire.package →
            theirs.exporter.id = wire.exporter.id ∧
              (draft.Identifies wire.exporter →
                theirs.exporter = wire.exporter)) ∧
      ∀ earlier solution later, answer = earlier ++ solution :: later →
        ∀ wire ∈ solution.wires, ∀ other ∈ answer,
          (∀ condition, draft.Meets solution later other wire condition) →
            ∀ implied ∈ draft.implied wire, ∀ theirs ∈ other.wires,
              theirs.package = implied.package →
                theirs.exporter.id = implied.exporter.id ∧
                  (draft.Identifies implied.exporter →
                    theirs.exporter = implied.exporter) := by
  obtain ⟨draft, result, rfl⟩ := exists_of_solutions solved
  obtain ⟨framework, start, _, _, run⟩ := exists_run_of_attempt result
  have oneGeneration : ∀ {other : Solution} {theirs : Wire}
      {exporter : Generation}, other ∈ draft.solutions →
        theirs ∈ other.wires → theirs.exporter.id = exporter.id →
          draft.Identifies exporter → theirs.exporter = exporter :=
    fun answered listed same identifies =>
      identifies _ (run.exporter_mem_met answered listed) same
  refine ⟨draft, result, rfl, ?_, ?_⟩
  · intro solution member other otherMember wire listed theirs theirListed
      samePackage
    have sameId := run.exporter_eq member otherMember listed theirListed
      samePackage
    exact ⟨sameId, oneGeneration otherMember theirListed sameId⟩
  · intro earlier solution later split wire listed other answered meets
      implied member theirs theirListed samePackage
    have agree := run.usesAgree (meets .distinct)
    have trail := Search.trail_of_meets run.finished split (meets .timely)
      (meets .faithful) implied member
    have isNew := meets .isNew
    have solved : solution ∈ draft.solutions := by
      rw [split]
      exact List.mem_append_right _ List.mem_cons_self
    have before : other = solution ∨ other ∈ earlier := by
      rw [split] at answered
      rcases List.mem_append.1 answered with front | back
      · exact .inr front
      · rcases List.mem_cons.1 back with itself | after
        · exact .inl itself
        · exact absurd after (meets .ordered)
    have order := Search.order_of_split run.finished split
    have precedes : other.host.id = solution.host.id ∨
        draft.Precedes other.host.id solution.host.id :=
      before.imp (congrArg fun solved : Solution => solved.host.id)
        fun front => ⟨_, _, order, List.mem_map_of_mem front⟩
    obtain ⟨bound, found, isMine⟩ :=
      Draft.candidate?_of_mem_solutions solved
    obtain ⟨module, otherFound, isTheirs⟩ :=
      Draft.candidate?_of_mem_solutions answered
    rw [isMine] at listed isNew
    have held := theirListed
    rw [isTheirs] at held
    have sameId := agree found listed isNew trail precedes otherFound held
      samePackage
    exact ⟨sameId, oneGeneration answered theirListed sameId⟩

end Resolver

/-- The consumer of a chain and all that its wires imply share one source. -/
theorem Resolver.chain_uses_consistent :
    ∃ answer draft,
      (Sample.chain Sample.relay).resolver.resolve
        (Sample.chain Sample.relay).store
          (Sample.generation 0 Sample.consumer) = .ok answer ∧
      ((Sample.chain Sample.relay).resolver.attempt
        (Sample.chain Sample.relay).store
          (Sample.generation 0 Sample.consumer)).result = .ok draft ∧
      ∃ solution ∈ answer, ∃ wire ∈ solution.wires,
        (∀ condition, draft.Meets solution answer.tail solution wire
          condition) ∧
        ∃ implied ∈ draft.implied wire, ∃ theirs ∈ solution.wires,
          wire.package ≠ implied.package ∧
            theirs.package = implied.package ∧
              theirs.exporter.id = implied.exporter.id ∧
                theirs.exporter = implied.exporter := by
  let source : Wire :=
    ⟨"q", Sample.offer "q" 2, Sample.generation 2 Sample.source⟩
  let wire : Wire :=
    ⟨"p", Sample.offer "p" 1 ["q"], Sample.generation 1 Sample.relay⟩
  let solution : Solution :=
    ⟨Sample.generation 0 Sample.consumer, [], [wire, source], []⟩
  let later : List Solution :=
    [⟨Sample.generation 1 Sample.relay, [], [source], []⟩,
      ⟨Sample.generation 2 Sample.source, [], [], []⟩]
  have solved : (Sample.chain Sample.relay).resolver.resolve
      (Sample.chain Sample.relay).store
        (Sample.generation 0 Sample.consumer) = .ok (solution :: later) :=
    Search.eq_ok_of_toOption (by decide +kernel)
  obtain ⟨draft, result, _, _, consistent⟩ := Resolver.uses_consistent solved
  have facts : (((Sample.chain Sample.relay).resolver.attempt
      (Sample.chain Sample.relay).store
        (Sample.generation 0 Sample.consumer)).result.toOption.all
          fun draft => decide (source ∈ draft.implied wire ∧
            draft.Identifies source.exporter ∧
              ∀ condition, draft.Meets solution later solution wire
                condition)) = true := by decide +kernel
  rw [result] at facts
  obtain ⟨follows, identifies, all⟩ := of_decide_eq_true facts
  have listed : wire ∈ solution.wires := List.mem_cons_self
  have theirs : source ∈ solution.wires := by simp [solution]
  obtain ⟨sameId, oneGeneration⟩ := consistent [] solution later rfl wire
    listed solution List.mem_cons_self all source follows source theirs rfl
  exact ⟨_, draft, solved, result, solution, List.mem_cons_self, wire, listed,
    all, source, follows, source, theirs, by simp [wire, source], rfl, sameId,
    oneGeneration identifies⟩

/-! ## No condition can be left out -/

/-- A wire of an answer, another one that it implies, and a wire that a solution has
for the package of that. -/
structure Encounter where
  world : World
  target : Generation
  draft : Draft
  solution : Solution
  later : List Solution
  other : Solution
  wire : Wire
  implied : Wire
  theirs : Wire

/-- The wires are met in an answer that is given in a reachable world. -/
structure Encounter.Arises (encounter : Encounter) : Prop where
  reachable : encounter.world.Reachable
  made : encounter.target ∈ encounter.world.made
  attempted : (encounter.world.resolver.attempt encounter.world.store
    encounter.target).result = .ok encounter.draft
  split : ∃ earlier, encounter.draft.solutions =
    earlier ++ encounter.solution :: encounter.later
  answered : encounter.other ∈ encounter.draft.solutions
  listed : encounter.wire ∈ encounter.solution.wires
  follows : encounter.implied ∈ encounter.draft.implied encounter.wire
  theirListed : encounter.theirs ∈ encounter.other.wires
  samePackage : encounter.theirs.package = encounter.implied.package

/-- Under the conditions, the exporters that wires of an answer imply and those that
its solutions have are the same, in some sense. -/
def Condition.rule (same : Generation → Generation → Prop) :
    Rule Condition Encounter where
  Arises := Encounter.Arises
  Meets encounter := encounter.draft.Meets encounter.solution
    encounter.later encounter.other encounter.wire
  Holds encounter :=
    same encounter.theirs.exporter encounter.implied.exporter

/-- A wire of the first solution meets what is asked for, and implies an exporter
that another solution contradicts. -/
def Draft.Clashes (draft : Draft) (same : Generation → Generation → Prop)
    (asked : Condition → Prop) : Prop :=
  ∃ solution ∈ draft.solutions.head?, ∃ other ∈ draft.solutions,
    ∃ wire ∈ solution.wires,
      (∀ condition, asked condition → draft.Meets solution
        draft.solutions.tail other wire condition) ∧
      ∃ implied ∈ draft.implied wire, ∃ theirs ∈ other.wires,
        theirs.package = implied.package ∧
          ¬ same theirs.exporter implied.exporter

instance Draft.decidableClashes (draft : Draft)
    (same : Generation → Generation → Prop) [DecidableRel same]
    (asked : Condition → Prop) [DecidablePred asked] :
    Decidable (draft.Clashes same asked) :=
  inferInstanceAs (Decidable (∃ _ ∈ _, _))

namespace Sample

/-- The provider of a package that another module wires elsewhere. -/
def crossing : World :=
  world [bundle "a" [] [wish "p" 1, wish "s" 1],
    bundle "y" [offer "p" 1 ["q"], offer "q" 1] [],
    bundle "b" [offer "s" 1] [wish "q" 2], source]

/-- A fragment that brings a used package to the provider. -/
def latecomer : World :=
  world [consumer, bundle "y" [offer "p" 1 ["q"]] [], source,
    fragment "f" "y" [offer "q" 1] []]

/-- The consumer of that world, resolved before and opened for a fragment. -/
def reopened : World :=
  (latecomer.applying (generation 0 consumer) fun _ => true).installing
    (id 4, fragment "g" "a" [] [])

/-- A bundle with two packages that are wired in the second place. -/
def dependent : Manifest :=
  bundle "a" [] [wish "p" 1, wish "s" 2]

/-- A provider of a package in two versions, the second of which leads back to the
first. -/
def returning : World :=
  world [dependent, bundle "y" [offer "p" 1 ["q"]] [wish "q" 2],
    bundle "r" [offer "q" 1 ["s"], offer "q" 2 ["r"], offer "r" 1 ["q"],
      offer "s" 1] [],
    bundle "w" [offer "s" 2] []]

/-- A module that has been resolved, and its successor under the same identity. -/
def outgoing : Manifest :=
  bundle "g" [offer "m" 1 ["s"]] [wish "s" 1]

def incoming : Manifest :=
  bundle "g" [offer "n" 1 ["s"]] [wish "s" 2]

/-- Bundles that are wired to the one and to the other. -/
def early : Manifest :=
  bundle "r" [offer "c" 1 ["m"]] [wish "m" 1]

def late : Manifest :=
  bundle "t" [offer "q" 1 ["back", "n"]] [wish "back" 1, wish "n" 1]

/-- A bundle that leads to both, by two versions of one package. -/
def forked : Manifest :=
  bundle "y" [offer "p" 1 ["c"], offer "p" 2 ["q"], offer "back" 1 ["p"]]
    [wish "c" 1, wish "q" 1]

/-- The world after a module has been replaced. -/
def updated : World :=
  (((((world [bundle "w" [offer "s" 1] [], outgoing, early]).applying
    (generation 2 early) fun _ => true).removing
      (generation 1 outgoing)).installing
        (id 1, incoming)).installing
          (id 3, bundle "z" [offer "s" 2] [])).installing (id 4, late)

/-- The world in which neither the module nor its successor is tracked. -/
def doubled : World :=
  (((updated.installing (id 5, forked)).applying ⟨5, id 4, late⟩
    fun host => host.symbolicName ≠ "y").removing
      ⟨3, id 1, incoming⟩).installing
        (id 6, bundle "a" [] [wish "p" 2, wish "s" 1])

/-- An exporter of a newer version. -/
def rival : Manifest :=
  bundle "z" [offer "p" 2] []

/-- A bundle that takes any version, which its own export uses. -/
def careless : Manifest :=
  bundle "b" [offer "s" 1 ["p"]] [Import.of ["p"]]

/-- A fragment that needs this bundle. -/
def joining : Manifest :=
  fragment "g" "a" [] [wish "s" 1]

/-- The world in which the importer of the older version has been wired, its
exporter has been removed, and the newer one has come under the identity of
that. -/
def replaced : World :=
  ((((pair.applying (generation 0 importer) fun _ => true).removing
    (generation 1 exporter)).installing (id 1, rival)).installing
      (id 3, careless)).installing (id 4, joining)

theorem reachable_replaced : replaced.Reachable := by
  refine World.Reachable.installing ?_ (by decide +kernel)
    (by decide +kernel)
  refine World.Reachable.installing ?_ (by decide +kernel)
    (by decide +kernel)
  refine World.Reachable.installing ?_ (by decide +kernel)
    (by decide +kernel)
  refine World.Reachable.removing ?_ (by decide +kernel)
  exact (reachable_world _).applying (by decide +kernel) _

theorem reachable_reopened : reopened.Reachable := by
  refine World.Reachable.installing ?_ (by decide +kernel)
      (by decide +kernel)
  exact (reachable_world _).applying (by decide +kernel) _

theorem reachable_doubled : doubled.Reachable := by
  have replaced : updated.Reachable := by
    refine World.Reachable.installing ?_ (by decide +kernel)
      (by decide +kernel)
    refine World.Reachable.installing ?_ (by decide +kernel)
      (by decide +kernel)
    refine World.Reachable.installing ?_ (by decide +kernel)
      (by decide +kernel)
    refine World.Reachable.removing ?_ (by decide +kernel)
    exact (reachable_world _).applying (by decide +kernel) _
  refine World.Reachable.installing ?_ (by decide +kernel)
      (by decide +kernel)
  refine World.Reachable.removing ?_ (by decide +kernel)
  refine World.Reachable.applying ?_ (by decide +kernel) _
  exact replaced.installing (by decide +kernel) (by decide +kernel)

end Sample

namespace Condition

variable {same : Generation → Generation → Prop} [DecidableRel same]
  {asked : Condition → Prop} [DecidablePred asked]

theorem not_suffices_of_clash
    (world : World) (target : Generation) (reachable : world.Reachable)
    (made : target ∈ world.made)
    (clash : ((world.resolver.attempt world.store target).result.toOption.any
      fun draft => decide (draft.Clashes same asked)) = true) :
    ¬ (rule same).Suffices asked := by
  obtain ⟨draft, found, clashes⟩ := (Option.any_eq_true _ _).1 clash
  obtain ⟨solution, first, other, answered, wire, listed, meets, implied,
    follows, theirs, theirListed, samePackage, different⟩ :=
      of_decide_eq_true clashes
  have split : draft.solutions = solution :: draft.solutions.tail :=
    List.eq_cons_of_mem_head? first
  have arises : Encounter.Arises ⟨world, target, draft, solution,
      draft.solutions.tail, other, wire, implied, theirs⟩ :=
    ⟨reachable, made, Search.eq_ok_of_toOption found, ⟨[], split⟩, answered,
      listed, follows, theirListed, samePackage⟩
  have breaks : (rule same).Breaks asked _ := ⟨arises, meets, different⟩
  exact breaks.not_suffices

/-- What the wires of an answer imply is not always consistent, nor is it when one
of the conditions is left out.  Under all of them, the exporters have the same
identity, but may still be two generations. -/
theorem none_dispensable :
    (rule fun left right => left.id = right.id).NoneDispensable ∧
      ¬ (rule fun left right => left = right).Suffices fun _ => True := by
  constructor
  · refine Rule.noneDispensable fun missing => ?_
    cases missing with
    | ordered =>
        exact not_suffices_of_clash Sample.crossing
          (Sample.generation 0 (Sample.bundle "a" []
            [Sample.wish "p" 1, Sample.wish "s" 1]))
          (Sample.reachable_world _) (by decide +kernel) (by decide +kernel)
    | isNew =>
        exact not_suffices_of_clash Sample.reopened
          (Sample.generation 4 (Sample.fragment "g" "a" [] []))
          Sample.reachable_reopened (by decide +kernel) (by decide +kernel)
    | timely =>
        exact not_suffices_of_clash Sample.latecomer
          (Sample.generation 0 Sample.consumer)
          (Sample.reachable_world _) (by decide +kernel) (by decide +kernel)
    | faithful =>
        exact not_suffices_of_clash Sample.returning
          (Sample.generation 0 Sample.dependent)
          (Sample.reachable_world _) (by decide +kernel) (by decide +kernel)
    | distinct =>
        exact not_suffices_of_clash Sample.doubled
          ⟨7, Sample.id 6, Sample.bundle "a" []
            [Sample.wish "p" 2, Sample.wish "s" 1]⟩
          Sample.reachable_doubled (by decide +kernel) (by decide +kernel)
  · exact not_suffices_of_clash Sample.replaced
      (Sample.generation 4 Sample.joining)
      Sample.reachable_replaced (by decide +kernel) (by decide +kernel)

end Condition

end ModuleWiring
