import Mathlib.Data.List.Nodup
import ModuleWiring.Proofs.Replacement

/-!
# What chosen wires commit modules to

When a module is wired, what its wires imply agrees with the wires of all modules
that were decided before it.  What is decided later keeps this up, as long as
the trails of uses lists do not lead through fragments that join later, or
through exports for which their exporter does not stand.
-/

namespace ModuleWiring

namespace Draft

variable {draft result : Draft} {bound new : BoundModule}
  {checked : List Wire} {known : Generation → Prop}

/-- In a list without repetitions only one place is that of an item. -/
theorem eq_of_split
    {α : Type} {item : α} {before after front back : List α}
    (distinct : (before ++ item :: after).Nodup)
    (same : before ++ item :: after = front ++ item :: back) :
    before = front ∧ after = back := by
  rw [List.nodup_middle, List.nodup_cons, List.mem_append, not_or] at distinct
  have sides := (List.append_cons_inj_of_notMem distinct.1.1
    distinct.1.2).1 same
  exact ⟨sides.1, sides.2.2⟩

/-- The modules that a search has begun to decide, in their order. -/
def order (draft : Draft) : List GenerationId :=
  draft.settled ++ draft.resolving.toList

def Precedes (draft : Draft) (first second : GenerationId) : Prop :=
  ∃ earlier later, draft.order = earlier ++ second :: later ∧
    first ∈ earlier

theorem not_precedes_of_resolving
    {id : GenerationId} (resolving : draft.resolving = some id)
    (unsettled : id ∉ draft.settled) (other : GenerationId) :
    ¬ draft.Precedes id other := by
  rintro ⟨earlier, later, same, member⟩
  rw [order, resolving, Option.toList_some] at same
  have front := congrArg List.dropLast same
  rw [List.dropLast_concat,
    List.dropLast_append_of_ne_nil (List.cons_ne_nil _ _)] at front
  rw [front] at unsettled
  exact unsettled (List.mem_append_left _ member)

theorem precedes_of_mem_order
    {id current : GenerationId} (begun : id ∈ draft.order)
    (resolving : draft.resolving = some current) (different : current ≠ id) :
    draft.Precedes id current := by
  refine ⟨draft.settled, [], by rw [order, resolving]; rfl, ?_⟩
  rcases List.mem_append.1 begun with settled | inCharge
  · exact settled
  · rw [resolving, Option.mem_toList] at inCharge
    exact absurd (Option.some.inj inCharge) different

/-- Modules that come later change nothing about the order of those before
them. -/
theorem precedes_of_append
    {more : List GenerationId} (order : result.order = draft.order ++ more)
    (distinct : result.order.Nodup) {id other : GenerationId}
    (begun : id ∈ draft.order) (precedes : result.Precedes other id) :
    draft.Precedes other id := by
  obtain ⟨front, back, same, earlier⟩ := precedes
  obtain ⟨before, after, split⟩ := List.append_of_mem begun
  refine ⟨before, after, split, ?_⟩
  rw [order, split, List.append_assoc, List.cons_append] at same distinct
  exact (eq_of_split distinct same).1 ▸ earlier

/-- A module that comes later has a fragment that brings the export behind a
wire. -/
def BringsLate (draft : Draft) (id : GenerationId) (wire : Wire) : Prop :=
  ∃ later bound, draft.Precedes id later ∧
    draft.candidate? later = some (.bound bound) ∧ bound.Brings wire

/-- The steps of uses lists from a wire of a module that no later decision can
turn. -/
structure Allows (draft : Draft) (id : GenerationId) (start : Wire)
    (view : View) (next : Wire) : Prop where
  onward : view.key ≠ start.source.key
  faithful : draft.IsFaithful next
  timely : ¬ draft.BringsLate id next

/-- What a chosen wire implies agrees with the wires of its module and of all
before it. -/
def UsesAgree (draft : Draft) : Prop :=
  ∀ ⦃id : GenerationId⦄ ⦃mine : BoundModule⦄ ⦃wire implied : Wire⦄,
    draft.candidate? id = some (.bound mine) →
    wire ∈ mine.wirings.values → wire ∉ draft.store.wires mine.host →
    draft.Trail (draft.Allows id wire) wire implied →
    ∀ ⦃other : GenerationId⦄ ⦃others : BoundModule⦄ ⦃theirs : Wire⦄,
      other = id ∨ draft.Precedes other id →
      draft.candidate? other = some (.bound others) →
      theirs ∈ others.wirings.values → theirs.package = implied.package →
        theirs.exporter.id = implied.exporter.id

theorem mem_implied_self (draft : Draft) (wire : Wire) :
    wire ∈ draft.implied wire :=
  List.mem_cons_self

namespace Replaces

variable (replaces : draft.Replaces result bound new)
  (accords : draft.Accords bound new checked)

include replaces

theorem precedes {first second : GenerationId} :
    result.Precedes first second ↔ draft.Precedes first second := by
  unfold Precedes order
  rw [replaces.settled, replaces.resolving]

include accords

theorem isFaithful
    {wire : Wire} (faithful : result.IsFaithful wire) :
    draft.IsFaithful wire := by
  intro target stands
  by_cases here : bound.host.id = wire.exporter.id
  · have isHost : bound.host.id = wire.source.owner.id := here
    obtain ⟨now, before⟩ := replaces.target?_here isHost
    rw [before] at stands
    rcases accords.lasting here stands with same | ⟨other, turned, foreign⟩
    · exact faithful (now.trans same)
    · exact absurd (faithful (now.trans turned)).2 foreign
  · exact faithful ((replaces.target?_of_ne here).trans stands)

theorem bringsLate
    {id : GenerationId} {wire : Wire} (late : draft.BringsLate id wire) :
    result.BringsLate id wire := by
  obtain ⟨later, other, precedes, found, host, fragment, member, exported⟩ :=
    late
  have follows := replaces.precedes.2 precedes
  by_cases here : bound.host.id = later
  · subst here
    rw [replaces.found] at found
    cases found
    exact ⟨_, new, follows, replaces.here, replaces.host ▸ host, fragment,
      accords.fragments member, exported⟩
  · refine ⟨later, other, follows, ?_, host, fragment, member, exported⟩
    rcases replaces.elsewhere later here with same | ⟨_, before, _⟩
    · exact same.trans found
    · rw [found] at before
      cases before

/-- A wire of a bound candidate was there before, or it is new and has been
checked. -/
theorem wire_origin
    {id : GenerationId} {mine : BoundModule} {wire : Wire}
    (found : result.candidate? id = some (.bound mine))
    (member : wire ∈ mine.wirings.values) :
    (∃ before, draft.candidate? id = some (.bound before) ∧
      before.host = mine.host ∧ wire ∈ before.wirings.values) ∨
    (bound.host.id = id ∧
      draft.implied wire ++ draft.accepted bound ⊆ checked) := by
  by_cases here : bound.host.id = id
  · subst here
    rw [replaces.here] at found
    cases found
    rcases accords.added wire member with old | covered
    · exact .inl ⟨bound, replaces.found, replaces.host.symm, old⟩
    · exact .inr ⟨rfl, covered⟩
  · rcases replaces.bound_of_ne here found with same | ⟨installed, rfl⟩
    · exact .inl ⟨mine, same, rfl, member⟩
    · cases member

end Replaces

/-- What has been checked agrees with every wire in use and with all else that
has been checked. -/
theorem Accords.exporter_eq
    (accords : draft.Accords bound new checked) {wire other theirs : Wire}
    (member : other ∈ checked) (alike : wire.Alike other)
    (committed : theirs ∈ checked ∨ draft.InUse theirs)
    (samePackage : theirs.package = wire.package) :
    theirs.exporter.id = wire.exporter.id :=
  (exporter_eq_of_agrees accords.agrees member committed
    (samePackage.trans alike.package)).trans alike.exporter.symm

theorem nodup_order
    {node : Node} (scheduled : Search.Scheduled node) :
    node.draft.order.Nodup := by
  have distinct := scheduled.distinct
  rw [← List.append_assoc] at distinct
  exact (List.nodup_append.1 distinct).1

theorem exists_alike_of_allows
    {id : GenerationId} {start wire : Wire}
    (coherent : draft.IsCoherent known) (startKnown : known start.exporter)
    (trail : draft.Trail (draft.Allows id start) start wire) :
    known wire.exporter ∧
      ∃ other ∈ draft.implied start, wire.Alike other :=
  exists_alike_of_trail coherent startKnown
    (fun allows returned => absurd returned allows.onward) trail

section

variable {phase : Phase} (scheduled : Search.Scheduled ⟨phase, draft⟩)
  {id other : GenerationId} {mine : BoundModule} {wire : Wire}

include scheduled

/-- A search has begun to decide every module that has a wire. -/
theorem mem_order_of_wire
    (found : draft.candidate? id = some (.bound mine))
    (member : wire ∈ mine.wirings.values) :
    id ∈ draft.order := by
  rcases scheduled.placed found with settled | current | waiting
  · exact List.mem_append_left _ settled
  · exact List.mem_append_right _ (Option.mem_toList.2 current)
  · obtain ⟨installed, fresh⟩ := scheduled.queued id waiting
    rw [found] at fresh
    cases fresh
    cases member

namespace Replaces

variable (replaces : draft.Replaces result bound new)
  (accords : draft.Accords bound new checked)

include replaces

/-- The module in charge is the last. -/
theorem eq_of_precedes
    (precedes : bound.host.id = id ∨ result.Precedes bound.host.id id) :
    bound.host.id = id := by
  rcases precedes with same | comesBefore
  · exact same
  · have resolving := replaces.resolving_eq
    have unsettled := scheduled.not_settled_of_resolving resolving
    exact absurd (replaces.precedes.1 comesBefore)
      (not_precedes_of_resolving resolving unsettled id)

include accords

theorem committed
    (found : result.candidate? id = some (.bound mine))
    (member : wire ∈ mine.wirings.values) :
    wire ∈ checked ∨ draft.InUse wire := by
  rcases replaces.wire_origin accords found member with
    ⟨before, old, _, held⟩ | ⟨_, covered⟩
  · exact .inr ⟨id, .bound before, scheduled.used old, old, held⟩
  · exact .inl (covered (List.mem_append_left _
      (draft.mem_implied_self wire)))

/-- What fragments bring to the module in charge comes late to every module that
has a wire already. -/
theorem bringsLate_of_unwired
    {turned : Wire} (unwired : new.wirings = ∅)
    (brought : new.Brings turned)
    (found : result.candidate? id = some (.bound mine))
    (member : wire ∈ mine.wirings.values) :
    result.BringsLate id turned := by
  have different : bound.host.id ≠ id := by
    rintro rfl
    rw [replaces.here] at found
    cases found
    rw [unwired] at member
    cases member
  rcases replaces.wire_origin accords found member with
    ⟨before, old, _, held⟩ | ⟨same, _⟩
  · have begun := mem_order_of_wire scheduled old held
    have precedes :=
      precedes_of_mem_order begun replaces.resolving_eq different
    exact ⟨bound.host.id, new, replaces.precedes.2 precedes, replaces.here,
      brought⟩
  · exact absurd same different

variable (coherent : draft.IsCoherent known)
  (stillCoherent : result.IsCoherent known)

include coherent stillCoherent

/-- What a trail leads to through something that the decision has turned has been
checked. -/
theorem exists_checked_of_turned
    {before turned implied : Wire} {view : View}
    (wireKnown : known wire.exporter)
    (found : result.candidate? id = some (.bound mine))
    (member : wire ∈ mine.wirings.values)
    (walked : result.Trail (result.Allows id wire) wire before)
    (used : view ∈ usedViews before) (here : bound.host.id = view.owner.id)
    (now : result.target? view = some turned)
    (changed : draft.target? view ≠ some turned)
    (allows : result.Allows id wire view turned)
    (onwards : draft.Trail (result.Allows id wire) turned implied) :
    ∃ twin ∈ checked, implied.Alike twin := by
  obtain ⟨beforeKnown, _⟩ :=
    exists_alike_of_allows stillCoherent wireKnown walked
  have turnedKnown : known turned.exporter :=
    stillCoherent.closed ((mem_usedViews.1 used).1 ▸ beforeKnown) now
  obtain ⟨nowStands, beforeStood⟩ := replaces.target?_here here
  rw [nowStands] at now
  rcases accords.turned here now with same | covered | ⟨unwired, brought⟩
  · exact absurd (beforeStood.trans same) changed
  · have faithful := replaces.isFaithful accords allows.faithful
    obtain ⟨_, twin, twinMember, alike⟩ :=
      exists_alike_of_trail coherent turnedKnown (fun _ _ => faithful) onwards
    exact ⟨twin, covered twinMember, alike⟩
  · have late := replaces.bringsLate_of_unwired scheduled accords unwired
      brought found member
    exact absurd late allows.timely

/-- A decision of the module in charge that has been checked keeps all agreed. -/
theorem usesAgree
    (leads : ∀ {id candidate}, result.candidate? id = some candidate →
      candidate.LeadsTo known)
    (agree : draft.UsesAgree) :
    result.UsesAgree := by
  intro id mine wire implied found member isNew trail other others theirs
    precedes otherFound theirMember samePackage
  have wireKnown : known wire.exporter := (leads found).wires wire member
  have committed :=
    replaces.committed scheduled accords otherFound theirMember
  rcases replaces.trail trail with lasted | ⟨last, view, turned, walked, used,
    here, now, changed, allows, onwards⟩
  · have before : draft.Trail (draft.Allows id wire) wire implied :=
      lasted.mono fun stands allows => ⟨stands, allows.onward,
        replaces.isFaithful accords allows.faithful,
        fun late => allows.timely (replaces.bringsLate accords late)⟩
    obtain ⟨_, twin, twinMember, alike⟩ :=
      exists_alike_of_allows coherent wireKnown before
    rcases replaces.wire_origin accords found member with
      ⟨earlier, old, sameHost, held⟩ | ⟨_, covered⟩
    · rcases replaces.wire_origin accords otherFound theirMember with
        ⟨module, theirOld, _, theirHeld⟩ | ⟨isCurrent, covered⟩
      · rw [← sameHost, replaces.store] at isNew
        exact agree old held isNew before
          (precedes.imp_right replaces.precedes.1) theirOld theirHeld
          samePackage
      · -- Both wires are those of the module in charge.
        rw [← isCurrent] at precedes
        have own := replaces.eq_of_precedes scheduled precedes
        rw [← own, replaces.found] at old
        cases old
        have accepted : twin ∈ draft.accepted bound :=
          List.mem_flatMap.2 ⟨wire, held, twinMember⟩
        exact accords.exporter_eq
          (covered (List.mem_append_right _ accepted)) alike committed
          samePackage
    · exact accords.exporter_eq
        (covered (List.mem_append_left _ twinMember)) alike committed
        samePackage
  · obtain ⟨twin, twinMember, alike⟩ := replaces.exists_checked_of_turned
      scheduled accords coherent stillCoherent wireKnown found member walked
      used here now changed allows onwards
    exact accords.exporter_eq twinMember alike committed samePackage

end Replaces

end

/-- A draft that only goes on to another module keeps all agreed. -/
theorem UsesAgree.proceed
    (agree : draft.UsesAgree)
    (candidates : ∀ id, result.candidate? id = draft.candidate? id)
    (store : result.store = draft.store)
    {more : List GenerationId} (order : result.order = draft.order ++ more)
    (distinct : result.order.Nodup)
    (begun : ∀ {id module wire}, draft.candidate? id = some (.bound module) →
      wire ∈ module.wirings.values → id ∈ draft.order) :
    result.UsesAgree := by
  have target? : ∀ view, result.target? view = draft.target? view := by
    intro view
    unfold Draft.target?
    rw [candidates, store]
  intro id mine wire implied found member isNew trail other others theirs
    precedes otherFound theirMember samePackage
  rw [candidates] at found otherFound
  rw [store] at isNew
  refine agree found member isNew ?_ ?_ otherFound theirMember samePackage
  · refine trail.mono fun stands allows =>
      ⟨(target? _).symm.trans stands, allows.onward, ?_, ?_⟩
    · exact fun target now => allows.faithful ((target? _).trans now)
    · rintro ⟨later, bound, ⟨front, back, same, earlier⟩, laterFound, brings⟩
      refine allows.timely
        ⟨later, bound, ⟨front, back ++ more, ?_, earlier⟩,
          (candidates later).trans laterFound, brings⟩
      rw [order, same, List.append_assoc]
      rfl
  · exact precedes.imp_right
      (precedes_of_append order distinct (begun found member))

end Draft

end ModuleWiring
