import ModuleWiring.Draft.Uses
import ModuleWiring.Proofs.Traversal

/-!
# What a wire commits to

The wires that a wire implies are those that uses lists lead to from it.  Where
the identity of a generation tells what it stands for, no order of the visits
makes a difference.
-/

namespace ModuleWiring

/-- A view is told from others by its package and the identity of its owner. -/
def View.key (view : View) : GenerationId × String :=
  (view.owner.id, view.package)

namespace Wire

/-- The view that the exporter of a wire has of its package. -/
def source (wire : Wire) : View :=
  ⟨wire.exporter, wire.package⟩

/-- Wires to the same export of generations with one identity. -/
structure Alike (left right : Wire) : Prop where
  package : left.package = right.package
  declared : left.declared = right.declared
  exporter : left.exporter.id = right.exporter.id

theorem Alike.refl (wire : Wire) : wire.Alike wire :=
  ⟨rfl, rfl, rfl⟩

theorem Alike.trans
    {first second third : Wire} (left : first.Alike second)
    (right : second.Alike third) :
    first.Alike third :=
  ⟨left.package.trans right.package, left.declared.trans right.declared,
    left.exporter.trans right.exporter⟩

end Wire

namespace Draft

variable {draft : Draft} {start wire : Wire} {view : View}

theorem mem_usedViews :
    view ∈ usedViews wire ↔
      view.owner = wire.exporter ∧ view.package ∈ wire.declared.uses := by
  obtain ⟨owner, package⟩ := view
  constructor
  · intro member
    obtain ⟨used, listed, same⟩ := List.mem_map.1 member
    cases same
    exact ⟨rfl, listed⟩
  · rintro ⟨rfl, listed⟩
    exact List.mem_map_of_mem listed

theorem mem_nextViews {next : View} :
    next ∈ draft.nextViews view ↔
      ∃ wire, draft.target? view = some wire ∧ next ∈ usedViews wire := by
  unfold nextViews
  cases draft.target? view with
  | none => simp
  | some wire => simp

/-- The views that are visited to find out what a wire implies. -/
structure Visits (draft : Draft) (start : Wire) (visited : List View) :
    Prop where
  implied : draft.implied start = start :: visited.filterMap draft.target?
  first : ∀ view ∈ usedViews start, view.key = start.source.key ∨
    view.key ∈ visited.map View.key
  closed : ∀ view ∈ visited, ∀ next ∈ draft.nextViews view,
    next.key = start.source.key ∨ next.key ∈ visited.map View.key
  reached : ∀ Holds : View → Prop, (∀ view ∈ usedViews start, Holds view) →
    (∀ view ∈ visited, Holds view → view.key ≠ start.source.key →
      ∀ next ∈ draft.nextViews view, Holds next) →
      ∀ view ∈ visited, Holds view ∧ view.key ≠ start.source.key

theorem exists_visits (draft : Draft) (start : Wire) :
    ∃ visited, draft.Visits start visited := by
  refine ⟨_, rfl, ?_, ?_, ?_⟩
  · intro view used
    exact Or.imp List.mem_singleton.1 id
      ((draft.usesNetwork start).key_mem_walk.1 view used)
  · intro view listed next onward
    exact Or.imp List.mem_singleton.1 id
      ((draft.usesNetwork start).key_mem_walk.2 view listed next onward)
  · intro Holds used onward view listed
    have reached := Network.forall_mem_walk Holds used
      (fun node visited holds new => onward node visited holds
        fun same => new (List.mem_singleton.2 same)) view listed
    exact ⟨reached.1, fun same => reached.2 (List.mem_singleton.2 same)⟩

namespace Visits

variable {visited : List View} (visits : draft.Visits start visited)

include visits

theorem mem_implied_iff :
    wire ∈ draft.implied start ↔
      wire = start ∨ ∃ view ∈ visited, draft.target? view = some wire := by
  rw [visits.implied, List.mem_cons, List.mem_filterMap]

/-- What implied wires use has been visited. -/
theorem key_mem_of_used
    (implied : wire ∈ draft.implied start) (used : view ∈ usedViews wire) :
    view.key = start.source.key ∨ view.key ∈ visited.map View.key := by
  rcases visits.mem_implied_iff.1 implied with same | ⟨before, listed, stands⟩
  · rw [same] at used
    exact visits.first view used
  · exact visits.closed before listed view
      (mem_nextViews.2 ⟨wire, stands, used⟩)

end Visits

/-- What holds of a wire and passes on to what its export uses holds of
everything that the wire implies.  The view that the wire itself leads to is not
looked into. -/
theorem forall_mem_implied
    (Holds : Wire → Prop) (first : Holds start)
    (onward : ∀ {wire view next}, Holds wire → view ∈ usedViews wire →
      draft.target? view = some next → view.key ≠ start.source.key →
        next ∈ draft.implied start → Holds next) :
    ∀ wire ∈ draft.implied start, Holds wire := by
  obtain ⟨visited, visits⟩ := draft.exists_visits start
  have member : ∀ {view next}, view ∈ visited →
      draft.target? view = some next → next ∈ draft.implied start :=
    fun listed found => visits.mem_implied_iff.2 (.inr ⟨_, listed, found⟩)
  intro wire implied
  rcases visits.mem_implied_iff.1 implied with rfl | ⟨view, listed, found⟩
  · exact first
  · obtain ⟨⟨before, holds, used⟩, new⟩ := visits.reached
      (fun view => ∃ wire, Holds wire ∧ view ∈ usedViews wire)
      (fun view used => ⟨start, first, used⟩)
      (by
        rintro view visited ⟨before, holds, used⟩ new successor onwards
        obtain ⟨next, found, uses⟩ := mem_nextViews.1 onwards
        exact ⟨next, onward holds used found new (member visited found),
          uses⟩)
      view listed
    exact onward holds used found new (member listed found)

/-- A trail of uses lists, along which each view and what it stands for is
allowed. -/
inductive Trail (draft : Draft) (Allowed : View → Wire → Prop)
    (start : Wire) : Wire → Prop where
  | refl : Trail draft Allowed start start
  | step {wire next : Wire} {view : View} :
      Trail draft Allowed start wire → view ∈ usedViews wire →
        draft.target? view = some next → Allowed view next →
          Trail draft Allowed start next

/-- The exporter of a wire stands for its package with the same export, or with
none at all. -/
def IsFaithful (draft : Draft) (wire : Wire) : Prop :=
  ∀ ⦃target⦄, draft.target? wire.source = some target →
    target.declared = wire.declared ∧
      target.exporter.id = wire.exporter.id

/-- Among known generations the identity tells what a generation stands for. -/
structure IsCoherent (draft : Draft) (known : Generation → Prop) : Prop where
  alike : ∀ {left right : View}, known left.owner → known right.owner →
    left.key = right.key →
      Option.Rel Wire.Alike (draft.target? left) (draft.target? right)
  closed : ∀ {view wire}, known view.owner →
    draft.target? view = some wire → known wire.exporter
  filed : ∀ {view wire}, draft.target? view = some wire →
    wire.package = view.package

variable {known : Generation → Prop}

theorem IsCoherent.exists_alike
    (coherent : draft.IsCoherent known) {left right : View} {wire : Wire}
    (leftKnown : known left.owner) (rightKnown : known right.owner)
    (same : left.key = right.key) (found : draft.target? left = some wire) :
    ∃ other, draft.target? right = some other ∧ wire.Alike other := by
  have related := coherent.alike leftKnown rightKnown same
  rw [found] at related
  cases other : draft.target? right with
  | none =>
      rw [other] at related
      cases related
  | some target =>
      rw [other] at related
      cases related with
      | some alike => exact ⟨target, rfl, alike⟩

theorem IsCoherent.known_of_visited
    (coherent : draft.IsCoherent known) (startKnown : known start.exporter)
    {visited : List View} (visits : draft.Visits start visited) :
    ∀ view ∈ visited, known view.owner := by
  intro view listed
  refine (visits.reached (fun view => known view.owner) ?_ ?_ view listed).1
  · intro view used
    rw [(mem_usedViews.1 used).1]
    exact startKnown
  · intro view _ holds _ next onward
    obtain ⟨target, found, used⟩ := mem_nextViews.1 onward
    rw [(mem_usedViews.1 used).1]
    exact coherent.closed holds found

/-- What a trail leads to is implied, if it returns to where it started only when
this changes nothing. -/
theorem exists_alike_of_trail
    {Allowed : View → Wire → Prop} (coherent : draft.IsCoherent known)
    (startKnown : known start.exporter)
    (returns : ∀ {view next}, Allowed view next →
      view.key = start.source.key → draft.IsFaithful start)
    (trail : draft.Trail Allowed start wire) :
    known wire.exporter ∧
      ∃ other ∈ draft.implied start, wire.Alike other := by
  obtain ⟨visited, visits⟩ := draft.exists_visits start
  induction trail with
  | refl =>
      exact ⟨startKnown, start, visits.mem_implied_iff.2 (.inl rfl),
        .refl start⟩
  | @step wire next view _ used found allowed inductionHypothesis =>
      obtain ⟨wireKnown, other, member, alike⟩ := inductionHypothesis
      obtain ⟨owner, package⟩ := mem_usedViews.1 used
      have viewKnown : known view.owner := owner ▸ wireKnown
      refine ⟨coherent.closed viewKnown found, ?_⟩
      -- The view that has been visited in the place of this one.
      have sameKey : (View.mk other.exporter view.package).key =
          view.key := by
        unfold View.key
        rw [owner, alike.exporter]
      have otherUsed : View.mk other.exporter view.package ∈
          usedViews other :=
        mem_usedViews.2 ⟨rfl, alike.declared ▸ package⟩
      have hit := visits.key_mem_of_used member otherUsed
      rw [sameKey] at hit
      rcases hit with returned | visitedKey
      · obtain ⟨target, stands, nextAlike⟩ := coherent.exists_alike viewKnown
          startKnown returned found
        obtain ⟨declared, exporter⟩ := returns allowed returned stands
        exact ⟨start, visits.mem_implied_iff.2 (.inl rfl), nextAlike.trans
          ⟨coherent.filed stands, declared, exporter⟩⟩
      · obtain ⟨twin, listed, twinKey⟩ := List.mem_map.1 visitedKey
        have twinKnown := coherent.known_of_visited startKnown visits
        obtain ⟨target, stands, nextAlike⟩ := coherent.exists_alike viewKnown
          (twinKnown twin listed) twinKey.symm found
        exact ⟨target, visits.mem_implied_iff.2 (.inr ⟨twin, listed, stands⟩),
          nextAlike⟩

end Draft

end ModuleWiring
