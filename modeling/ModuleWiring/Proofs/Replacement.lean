import ModuleWiring.Proofs.Identities

/-!
# Another module in the place of the one in charge

Most decisions put a new version of the module in charge into its place, and may
bind another candidate that offers as before.  Only the module in charge can
stand for something else then.
-/

namespace ModuleWiring

/-- What a view of a bound module stands for. -/
def BoundModule.target? (bound : BoundModule) (view : View) : Option Wire :=
  match bound.wirings.find? view.package with
  | some wire => some wire
  | none =>
      (bound.offers.find? (·.package = view.package)).map
        (·.toWire view.owner)

namespace Draft

/-- The module in charge is replaced, and others go on offering what they
offered. -/
structure Replaces (draft result : Draft) (bound new : BoundModule) :
    Prop where
  current : draft.resolvingBound? = some bound
  host : new.host = bound.host
  here : result.candidate? bound.host.id = some (.bound new)
  elsewhere : ∀ id, bound.host.id ≠ id →
    result.candidate? id = draft.candidate? id ∨
      ∃ installed, draft.candidate? id = some (.unresolved installed) ∧
        result.candidate? id = some (.bound (.of installed))
  store : result.store = draft.store
  settled : result.settled = draft.settled
  resolving : result.resolving = draft.resolving

variable {draft middle result : Draft} {bound new : BoundModule}

theorem Engaged.replaces
    {id : GenerationId} (engaged : draft.Engaged id middle)
    (current : draft.resolvingBound? = some bound)
    (host : new.host = bound.host) :
    draft.Replaces (middle.put (.bound new)) bound new where
  current := current
  host := host
  here := by
    rw [candidate?_put, id_bound, host]
    exact if_pos rfl
  elsewhere := by
    intro other different
    rw [candidate?_put_of_ne (host ▸ different)]
    by_cases isEngaged : id = other
    · exact isEngaged ▸ engaged.candidate?_self
    · exact .inl (engaged.candidate?_of_ne isEngaged)
  store := engaged.store
  settled := engaged.settled
  resolving := engaged.resolving

theorem replaces_put
    (current : draft.resolvingBound? = some bound)
    (host : new.host = bound.host) :
    draft.Replaces (draft.put (.bound new)) bound new := by
  have found := candidate?_of_resolvingBound? current
  have already : draft.Engaged bound.host.id draft :=
    .already (by simp [found])
  exact already.replaces current host

theorem Binds.replaces
    {installed : Generation} {joined : List Generation}
    (binds : draft.Binds result installed joined new)
    (current : draft.resolvingBound? = some (.of installed)) :
    draft.Replaces result (.of installed) new := by
  have put := replaces_put current binds.taken.host
  rw [binds.annotated]
  exact ⟨put.current, put.host, put.here, put.elsewhere, put.store,
    put.settled, put.resolving⟩

theorem target?_of_bound
    {view : View}
    (found : draft.candidate? view.owner.id = some (.bound bound)) :
    draft.target? view = bound.target? view := by
  unfold target?
  rw [found]
  rfl

namespace Replaces

variable (replaces : draft.Replaces result bound new)

include replaces

theorem found : draft.candidate? bound.host.id = some (.bound bound) :=
  candidate?_of_resolvingBound? replaces.current

theorem resolving_eq : draft.resolving = some bound.host.id := by
  obtain ⟨id, resolving, found⟩ := exists_of_resolvingBound? replaces.current
  have same : bound.host.id = id := id_of_candidate? found
  rw [resolving, same]

theorem resolvingBound?_eq : result.resolvingBound? = some new :=
  resolvingBound?_eq_some (replaces.resolving.trans replaces.resolving_eq)
    replaces.here

/-- Views of other generations stand for what they stood for. -/
theorem target?_of_ne
    {view : View} (different : bound.host.id ≠ view.owner.id) :
    result.target? view = draft.target? view := by
  unfold target?
  rcases replaces.elsewhere _ different with same | ⟨installed, before, after⟩
  · rw [same, replaces.store]
  · rw [before, after]
    rfl

theorem target?_here
    {view : View} (same : bound.host.id = view.owner.id) :
    result.target? view = new.target? view ∧
      draft.target? view = bound.target? view :=
  ⟨target?_of_bound (same ▸ replaces.here),
    target?_of_bound (same ▸ replaces.found)⟩

/-- A bound candidate other than the one in charge was bound before, or nothing
has been decided of it. -/
theorem bound_of_ne
    {id : GenerationId} {other : BoundModule}
    (different : bound.host.id ≠ id)
    (found : result.candidate? id = some (.bound other)) :
    draft.candidate? id = some (.bound other) ∨
      ∃ installed, other = .of installed := by
  rcases replaces.elsewhere id different with same | ⟨installed, _, after⟩
  · exact .inl (same ▸ found)
  · rw [found] at after
    cases after
    exact .inr ⟨installed, rfl⟩

/-- What a trail leads to has been reached before, or from what a view of the
module in charge newly stands for. -/
theorem trail
    {Allowed : View → Wire → Prop} {start wire : Wire}
    (trail : result.Trail Allowed start wire) :
    draft.Trail Allowed start wire ∨
      ∃ before view turned, result.Trail Allowed start before ∧
        view ∈ usedViews before ∧ bound.host.id = view.owner.id ∧
        result.target? view = some turned ∧
        draft.target? view ≠ some turned ∧ Allowed view turned ∧
        draft.Trail Allowed turned wire := by
  induction trail with
  | refl => exact .inl .refl
  | @step wire next view reached used found allowed inductionHypothesis =>
      by_cases kept : draft.target? view = some next
      · rcases inductionHypothesis with before | ⟨last, origin, turned, walked,
          leads, here, now, new, mayTurn, later⟩
        · exact .inl (.step before used kept allowed)
        · exact .inr ⟨last, origin, turned, walked, leads, here, now, new,
            mayTurn, .step later used kept allowed⟩
      · have here : bound.host.id = view.owner.id := by
          apply Decidable.of_not_not
          intro different
          exact kept (replaces.target?_of_ne different ▸ found)
        exact .inr ⟨wire, view, next, reached, used, here, found, kept,
          allowed, .refl⟩

end Replaces

theorem Trail.mono
    {Allowed Permitted : View → Wire → Prop} {start wire : Wire}
    (trail : draft.Trail Allowed start wire)
    (permitted : ∀ {view next}, draft.target? view = some next →
      Allowed view next →
        result.target? view = some next ∧ Permitted view next) :
    result.Trail Permitted start wire := by
  induction trail with
  | refl => exact .refl
  | step _ used found allowed inductionHypothesis =>
      have kept := permitted found allowed
      exact .step inductionHypothesis used kept.1 kept.2

end Draft

/-! ## What a decision may change for the module in charge -/

/-- A wire to an export that a fragment of a module brings. -/
def BoundModule.Brings (bound : BoundModule) (wire : Wire) : Prop :=
  bound.host.id = wire.exporter.id ∧
    ∃ fragment ∈ bound.fragments, wire.declared ∈ fragment.manifest.exports

/-- All that a decision commits the module in charge to has been checked, but
for what fragments bring to a module that has no wires yet. -/
structure Draft.Accords (draft : Draft) (bound new : BoundModule)
    (checked : List Wire) : Prop where
  agrees : draft.agrees checked = true
  fragments : bound.fragments ⊆ new.fragments
  added : ∀ wire ∈ new.wirings.values, wire ∈ bound.wirings.values ∨
    draft.implied wire ++ draft.accepted bound ⊆ checked
  turned : ∀ {view target}, bound.host.id = view.owner.id →
    new.target? view = some target →
      bound.target? view = some target ∨ draft.implied target ⊆ checked ∨
        new.wirings = ∅ ∧ new.Brings target
  lasting : ∀ {view target}, bound.host.id = view.owner.id →
    bound.target? view = some target →
      new.target? view = some target ∨
        ∃ other, new.target? view = some other ∧
          other.exporter.id ≠ view.owner.id

namespace Draft

variable {draft : Draft} {bound new : BoundModule} {checked : List Wire}

/-- A module that goes on with more offers. -/
theorem accords_of_append
    (more : List Offer)
    (fragments : bound.fragments ⊆ new.fragments)
    (wirings : new.wirings = bound.wirings)
    (offers : new.offers = bound.offers ++ more)
    (agrees : draft.agrees checked = true)
    (supplied : ∀ offer ∈ more, ∀ owner : Generation,
      bound.host.id = owner.id →
        draft.implied (offer.toWire owner) ⊆ checked ∨
          new.wirings = ∅ ∧ new.Brings (offer.toWire owner)) :
    draft.Accords bound new checked := by
  refine ⟨agrees, fragments, ?_, ?_, ?_⟩
  · intro wire member
    rw [wirings] at member
    exact .inl member
  · intro view target here now
    unfold BoundModule.target? at now ⊢
    rw [wirings] at now
    cases held : bound.wirings.find? view.package with
    | some wire =>
        rw [held] at now
        exact .inl now
    | none =>
        rw [held, offers, List.find?_append] at now
        cases first : bound.offers.find? (·.package = view.package) with
        | some offer =>
            rw [first] at now
            exact .inl now
        | none =>
            rw [first] at now
            obtain ⟨offer, found, rfl⟩ := Option.map_eq_some_iff.1 now
            exact .inr (supplied offer (List.mem_of_find?_eq_some found)
              view.owner here)
  · intro view target _ before
    left
    unfold BoundModule.target? at before ⊢
    rw [wirings]
    cases held : bound.wirings.find? view.package with
    | some wire =>
        rw [held] at before
        exact before
    | none =>
        rw [held] at before
        obtain ⟨offer, found, rfl⟩ := Option.map_eq_some_iff.1 before
        rw [offers, List.find?_append, found]
        rfl

/-- A module that is given a wire in the place of its own offers. -/
theorem accords_of_wire
    {wire : Wire} (foreign : wire.exporter.id ≠ bound.host.id)
    (fragments : new.fragments = bound.fragments)
    (wirings : new.wirings = bound.wirings.insert wire.package wire)
    (offers : new.offers = bound.offers.filter (·.package ≠ wire.package))
    (agrees : draft.agrees (draft.implied wire ++ draft.accepted bound) =
      true) :
    draft.Accords bound new
      (draft.implied wire ++ draft.accepted bound) := by
  have here : ∀ {view : View}, wire.package = view.package →
      new.target? view = some wire := by
    intro view same
    unfold BoundModule.target?
    rw [wirings, Table.find?_insert, if_pos same]
  have elsewhere : ∀ {view : View}, wire.package ≠ view.package →
      new.target? view = bound.target? view := by
    intro view different
    have kept : (bound.offers.filter (·.package ≠ wire.package)).find?
        (·.package = view.package) =
          bound.offers.find? (·.package = view.package) := by
      rw [List.find?_filter]
      congr 1
      funext offer
      by_cases same : offer.package = view.package
      · simp [same, Ne.symm different]
      · simp [same]
    unfold BoundModule.target?
    rw [wirings, Table.find?_insert, if_neg different, offers, kept]
  refine ⟨agrees, fragments ▸ List.Subset.refl _, ?_, ?_, ?_⟩
  · intro other member
    obtain ⟨package, held⟩ := Table.exists_of_mem_values member
    rw [wirings, Table.find?_insert] at held
    split at held
    · cases held
      exact .inr (List.Subset.refl _)
    · exact .inl (Table.mem_values_of_find? held)
  · intro view target _ now
    by_cases same : wire.package = view.package
    · rw [here same] at now
      cases now
      exact .inr (.inl (List.subset_append_left _ _))
    · rw [elsewhere same] at now
      exact .inl now
  · intro view target owner before
    by_cases same : wire.package = view.package
    · exact .inr ⟨wire, here same, owner ▸ foreign⟩
    · exact .inl ((elsewhere same).trans before)

end Draft

end ModuleWiring
