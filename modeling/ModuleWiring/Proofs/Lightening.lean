import ModuleWiring.Proofs.RevisedDrafts
import ModuleWiring.Proofs.Traversal

/-!
# Drafts with less to decide

A generation is lighter without imports and requires that are optional.  A search
for the lighter generations has fewer requirements to decide, and sees the same
otherwise: the same wires, up to the revision, and the same packages.
-/

namespace ModuleWiring

/-- A list without some of the items that may be left out. -/
inductive Thins {α : Type} (optional : α → Bool) : List α → List α → Prop where
  | nil : Thins optional [] []
  | keep {items fewer : List α} (item : α) :
      Thins optional items fewer →
      Thins optional (item :: items) (item :: fewer)
  | leave {item : α} {items fewer : List α} :
      optional item = true → Thins optional items fewer →
      Thins optional (item :: items) fewer

namespace Thins

variable {α β : Type} {optional : α → Bool} {items fewer : List α}

theorem refl (items : List α) : Thins optional items items := by
  induction items with
  | nil => exact .nil
  | cons first rest inductionHypothesis => exact .keep first inductionHypothesis

theorem append
    {others fewerOthers : List α} (thins : Thins optional items fewer)
    (othersThin : Thins optional others fewerOthers) :
    Thins optional (items ++ others) (fewer ++ fewerOthers) := by
  induction thins with
  | nil => exact othersThin
  | keep item _ inductionHypothesis => exact .keep item inductionHypothesis
  | leave isOptional _ inductionHypothesis =>
      exact .leave isOptional inductionHypothesis

theorem append_left
    (kept : List α) (thins : Thins optional items fewer) :
    Thins optional (kept ++ items) (kept ++ fewer) :=
  (refl kept).append thins

theorem filter (keeps : α → Bool) (thins : Thins optional items fewer) :
    Thins optional (items.filter keeps) (fewer.filter keeps) := by
  induction thins with
  | nil => exact .nil
  | keep item _ inductionHypothesis =>
      rw [List.filter_cons, List.filter_cons]
      split
      · exact .keep item inductionHypothesis
      · exact inductionHypothesis
  | leave isOptional _ inductionHypothesis =>
      rw [List.filter_cons]
      split
      · exact .leave isOptional inductionHypothesis
      · exact inductionHypothesis

theorem of_filter (items : List α) :
    Thins optional items (items.filter (!optional ·)) := by
  induction items with
  | nil => exact .nil
  | cons first rest inductionHypothesis =>
      rw [List.filter_cons]
      cases isOptional : optional first with
      | true => exact .leave isOptional inductionHypothesis
      | false => exact .keep first inductionHypothesis

theorem leave_all
    (all : ∀ item ∈ items, optional item = true) {others : List α}
    (thins : Thins optional others fewer) :
    Thins optional (items ++ others) fewer := by
  induction items with
  | nil => exact thins
  | cons first rest inductionHypothesis =>
      exact .leave (all first List.mem_cons_self)
        (inductionHypothesis fun item member =>
          all item (List.mem_cons_of_mem _ member))

theorem flatMap
    {optionalPart : β → Bool} {parts : α → List β}
    (inherited : ∀ item, optional item = true →
      ∀ part ∈ parts item, optionalPart part = true)
    (thins : Thins optional items fewer) :
    Thins optionalPart (items.flatMap parts) (fewer.flatMap parts) := by
  induction thins with
  | nil => exact .nil
  | keep item _ inductionHypothesis =>
      rw [List.flatMap_cons, List.flatMap_cons]
      exact inductionHypothesis.append_left _
  | @leave item _ _ isOptional _ inductionHypothesis =>
      rw [List.flatMap_cons]
      exact leave_all (inherited item isOptional) inductionHypothesis

end Thins

/-- A revision that only leaves out what is optional. -/
structure Revision.IsThinning (revision : Revision) : Prop where
  imports : ∀ generation : Generation, Thins PackageImport.isOptional
    generation.imports (revision generation).imports
  requires : ∀ generation : Generation, Thins Require.isOptional
    generation.manifest.requires (revision generation).manifest.requires

/-- The same module with revised generations and less to decide. -/
structure BoundModule.Lightens (revision : Revision)
    (bound light : BoundModule) : Prop where
  host : light.host = revision bound.host
  fragments : light.fragments = bound.fragments.map revision
  imports : Thins PackageImport.isOptional bound.imports light.imports
  requires : Thins Require.isOptional bound.requires light.requires
  offers : light.offers = bound.offers.map revision.offer
  wirings : light.wirings = bound.wirings.mapValues revision.wire
  required : light.required = bound.required.map revision.provision

theorem BoundModule.lightens_of
    {revision : Revision} (thinning : revision.IsThinning)
    (host : Generation) :
    Lightens revision (.of host) (.of (revision host)) where
  host := rfl
  fragments := rfl
  imports := thinning.imports host
  requires := thinning.requires host
  offers := (revision.revises host).offers.trans
    (revision.map_offer_offers host).symm
  wirings := rfl
  required := rfl

theorem BoundModule.lightens_reopen
    (revision : Revision) (wired : ResolvedModule) :
    Lightens revision (.reopen wired) (.reopen (revision.resolved wired)) :=
  ⟨rfl, rfl, .nil, .nil, rfl, rfl, rfl⟩

/-- The same candidate with revised generations and less to decide. -/
inductive Candidate.Lightens (revision : Revision) :
    Candidate → Candidate → Prop where
  | unresolved (installed : Generation) :
      Lightens revision (.unresolved installed)
        (.unresolved (revision installed))
  | resolved (wired : ResolvedModule) :
      Lightens revision (.resolved wired)
        (.resolved (revision.resolved wired))
  | bound {bound light : BoundModule} :
      bound.Lightens revision light →
      Lightens revision (.bound bound) (.bound light)

namespace Candidate.Lightens

variable {revision : Revision} {candidate light : Candidate}

theorem generation (lightens : candidate.Lightens revision light) :
    light.generation = revision candidate.generation := by
  cases lightens with
  | unresolved _ => rfl
  | resolved _ => rfl
  | bound lightens => exact lightens.host

theorem id (lightens : candidate.Lightens revision light) :
    light.id = candidate.id := by
  unfold Candidate.id
  rw [lightens.generation, (revision.revises _).id]

theorem offers (lightens : candidate.Lightens revision light) :
    light.offers = candidate.offers.map revision.offer := by
  cases lightens with
  | unresolved installed =>
      exact (revision.revises installed).offers.trans
        (revision.map_offer_offers installed).symm
  | resolved _ => rfl
  | bound lightens => exact lightens.offers

theorem wirings (lightens : candidate.Lightens revision light) :
    light.wirings = candidate.wirings.mapValues revision.wire := by
  cases lightens with
  | unresolved _ => rfl
  | resolved _ => rfl
  | bound lightens => exact lightens.wirings

theorem required (lightens : candidate.Lightens revision light) :
    light.required = candidate.required.map revision.provision := by
  cases lightens with
  | unresolved _ => rfl
  | resolved _ => rfl
  | bound lightens => exact lightens.required

theorem fragments (lightens : candidate.Lightens revision light) :
    light.fragments = candidate.fragments.map revision := by
  cases lightens with
  | unresolved _ => rfl
  | resolved _ => rfl
  | bound lightens => exact lightens.fragments

end Candidate.Lightens

theorem Revision.carries_lightens (revision : Revision) :
    revision.Carries (Candidate.Lightens revision) where
  generation := Candidate.Lightens.generation
  given := by
    intro store generation
    unfold Candidate.given
    rw [revision.state_store, revision.resolvedModule_of_store]
    split
    · exact .resolved (.of store generation)
    · exact .unresolved generation

/-- The view of the revised owner. -/
def Revision.view (revision : Revision) (view : View) : View :=
  { view with owner := revision view.owner }

theorem Revision.toWire_offer
    (revision : Revision) (offer : Offer) (owner : Generation) :
    (revision.offer offer).toWire (revision owner) =
      revision.wire (offer.toWire owner) := by
  obtain ⟨package, declared, source⟩ := offer
  cases source <;> rfl

theorem Revision.find?_map_wire
    (revision : Revision) (wires : List Wire) (package : String) :
    (wires.map revision.wire).find? (·.package = package) =
      (wires.find? (·.package = package)).map revision.wire := by
  rw [List.find?_map]
  rfl

theorem Revision.find?_map_offer
    (revision : Revision) (offers : List Offer) (package : String) :
    (offers.map revision.offer).find? (·.package = package) =
      (offers.find? (·.package = package)).map revision.offer := by
  rw [List.find?_map]
  rfl

/-! ## What is seen -/

/-- The same draft with revised generations and less to decide. -/
abbrev Draft.Lightens (revision : Revision) (draft other : Draft) : Prop :=
  draft.Matches revision (Candidate.Lightens revision) other

namespace Draft.Lightens

variable {revision : Revision} {draft other : Draft}
  (lightens : draft.Lightens revision other)

include lightens

theorem generation?_eq (id : GenerationId) :
    other.generation? id = (draft.generation? id).map revision := by
  unfold Draft.generation?
  rcases lightens.cases id with
    ⟨missing, otherMissing⟩ | ⟨candidate, light, found, hit, both⟩
  · rw [missing, otherMissing]
    rfl
  · rw [found, hit]
    exact congrArg some both.generation

theorem target?_eq (view : View) :
    other.target? (revision.view view) =
      (draft.target? view).map revision.wire := by
  obtain ⟨owner, package⟩ := view
  have revises := revision.revises owner
  have owned : ∀ offers : List Offer,
      ((offers.map revision.offer).find? (·.package = package)).map
          (·.toWire (revision owner)) =
        ((offers.find? (·.package = package)).map
          (·.toWire owner)).map revision.wire := by
    intro offers
    rw [revision.find?_map_offer, Option.map_map, Option.map_map]
    exact congrArg (Option.map · _)
      (funext fun offer => revision.toWire_offer offer owner)
  unfold Draft.target? Revision.view
  dsimp only
  rw [revises.id]
  rcases lightens.cases owner.id with
    ⟨missing, otherMissing⟩ | ⟨candidate, light, found, hit, both⟩
  · rw [missing, otherMissing]
    dsimp only
    rw [lightens.store, revision.wires_store, revision.find?_map_wire,
      revises.offers]
    cases (draft.store.wires owner).find? (·.package = package) with
    | none =>
        have own := owned owner.offers
        rw [revision.map_offer_offers] at own
        exact own
    | some wire => rfl
  · rw [found, hit]
    dsimp only
    rw [both.wirings, Table.find?_mapValues]
    cases candidate.wirings.find? package with
    | none =>
        unfold Candidate.offer?
        rw [both.offers]
        exact owned candidate.offers
    | some wire => rfl

omit lightens in
theorem usedViews_wire (wire : Wire) :
    usedViews (revision.wire wire) =
      (usedViews wire).map revision.view := by
  unfold usedViews
  rw [List.map_map]
  rfl

theorem nextViews_eq (view : View) :
    other.nextViews (revision.view view) =
      (draft.nextViews view).map revision.view := by
  unfold nextViews
  rw [lightens.target?_eq]
  cases draft.target? view with
  | none => rfl
  | some wire => exact usedViews_wire wire

/-- The same follows from the same wires. -/
theorem implied_eq (start : Wire) :
    other.implied (revision.wire start) =
      (draft.implied start).map revision.wire := by
  have sameKey : ∀ (owner : Generation) (package : String),
      ((revision owner).id, package) = (owner.id, package) :=
    fun owner package => congrArg (·, package) (revision.revises owner).id
  have walked : ∀ seen inside otherInside,
      (other.usesNetwork (revision.wire start)).walk seen
          (usedViews (revision.wire start)) otherInside =
        ((draft.usesNetwork start).walk seen (usedViews start) inside).map
          revision.view :=
    fun seen inside otherInside => Network.walk_map
      (fun view => sameKey view.owner view.package) lightens.nextViews_eq
      (usedViews_wire start).symm
  have seen : ((revision.wire start).exporter.id,
      (revision.wire start).package) = (start.exporter.id, start.package) :=
    sameKey start.exporter start.package
  unfold implied
  rw [walked, seen, List.map_cons, List.filterMap_map, List.map_filterMap]
  refine congrArg (revision.wire start :: ·) ?_
  exact List.filterMap_congr fun view _ => lightens.target?_eq view

theorem flatMap_implied_eq (wires : List Wire) :
    (wires.map revision.wire).flatMap other.implied =
      (wires.flatMap draft.implied).map revision.wire := by
  rw [List.flatMap_map, List.map_flatMap]
  exact List.flatMap_congr fun wire _ => lightens.implied_eq wire

theorem accepted_eq
    {bound light : BoundModule} (both : bound.Lightens revision light) :
    other.accepted light = (draft.accepted bound).map revision.wire := by
  unfold accepted
  rw [both.wirings, Table.values_mapValues]
  exact lightens.flatMap_implied_eq bound.wirings.values

omit lightens in
theorem agreesWith_map (wires : List Wire) (wire : Wire) :
    agreesWith (wires.map revision.wire) (revision.wire wire) =
      agreesWith wires wire := by
  have sameId : ∀ owner : Generation, (revision owner).id = owner.id :=
    fun owner => (revision.revises owner).id
  have found := revision.find?_map_wire wires wire.package
  unfold agreesWith
  change ((wires.map revision.wire).find? (·.package = wire.package)).all _ =
    _
  rw [found, Option.all_map]
  refine congrArg (Option.all · _) (funext fun first => ?_)
  simp [Revision.wire, sameId]

/-- The same wires agree. -/
theorem agrees_eq (wires : List Wire) :
    other.agrees (wires.map revision.wire) = draft.agrees wires := by
  have all : ∀ listed : List Wire, (listed.map revision.wire).all
      (agreesWith (wires.map revision.wire)) =
        listed.all (agreesWith wires) := by
    intro listed
    rw [List.all_map]
    exact congrArg (List.all listed) (funext (agreesWith_map wires))
  unfold agrees
  rw [all, lightens.used]
  refine congrArg _ (congrArg (List.all _) (funext fun id => ?_))
  rcases lightens.cases id with
    ⟨missing, otherMissing⟩ | ⟨candidate, light, found, hit, both⟩
  · rw [missing, otherMissing]
  · rw [found, hit]
    dsimp only
    rw [both.wirings, Table.values_mapValues, all]

theorem reexportedBy_eq (provider : Generation) :
    other.reexportedBy (revision provider) =
      (draft.reexportedBy provider).map revision := by
  unfold reexportedBy
  rw [(revision.revises provider).id]
  rcases lightens.cases provider.id with
    ⟨missing, otherMissing⟩ | ⟨candidate, light, found, hit, both⟩
  · rw [missing, otherMissing]
    dsimp only
    rw [lightens.store, revision.requiredWires_store, List.filter_map,
      List.map_map, List.map_map]
    rfl
  · rw [found, hit]
    dsimp only
    rw [both.required, List.filter_map, List.map_map, List.map_map]
    rfl

theorem offeredBy_eq (provider : Generation) :
    other.offeredBy (revision provider) =
      (draft.offeredBy provider).map revision.wire := by
  have mapped : ∀ offers : List Offer,
      (offers.map revision.offer).map (·.toWire (revision provider)) =
        (offers.map (·.toWire provider)).map revision.wire := by
    intro offers
    rw [List.map_map, List.map_map]
    exact congrArg (List.map · offers)
      (funext fun offer => revision.toWire_offer offer provider)
  unfold offeredBy
  rw [(revision.revises provider).id]
  rcases lightens.cases provider.id with
    ⟨missing, otherMissing⟩ | ⟨candidate, light, found, hit, both⟩
  · rw [missing, otherMissing]
    dsimp only
    rw [(revision.revises provider).offers,
      ← revision.map_offer_offers provider, mapped,
      revision.map_offer_offers]
  · rw [found, hit]
    dsimp only
    rw [both.offers, mapped]

omit lightens in
theorem firstOfEach_map (wires : List Wire) :
    firstOfEach (wires.map revision.wire) =
      (firstOfEach wires).map revision.wire := by
  induction wires with
  | nil => rfl
  | cons first rest inductionHypothesis =>
      rw [List.map_cons, firstOfEach, inductionHypothesis, List.filter_map,
        firstOfEach, List.map_cons]
      rfl

/-- The same is visible through the same provider. -/
theorem visible_eq (provider : Generation) :
    other.visible (revision provider) =
      (draft.visible provider).map revision.wire := by
  have reached : other.reached (revision provider) =
      (draft.reached provider).map revision :=
    Network.walk_map (fun generation => (revision.revises generation).id)
      lightens.reexportedBy_eq rfl
  unfold visible
  rw [reached, List.flatMap_map, ← firstOfEach_map, List.map_flatMap]
  exact congrArg firstOfEach
    (List.flatMap_congr fun shown _ => lightens.offeredBy_eq shown)

/-! ## What is in charge -/

theorem exists_bound
    {id : GenerationId} {light : BoundModule}
    (found : other.candidate? id = some (.bound light)) :
    ∃ bound, draft.candidate? id = some (.bound bound) ∧
      bound.Lightens revision light := by
  obtain ⟨candidate, here, both⟩ :=
    exists_left_of_rel (lightens.candidates id) found
  cases both with
  | bound lighter => exact ⟨_, here, lighter⟩

theorem exists_resolvingBound
    {light : BoundModule} (current : other.resolvingBound? = some light) :
    ∃ bound, draft.resolvingBound? = some bound ∧
      bound.Lightens revision light := by
  obtain ⟨id, resolving, found⟩ := exists_of_resolvingBound? current
  obtain ⟨bound, here, both⟩ := lightens.exists_bound found
  exact ⟨bound, resolvingBound?_eq_some
    (lightens.resolving.symm.trans resolving) here, both⟩

end Draft.Lightens

end ModuleWiring
