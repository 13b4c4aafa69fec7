import Mathlib.Data.List.Forall2
import ModuleWiring.Proofs.Bystander
import ModuleWiring.Proofs.Exhaustive
import ModuleWiring.Proofs.Lightening

/-!
# What a search with less to decide may choose from

The choices of a search are the same for a lighter draft: the same providers, hosts
and fragments in the same order, up to the revision.
-/

namespace ModuleWiring

/-- Rosters list the same if they answer the same for every identity. -/
theorem Roster.forall₂_members
    {α β : Type} {key : α → GenerationId} {otherKey : β → GenerationId}
    {Rel : α → β → Prop} {roster : Roster key} {other : Roster otherKey}
    (sameKey : ∀ {item changed}, Rel item changed →
      otherKey changed = key item)
    (related : ∀ id, Option.Rel Rel (roster.find? id) (other.find? id)) :
    List.Forall₂ Rel roster.members other.members := by
  let ids : IdSet := ⟨roster.members.map key, by
    simpa using roster.ascending⟩
  let otherIds : IdSet := ⟨other.members.map otherKey, by
    simpa using other.ascending⟩
  have found : ∀ id, ids.find? id = (roster.find? id).map key := fun _ => by
    simp only [ids, Roster.find?, List.find?_map]
    rfl
  have otherFound : ∀ id, otherIds.find? id =
      (other.find? id).map otherKey := fun _ => by
    simp only [otherIds, Roster.find?, List.find?_map]
    rfl
  have same : ids = otherIds := by
    refine Roster.ext_find? fun id => ?_
    rw [found, otherFound]
    cases hit : roster.find? id with
    | none =>
        rw [eq_none_of_rel (related id) hit]
        rfl
    | some item =>
        obtain ⟨changed, otherHit, both⟩ :=
          exists_right_of_rel (related id) hit
        rw [otherHit]
        exact congrArg some (sameKey both).symm
  have keys : List.Forall₂ (fun item changed => key item = otherKey changed)
      roster.members other.members := by
    rw [← List.forall₂_map_right_iff, ← List.forall₂_map_left_iff,
      List.forall₂_eq_eq_eq]
    exact congrArg Roster.members same
  rw [List.forall₂_iff_zip] at keys ⊢
  refine ⟨keys.1, fun {item changed} paired => ?_⟩
  obtain ⟨member, otherMember⟩ := List.of_mem_zip paired
  have both := related (key item)
  rw [Roster.find?_of_mem member, keys.2 paired,
    Roster.find?_of_mem otherMember] at both
  cases both with
  | some both => exact both

section Related

variable {α β γ δ : Type} {Rel : α → β → Prop} {items : List α}
  {others : List β} {change : γ → δ}

theorem map_eq_of_forall₂
    {part : α → γ} {otherPart : β → δ}
    (related : List.Forall₂ Rel items others)
    (same : ∀ {item changed}, Rel item changed →
      otherPart changed = change (part item)) :
    others.map otherPart = (items.map part).map change := by
  induction related with
  | nil => rfl
  | cons both _ inductionHypothesis =>
      rw [List.map_cons, List.map_cons, List.map_cons, same both,
        inductionHypothesis]

theorem flatMap_eq_of_forall₂
    {parts : α → List γ} {otherParts : β → List δ}
    (related : List.Forall₂ Rel items others)
    (same : ∀ {item changed}, Rel item changed →
      otherParts changed = (parts item).map change) :
    others.flatMap otherParts = (items.flatMap parts).map change := by
  induction related with
  | nil => rfl
  | cons both _ inductionHypothesis =>
      rw [List.flatMap_cons, List.flatMap_cons, List.map_append, same both,
        inductionHypothesis]

end Related

/-- Sorting does not mind a change that keeps what is preferred. -/
theorem Policy.sort_map
    {α β : Type} (policy : Policy) {key : α → Version × GenerationId}
    {otherKey : β → Version × GenerationId} {change : α → β}
    (sameKey : ∀ item, otherKey (change item) = key item) (items : List α) :
    policy.sort otherKey (items.map change) =
      (policy.sort key items).map change := by
  have placed : ∀ (item : α) (others : List α),
      policy.place otherKey (change item) (others.map change) =
        (policy.place key item others).map change := by
    intro item others
    induction others with
    | nil => rfl
    | cons first rest inductionHypothesis =>
        simp only [List.map_cons, place, sameKey, inductionHypothesis]
        split <;> rfl
  induction items with
  | nil => rfl
  | cons first rest inductionHypothesis =>
      rw [List.map_cons, sort, inductionHypothesis, placed, sort]

/-- The choice of the revised exporter. -/
def Revision.choice (revision : Revision) (choice : WireChoice) : WireChoice :=
  { choice with exporter := revision choice.exporter }

/-- What is seen of a candidate does not depend on what it has to decide. -/
theorem Candidate.Lightens.stage
    {revision : Revision} {candidate light : Candidate}
    (lightens : candidate.Lightens revision light) (stage : Candidate → Bool)
    (isStage : stage ∈ [Search.isResolved, Search.isBound,
      Search.isUnresolved]) :
    stage light = stage candidate := by
  simp only [List.mem_cons, List.not_mem_nil, or_false] at isStage
  rcases isStage with rfl | rfl | rfl <;> cases lightens <;> rfl

namespace Draft.Lightens

open Search

variable {revision : Revision} {draft other : Draft} {search : Search}
  (lightens : draft.Lightens revision other)

include lightens

/-- The candidates correspond one by one. -/
theorem members :
    List.Forall₂ (Candidate.Lightens revision) draft.candidates.members
      other.candidates.members :=
  Roster.forall₂_members Candidate.Lightens.id lightens.candidates

theorem group?_eq
    {candidate light : Candidate}
    (both : candidate.Lightens revision light) :
    group? other light = group? draft candidate := by
  unfold group? Draft.isSettled
  rw [both.id, lightens.resolving, lightens.used, lightens.settled,
    lightens.unused]
  cases both with
  | unresolved installed =>
      dsimp only
      rw [(revision.revises installed).isFragment]
  | resolved _ => rfl
  | bound _ => rfl

omit lightens in
theorem mayExport_eq
    {candidate light : Candidate}
    (both : candidate.Lightens revision light) (package : String) :
    search.mayExport light package = search.mayExport candidate package := by
  unfold mayExport
  rw [both.id, both.fragments, List.isEmpty_map]

omit lightens in
theorem choicesOf_eq
    {candidate light : Candidate} (both : candidate.Lightens revision light)
    (requirement : PackageImport) :
    choicesOf requirement light =
      (choicesOf requirement candidate).map revision.choice := by
  have accepts := (revision.revises candidate.generation).accepts requirement
  unfold choicesOf
  rw [both.offers, both.generation, List.filter_map, List.map_map,
    List.map_map]
  simp only [Function.comp_def, Revision.offer, Option.isNone_map, accepts]
  rfl

/-- The exports that could meet an import are the same. -/
theorem wireChoices_eq (requirement : PackageImport) :
    search.wireChoices other requirement =
      (search.wireChoices draft requirement).map revision.choice := by
  have samePreference : ∀ choice : WireChoice,
      (revision.choice choice).preference = choice.preference := fun choice =>
    congrArg (choice.declared.version, ·) (revision.revises choice.exporter).id
  unfold wireChoices groupChoices
  rw [List.map_flatMap]
  refine List.flatMap_congr fun group _ => ?_
  rw [← search.policy.sort_map samePreference]
  refine congrArg _ (flatMap_eq_of_forall₂ ?_ fun both =>
    choicesOf_eq both requirement)
  refine List.rel_filter (fun _ _ both => ?_) lightens.members
  simp only [lightens.group?_eq both, mayExport_eq both]

theorem providersAmong_eq (require : Require) (ids : IdSet) :
    search.providersAmong other require ids =
      (search.providersAmong draft require ids).map revision := by
  unfold providersAmong
  rw [← search.policy.sort_map fun generation =>
    (revision.revises generation).preference]
  refine congrArg _ ?_
  rw [lightens.resolving, funext lightens.generation?_eq,
    ← List.map_filterMap, List.filter_map]
  refine congrArg (List.map _) (congrArg (List.filter · _) ?_)
  funext generation
  simp only [Function.comp_apply, (revision.revises generation).id,
    (revision.revises generation).provides]

/-- The bundles that could meet a require are the same. -/
theorem requireChoices_eq (require : Require) :
    search.requireChoices other require =
      (search.requireChoices draft require).map revision := by
  unfold requireChoices
  rw [lightens.used, lightens.unused, lightens.providersAmong_eq,
    lightens.providersAmong_eq, List.map_append]

/-- The generations of some candidates correspond if the choice of candidates
does. -/
theorem map_generation_eq
    (chosen otherChosen : Candidate → Bool)
    (same : ∀ {candidate light : Candidate},
      candidate.Lightens revision light →
        otherChosen light = chosen candidate) :
    (other.candidates.members.filter otherChosen).map Candidate.generation =
      ((draft.candidates.members.filter chosen).map
        Candidate.generation).map revision := by
  refine map_eq_of_forall₂ ?_ Candidate.Lightens.generation
  exact List.rel_filter (fun _ _ both => by simp only [same both])
    lightens.members

/-- The hosts that a fragment could attach to are the same. -/
theorem hostChoices_eq (fragment : Generation) :
    search.hostChoices other (revision fragment) =
      (search.hostChoices draft fragment).map revision := by
  unfold hostChoices hostsAmong
  rw [List.map_flatMap]
  refine List.flatMap_congr fun stage isStage => ?_
  rw [← search.policy.sort_map fun generation =>
    (revision.revises generation).preference,
    lightens.map_generation_eq stage stage fun both => both.stage stage isStage,
    List.filter_map]
  refine congrArg _ (congrArg (List.map _) (congrArg (List.filter · _) ?_))
  exact funext fun host =>
    (revision.revises fragment).isHostOf (revision.revises host)

/-- The fragments that a host could take on are the same. -/
theorem fragmentChoices_eq (host : Generation) :
    search.fragmentChoices other (revision host) =
      (search.fragmentChoices draft host).map revision := by
  have sameFree : ∀ {candidate light : Candidate},
      candidate.Lightens revision light →
        isFreeFragment other light = isFreeFragment draft candidate := by
    intro candidate light both
    unfold isFreeFragment
    rw [both.stage isUnresolved (by simp), both.generation,
      both.id, lightens.unused, lightens.attached,
      (revision.revises _).isFragment]
  unfold fragmentChoices
  rw [← search.policy.sort_map fun generation =>
    (revision.revises generation).preference,
    lightens.map_generation_eq _ _ sameFree, List.filter_map]
  refine congrArg _ (congrArg (List.map _) (congrArg (List.filter · _) ?_))
  exact funext fun fragment =>
    (revision.revises fragment).isHostOf (revision.revises host)

/-! ## What is consistent -/

variable {bound light : BoundModule} {requirement : PackageImport}

theorem isWireConsistent_eq
    (both : bound.Lightens revision light) (package : String)
    (choice : WireChoice) :
    isWireConsistent other light package (revision.choice choice) =
      isWireConsistent draft bound package choice := by
  unfold isWireConsistent
  rw [lightens.accepted_eq both, ← lightens.agrees_eq, List.map_append,
    ← lightens.implied_eq]
  rfl

theorem isRequireConsistent_eq
    (current : draft.resolvingBound? = some bound)
    (lightCurrent : other.resolvingBound? = some light)
    (both : bound.Lightens revision light) (provider : Generation) :
    isRequireConsistent other (revision provider) =
      isRequireConsistent draft provider := by
  unfold isRequireConsistent
  rw [current, lightCurrent]
  dsimp only
  rw [lightens.accepted_eq both, lightens.visible_eq,
    lightens.flatMap_implied_eq, ← List.map_append, lightens.agrees_eq]

omit lightens in
theorem find?_wirings
    (both : bound.Lightens revision light) (package : String) :
    light.wirings.find? package =
      (bound.wirings.find? package).map revision.wire := by
  rw [both.wirings, Table.find?_mapValues]

omit lightens in
theorem accepts_wire
    (revision : Revision) (requirement : PackageImport) (wire : Wire) :
    requirement.accepts (revision.wire wire).declared
        (revision.wire wire).exporter =
      requirement.accepts wire.declared wire.exporter :=
  (revision.revises wire.exporter).accepts requirement wire.declared

omit lightens in
theorem isSelfServed_eq
    (both : bound.Lightens revision light) :
    isSelfServed light requirement = isSelfServed bound requirement := by
  unfold isSelfServed
  rw [both.offers, both.host, revision.find?_map_offer]
  cases bound.offers.find? (·.package = requirement.package) with
  | none => rfl
  | some offer =>
      have sameWire := revision.toWire_offer offer bound.host
      have accepts := accepts_wire revision requirement (offer.toWire bound.host)
      rw [← sameWire] at accepts
      exact accepts

omit lightens in
theorem needsNoWire_iff
    (both : bound.Lightens revision light) :
    search.NeedsNoWire light requirement ↔
      search.NeedsNoWire bound requirement := by
  unfold NeedsNoWire
  rw [find?_wirings both]
  refine or_congr_left ?_
  cases bound.wirings.find? requirement.package with
  | none => simp
  | some wire => simp [accepts_wire]

omit lightens in
theorem leavesKeeping_iff
    (both : bound.Lightens revision light) :
    search.LeavesKeeping light requirement ↔
      search.LeavesKeeping bound requirement := by
  unfold LeavesKeeping Leaves
  rw [find?_wirings both, needsNoWire_iff both, isSelfServed_eq both]
  cases bound.wirings.find? requirement.package with
  | none => rfl
  | some wire => simp [accepts_wire]

end Draft.Lightens

end ModuleWiring
