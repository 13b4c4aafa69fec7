import Mathlib.Logic.Relation
import ModuleWiring.Proofs.Additions
import ModuleWiring.Proofs.DepthFirst
import ModuleWiring.Proofs.Reexports
import ModuleWiring.Proofs.UsesClosure

/-!
# What is visible through a bundle, exactly

The packages that are visible through a bundle are those that it offers or that
some bundle offers to which a chain of re-exports leads, whatever cycles there
are.  The entry of a package is the first offer of it in depth-first order, the
order of the ways that lead from the bundle to offers of the package.  Bundles
are told apart by their identities, so that those that share one have to show
the same if no candidate speaks for them.
-/

namespace ModuleWiring

namespace Draft

/-- A chain of re-exports leads from a provider to a bundle. -/
def Reaches (draft : Draft) : Generation → Generation → Prop :=
  Relation.ReflTransGen fun provider next =>
    next ∈ draft.reexportedBy provider

/-- Bundles within reach that have one identity, of which the draft knows no
candidate, offer the same packages and re-export the same bundles. -/
def TellsApart (draft : Draft) (provider : Generation) : Prop :=
  ∀ left right, draft.Reaches provider left → draft.Reaches provider right →
    left.id = right.id → draft.candidate? left.id = none →
      (draft.offeredBy left).map Wire.package =
          (draft.offeredBy right).map Wire.package ∧
        draft.reexportedBy left = draft.reexportedBy right

/-- A bundle's first offer of a package. -/
def offerOf? (draft : Draft) (bundle : Generation) (package : String) :
    Option Wire :=
  (draft.offeredBy bundle).find? (·.package = package)

/-- A way from a provider to a bundle.  It says at which position among the bundles
that are re-exported each next one is, and no identity occurs on it twice. -/
def Way (draft : Draft) (provider : Generation) (way : List Nat)
    (bundle : Generation) : Prop :=
  (draft.reexports provider).Leads [] [provider] (0 :: way) bundle

/-- The offer of a package at the end of the first way that leads to one. -/
structure IsFirstOffer (draft : Draft) (provider : Generation)
    (package : String) (way : List Nat) (wire : Wire) : Prop where
  offered : ∃ bundle, draft.Way provider way bundle ∧
    draft.offerOf? bundle package = some wire
  first : ∀ {other bundle}, draft.Way provider other bundle →
    (draft.offerOf? bundle package).isSome →
      way = other ∨ List.Lex (· < ·) way other

variable {draft : Draft} {provider bundle : Generation} {package : String}
  {wire : Wire} {way : List Nat}

/-- Bundles within reach that have one identity show the same. -/
theorem TellsApart.shows_same
    (apart : draft.TellsApart provider) {left right : Generation}
    (leftReached : draft.Reaches provider left)
    (rightReached : draft.Reaches provider right)
    (same : left.id = right.id) :
    (draft.offeredBy left).map Wire.package =
        (draft.offeredBy right).map Wire.package ∧
      draft.reexportedBy left = draft.reexportedBy right := by
  cases found : draft.candidate? left.id with
  | none => exact apart left right leftReached rightReached same found
  | some candidate =>
      -- The candidate speaks for both of them.
      unfold offeredBy reexportedBy
      rw [← same, found]
      simp [Function.comp_def, Offer.toWire]

theorem isCoherent_reexports
    (apart : draft.TellsApart provider) (package : String) :
    (draft.reexports provider).IsCoherent (draft.Reaches provider)
      fun bundle => (draft.offerOf? bundle package).isSome where
  onward := fun reached listed => reached.tail listed
  next := fun left right same => (apart.shows_same left right same).2
  wanted := by
    intro left right leftReached rightReached same
    rw [Bool.eq_iff_iff, offerOf?, offerOf?, isSome_find?_key_iff,
      isSome_find?_key_iff,
      (apart.shows_same leftReached rightReached same).1]

theorem Way.reaches (path : draft.Way provider way bundle) :
    draft.Reaches provider bundle := by
  have start : ∀ other ∈ [provider], draft.Reaches provider other :=
    List.forall_mem_singleton.2 .refl
  exact path.known start fun reached listed => reached.tail listed

/-- What is visible of a package is the first offer of it at the bundles that are
reached. -/
theorem find?_visible (draft : Draft) (provider : Generation)
    (package : String) :
    (draft.visible provider).find? (·.package = package) =
      (draft.reached provider).findSome? (draft.offerOf? · package) := by
  rw [visible, find?_firstOfEach, List.find?_flatMap]
  rfl

theorem nodup_packages_visible (draft : Draft) (provider : Generation) :
    ((draft.visible provider).map Wire.package).Nodup :=
  nodup_packages_firstOfEach _

/-- The recursion that collects the bundles comes to an end. -/
theorem exists_collects_reached (draft : Draft) (provider : Generation) :
    ∃ seen, (draft.reexports provider).Collects [] [provider] seen
      (draft.reached provider) :=
  Network.collects_walk (draft.reexports provider) _ _ _

theorem reaches_of_mem_reached
    (member : bundle ∈ draft.reached provider) :
    draft.Reaches provider bundle := by
  refine (Network.forall_mem_walk (draft.Reaches provider)
    (List.forall_mem_singleton.2 .refl) ?_ bundle member).1
  exact fun _ _ reached _ _ listed => reached.tail listed

/-- For every bundle within reach, one with its identity is reached. -/
theorem exists_mem_reached
    (apart : draft.TellsApart provider)
    (within : draft.Reaches provider bundle) :
    ∃ twin ∈ draft.reached provider, twin.id = bundle.id := by
  obtain ⟨seen, collects⟩ := draft.exists_collects_reached provider
  have reached {key : GenerationId} (listed : key ∈ seen) :
      ∃ twin ∈ draft.reached provider, twin.id = key :=
    List.mem_map.1
      ((collects.mem_later_iff.1 listed).resolve_left List.not_mem_nil)
  induction within with
  | refl => exact reached (collects.key_mem_later List.mem_cons_self)
  | @tail before next within listed inductionHypothesis =>
      obtain ⟨twin, member, same⟩ := inductionHypothesis
      rw [← (apart.shows_same (reaches_of_mem_reached member) within same).2]
        at listed
      exact reached (collects.key_mem_later_of_next member listed)

/-- A package is visible exactly if a bundle within reach offers it. -/
theorem mem_packages_visible_iff (apart : draft.TellsApart provider) :
    package ∈ (draft.visible provider).map Wire.package ↔
      ∃ bundle, draft.Reaches provider bundle ∧
        package ∈ (draft.offeredBy bundle).map Wire.package := by
  rw [← isSome_find?_key_iff, find?_visible, List.findSome?_isSome_iff]
  constructor
  · rintro ⟨bundle, member, offered⟩
    exact ⟨bundle, reaches_of_mem_reached member,
      isSome_find?_key_iff.1 offered⟩
  · rintro ⟨bundle, within, offered⟩
    obtain ⟨twin, member, same⟩ := exists_mem_reached apart within
    refine ⟨twin, member, isSome_find?_key_iff.2 ?_⟩
    rw [(apart.shows_same (reaches_of_mem_reached member) within same).1]
    exact offered

/-- What is visible of a package is its first offer in depth-first order. -/
theorem exists_isFirstOffer
    (apart : draft.TellsApart provider)
    (found : (draft.visible provider).find? (·.package = package) =
      some wire) :
    ∃ way, draft.IsFirstOffer provider package way wire := by
  rw [find?_visible] at found
  obtain ⟨before, bundle, after, split, offered, others⟩ :=
    List.findSome?_eq_some_iff.1 found
  have first : (draft.reached provider).find?
      (fun bundle => (draft.offerOf? bundle package).isSome) =
        some bundle := by
    refine List.find?_eq_some_iff_append.2
      ⟨Option.isSome_of_eq_some offered, before, after, split, ?_⟩
    intro other earlier
    rw [others other earlier]
    rfl
  obtain ⟨seen, collects⟩ := draft.exists_collects_reached provider
  obtain ⟨way, leads, earliest⟩ := collects.exists_leadsFirst
    (isCoherent_reexports apart package)
    (List.forall_mem_singleton.2 .refl) first
  obtain ⟨rest, rfl⟩ := leads.exists_zero_cons
  refine ⟨rest, ⟨bundle, leads, offered⟩, ?_⟩
  intro other target path offers
  exact (earliest path offers).of_cons

/-- What is visible through a provider is collected by a recursion that ends.  It
lists a package once, exactly if some bundle offers it to which re-exports lead,
and with the offer that comes first in depth-first order. -/
theorem visible_depth_first
    (draft : Draft) (provider : Generation)
    (apart : draft.TellsApart provider) :
    (∃ seen reached,
      (draft.reexports provider).Collects [] [provider] seen reached ∧
        draft.visible provider =
          firstOfEach (reached.flatMap draft.offeredBy)) ∧
      ((draft.visible provider).map Wire.package).Nodup ∧
      (∀ package,
        package ∈ (draft.visible provider).map Wire.package ↔
          ∃ bundle, draft.Reaches provider bundle ∧
            package ∈ (draft.offeredBy bundle).map Wire.package) ∧
      ∀ wire ∈ draft.visible provider,
        ∃ way, draft.IsFirstOffer provider wire.package way wire := by
  obtain ⟨seen, collects⟩ := draft.exists_collects_reached provider
  refine ⟨⟨seen, _, collects, rfl⟩, draft.nodup_packages_visible provider,
    fun _ => mem_packages_visible_iff apart, ?_⟩
  intro wire member
  exact exists_isFirstOffer apart ((find?_key_eq_some_iff
    (draft.nodup_packages_visible provider)).2 ⟨member, rfl⟩)

/-- Identities tell bundles apart where they do so in a closed list. -/
theorem tellsApart_of_closed
    {bundles : List Generation} (start : provider ∈ bundles)
    (closed : ∀ bundle ∈ bundles, ∀ next ∈ draft.reexportedBy bundle,
      next ∈ bundles)
    (distinct : ∀ left ∈ bundles, ∀ right ∈ bundles,
      left.id = right.id → left = right) :
    draft.TellsApart provider := by
  have within : ∀ bundle, draft.Reaches provider bundle →
      bundle ∈ bundles := by
    intro bundle reached
    induction reached with
    | refl => exact start
    | tail _ listed inductionHypothesis =>
        exact closed _ inductionHypothesis _ listed
  intro left right leftReached rightReached same _
  rw [distinct left (within left leftReached) right (within right rightReached)
    same]
  exact ⟨rfl, rfl⟩

end Draft

namespace Sample

/-- A bundle that re-exports others and exports packages. -/
def passing (name : String) (exports : List Export)
    (others : List Require) : Manifest :=
  { bundle name exports [] with
    requires := others.map ({ · with visibility := .reexport }) }

/-- Bundles that re-export each other, and one that both of them re-export. -/
def leftWing : Manifest :=
  passing "l" [offer "a" 1] [need "r" 1, need "s" 1]

def rightWing : Manifest :=
  passing "r" [offer "b" 1] [need "l" 1, need "s" 1]

def shared : Manifest :=
  passing "s" [offer "b" 2, offer "c" 1] []

/-- The world in which they have been resolved and one is not tracked any
more. -/
def wings : World :=
  ((world [onlooker, leftWing, rightWing, shared]).applying
    (generation 1 leftWing) fun _ => true).removing (generation 1 leftWing)

/-- A bundle of one version, and of another one. -/
def forerunner : Manifest :=
  bundle "x" [offer "p" 1] []

def successor : Manifest :=
  { bundle "x" [offer "q" 1] [] with version := version 2 }

/-- A bundle that re-exports the one, and a bundle that re-exports it and the
other one. -/
def keeper : Manifest :=
  passing "b" [] [need "x" 1]

def collector : Manifest :=
  passing "c" [] [need "b" 1, need "x" 2]

/-- The world in which both have been resolved, each with the bundle that had the
identity then. -/
def inheritance : World :=
  ((((((world [onlooker, keeper, collector, forerunner]).applying
    (generation 1 keeper) fun _ => true).removing
      (generation 3 forerunner)).installing (id 3, successor)).applying
        (generation 2 collector) fun _ => true).removing
          (generation 2 collector)).removing ⟨4, id 3, successor⟩

theorem reachable_inheritance : inheritance.Reachable := by
  refine World.Reachable.removing ?_ (by decide +kernel)
  refine World.Reachable.removing ?_ (by decide +kernel)
  refine World.Reachable.applying ?_ (by decide +kernel) _
  refine World.Reachable.installing ?_ (by decide +kernel)
      (by decide +kernel)
  refine World.Reachable.removing ?_ (by decide +kernel)
  exact (reachable_world _).applying (by decide +kernel) _

end Sample

namespace Draft

/-- Of a package that several bundles offer, the offer in front is visible. -/
theorem wings_visible :
    ∃ draft, Sample.looking Sample.wings = .ok draft ∧
      draft.TellsApart (Sample.generation 1 Sample.leftWing) ∧
      draft.visible (Sample.generation 1 Sample.leftWing) =
        [⟨"a", Sample.offer "a" 1, Sample.generation 1 Sample.leftWing⟩,
          ⟨"b", Sample.offer "b" 1, Sample.generation 2 Sample.rightWing⟩,
          ⟨"c", Sample.offer "c" 1, Sample.generation 3 Sample.shared⟩] ∧
      ∃ way, draft.IsFirstOffer (Sample.generation 1 Sample.leftWing) "b" way
        ⟨"b", Sample.offer "b" 1, Sample.generation 2 Sample.rightWing⟩ := by
  let bundles : List Generation :=
    [Sample.generation 1 Sample.leftWing,
      Sample.generation 2 Sample.rightWing, Sample.generation 3 Sample.shared]
  have facts : (Sample.looking Sample.wings).toOption.any (fun draft =>
      (∀ bundle ∈ bundles, ∀ next ∈ draft.reexportedBy bundle,
        next ∈ bundles) ∧
      draft.visible (Sample.generation 1 Sample.leftWing) =
        [⟨"a", Sample.offer "a" 1, Sample.generation 1 Sample.leftWing⟩,
          ⟨"b", Sample.offer "b" 1, Sample.generation 2 Sample.rightWing⟩,
          ⟨"c", Sample.offer "c" 1, Sample.generation 3 Sample.shared⟩]) =
        true := by
    decide +kernel
  obtain ⟨draft, made, holds⟩ := (Option.any_eq_true _ _).1 facts
  obtain ⟨closed, visible⟩ := of_decide_eq_true holds
  have apart : draft.TellsApart (Sample.generation 1 Sample.leftWing) :=
    tellsApart_of_closed List.mem_cons_self closed (by decide +kernel)
  refine ⟨draft, Search.eq_ok_of_toOption made, apart, visible, ?_⟩
  refine (visible_depth_first draft _ apart).2.2.2 ⟨"b", _, _⟩ ?_
  rw [visible]
  exact List.mem_cons_of_mem _ List.mem_cons_self

/-- Where two bundles within reach have had the same identity one after the other,
what only the second one offers is not visible. -/
theorem visible_not_within_reach :
    Sample.inheritance.Reachable ∧
      ∃ draft, Sample.looking Sample.inheritance = .ok draft ∧
        ¬ ∀ package,
          package ∈ (draft.visible (Sample.generation 2
              Sample.collector)).map Wire.package ↔
            ∃ bundle,
              draft.Reaches (Sample.generation 2 Sample.collector) bundle ∧
                package ∈ (draft.offeredBy bundle).map Wire.package := by
  refine ⟨Sample.reachable_inheritance, ?_⟩
  have facts : (Sample.looking Sample.inheritance).toOption.any (fun draft =>
      ⟨4, Sample.id 3, Sample.successor⟩ ∈
        draft.reexportedBy (Sample.generation 2 Sample.collector) ∧
      "q" ∈ (draft.offeredBy ⟨4, Sample.id 3, Sample.successor⟩).map
        Wire.package ∧
      "q" ∉ (draft.visible (Sample.generation 2 Sample.collector)).map
        Wire.package) = true := by
    decide +kernel
  obtain ⟨draft, made, holds⟩ := (Option.any_eq_true _ _).1 facts
  obtain ⟨listed, offered, missing⟩ := of_decide_eq_true holds
  refine ⟨draft, Search.eq_ok_of_toOption made, fun exact => ?_⟩
  exact missing ((exact "q").2 ⟨_, .single listed, offered⟩)

end Draft

end ModuleWiring
