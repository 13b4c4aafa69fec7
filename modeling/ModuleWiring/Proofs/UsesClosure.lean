import Mathlib.Order.Bounds.Defs
import ModuleWiring.Proofs.Collecting
import ModuleWiring.Proofs.Decision
import ModuleWiring.Proofs.Uses
import ModuleWiring.Proofs.World

/-!
# The closure of a wire under uses lists

The wires that a wire implies make up the least set that holds the wire itself
and, with each wire, what its exporter resolves the packages to that its export
uses.  The view that the first wire stands for is not looked into when uses lists
come back to it, and generations that share an identity have to resolve what is
used alike.
-/

namespace ModuleWiring

namespace Draft

/-- A set that holds a wire and, with each wire, what its exporter resolves the
packages to that its export uses, as far as the views are looked into. -/
structure IsUsesClosed (draft : Draft) (LookedInto : View → Prop)
    (start : Wire) (wires : Set Wire) : Prop where
  start : start ∈ wires
  onward : ∀ wire ∈ wires, ∀ package ∈ wire.declared.uses,
    LookedInto ⟨wire.exporter, package⟩ →
      ∀ target, draft.target? ⟨wire.exporter, package⟩ = some target →
        target ∈ wires

/-- Uses lists have led back to what a wire stands for. -/
def Returns (start : Wire) (view : View) : Prop :=
  view.key = start.source.key

instance (start : Wire) (view : View) : Decidable (Returns start view) :=
  inferInstanceAs (Decidable (view.key = start.source.key))

/-- A view that uses lists lead to without a return to the start. -/
def Met (draft : Draft) (start : Wire) (view : View) : Prop :=
  ∃ wire, draft.Trail (fun between _ => ¬ Returns start between) start wire ∧
    view ∈ usedViews wire

/-- Generations with one identity resolve the packages alike for which uses
lists ask them. -/
def IsUnambiguous (draft : Draft) (start : Wire) : Prop :=
  ∀ left right, draft.Met start left → draft.Met start right →
    left.key = right.key → draft.target? left = draft.target? right

variable {draft : Draft} {start wire : Wire} {wires : Set Wire}
  {LookedInto : View → Prop}

/-- What trails lead to is the least closed set. -/
theorem isLeast_trail (draft : Draft) (LookedInto : View → Prop)
    (start : Wire) :
    IsLeast {wires | draft.IsUsesClosed LookedInto start wires}
      {wire | draft.Trail (fun view _ => LookedInto view) start wire} := by
  refine ⟨⟨.refl, ?_⟩, ?_⟩
  · intro wire trail package used looked target found
    exact Trail.step trail (mem_usedViews.2 ⟨rfl, used⟩) found looked
  · intro wires closed wire trail
    induction trail with
    | refl => exact closed.start
    | @step wire next view _ used found looked inductionHypothesis =>
        obtain ⟨owner, package⟩ := view
        obtain ⟨rfl, listed⟩ := mem_usedViews.1 used
        exact closed.onward wire inductionHypothesis package listed looked
          next found

theorem trail_of_mem_implied (implied : wire ∈ draft.implied start) :
    draft.Trail (fun view _ => ¬ Returns start view) start wire :=
  forall_mem_implied _ .refl
    (fun trail used found new _ => .step trail used found new) wire implied

/-- No wire on a trail is passed over if identities are unambiguous. -/
theorem mem_implied_of_trail
    (unambiguous : draft.IsUnambiguous start)
    (trail : draft.Trail (fun view _ => ¬ Returns start view) start wire) :
    wire ∈ draft.implied start := by
  obtain ⟨visited, visits⟩ := draft.exists_visits start
  have met : ∀ view ∈ visited, draft.Met start view := fun view listed =>
    (visits.reached (draft.Met start) (fun view used => ⟨start, .refl, used⟩)
      (by
        rintro view _ ⟨before, trail, used⟩ new next onward
        obtain ⟨wire, found, uses⟩ := mem_nextViews.1 onward
        exact ⟨wire, .step trail used found new, uses⟩)
      view listed).1
  induction trail with
  | refl => exact visits.mem_implied_iff.2 (.inl rfl)
  | @step wire next view trail used found new inductionHypothesis =>
      rcases visits.key_mem_of_used inductionHypothesis used with
        returned | visitedKey
      · exact absurd returned new
      · -- The view that has been visited in the place of this one.
        obtain ⟨twin, listed, sameKey⟩ := List.mem_map.1 visitedKey
        rw [unambiguous view twin ⟨wire, trail, used⟩ (met twin listed)
          sameKey.symm] at found
        exact visits.mem_implied_iff.2 (.inr ⟨twin, listed, found⟩)

/-- Identities are unambiguous if they are so within a closed set. -/
theorem IsUsesClosed.isUnambiguous
    (closed : draft.IsUsesClosed (fun view => ¬ Returns start view) start
      wires)
    (alike : ∀ first ∈ wires, ∀ left ∈ usedViews first,
      ∀ last ∈ wires, ∀ right ∈ usedViews last,
        left.key = right.key → draft.target? left = draft.target? right) :
    draft.IsUnambiguous start := by
  rintro left right ⟨first, leftTrail, leftUsed⟩ ⟨last, rightTrail, rightUsed⟩
  have within := (isLeast_trail draft _ start).2 closed
  exact alike first (within leftTrail) left leftUsed last (within rightTrail)
    right rightUsed

/-- What a wire implies is collected by a recursion that ends, and is the least
set that holds the wire and is closed under what exporters resolve used packages
to, short of a return to the start. -/
theorem implied_isLeast
    (draft : Draft) (start : Wire)
    (unambiguous : draft.IsUnambiguous start) :
    (∃ seen visited,
      (draft.usesNetwork start).Collects
          [(start.exporter.id, start.package)] (usedViews start) seen
          visited ∧
        draft.implied start = start :: visited.filterMap draft.target?) ∧
      IsLeast
        {wires | draft.IsUsesClosed (fun view => ¬ Returns start view) start
          wires}
        {wire | wire ∈ draft.implied start} := by
  constructor
  · obtain ⟨seen, collects⟩ := Network.collects_walk
      (draft.usesNetwork start) _ _ _
    exact ⟨seen, _, collects, rfl⟩
  · have same : {wire | wire ∈ draft.implied start} =
        {wire | draft.Trail (fun view _ => ¬ Returns start view) start
          wire} :=
      Set.ext fun _ =>
        ⟨trail_of_mem_implied, mem_implied_of_trail unambiguous⟩
    rw [same]
    exact isLeast_trail draft _ start

/-- A package that an exporter resolves to a wire which is not implied is missing
from the closure. -/
theorem not_isLeast_of_missing
    {wire target : Wire} {package : String}
    (implied : wire ∈ draft.implied start)
    (used : package ∈ wire.declared.uses)
    (looked : LookedInto ⟨wire.exporter, package⟩)
    (found : draft.target? ⟨wire.exporter, package⟩ = some target)
    (missing : target ∉ draft.implied start) :
    ¬ IsLeast {wires | draft.IsUsesClosed LookedInto start wires}
      {wire | wire ∈ draft.implied start} :=
  fun least => missing
    (least.1.onward wire implied package used looked target found)

end Draft

namespace Sample

/-- Two bundles that import from each other and use what they import. -/
def partner : Manifest :=
  bundle "l" [offer "p" 1 ["q"]] [wish "q" 1]

def counterpart : Manifest :=
  bundle "r" [offer "q" 1 ["p"]] [wish "p" 1]

/-- A bundle that neither exports nor needs anything. -/
def onlooker : Manifest :=
  bundle "m" [] []

/-- The world in which the two have been resolved. -/
def partners : World :=
  (world [onlooker, partner, counterpart]).applying (generation 1 partner)
    fun _ => true

/-- A bundle that exports one package in two versions. -/
def twofold : Manifest :=
  bundle "x" [offer "p" 1 ["r"], offer "p" 2 ["q"], offer "q" 1 ["p"],
    offer "r" 1] []

/-- A bundle that exports a package, and another one that is installed under its
identity later on. -/
def former : Manifest :=
  bundle "x" [offer "p" 1 ["u"], offer "u" 1] []

def latter : Manifest :=
  bundle "x" [offer "r" 1 ["u"], offer "u" 2] []

/-- A bundle that passes on what it sees of the one. -/
def heir : Manifest :=
  bundle "c" [offer "s" 1 ["p", "t"]] [wish "p" 1, wish "t" 1]

/-- A bundle that can do without the other. -/
def patient : Manifest :=
  bundle "d" [offer "t" 1 ["r"]] [(wish "r" 1).asOptional]

/-- The world in which one bundle has been wired before the identity of its
exporter was taken over, and one after that. -/
def legacy : World :=
  (((((world [onlooker, heir, patient, former]).applying (generation 1 heir)
    fun host => host.id = id 1).removing (generation 3 former)).installing
      (id 3, latter)).applying (generation 2 patient)
        fun _ => true).removing ⟨4, id 3, latter⟩

theorem reachable_legacy : legacy.Reachable := by
  refine World.Reachable.removing ?_ (by decide +kernel)
  refine World.Reachable.applying ?_ (by decide +kernel) _
  refine World.Reachable.installing ?_ (by decide +kernel)
      (by decide +kernel)
  refine World.Reachable.removing ?_ (by decide +kernel)
  exact (reachable_world _).applying (by decide +kernel) _

/-- The draft with which the search for the wiring of a bundle that needs nothing
begins. -/
def looking (world : World) : Except Incompatible Draft :=
  Draft.initial world.store (world.resolver.canonical world.store)
    (generation 0 onlooker)

/-- Wires to the exports from which the closures start. -/
def partnerWire : Wire :=
  ⟨"p", offer "p" 1 ["q"], generation 1 partner⟩

def twofoldWire : Wire :=
  ⟨"p", offer "p" 2 ["q"], generation 1 twofold⟩

def heirWire : Wire :=
  ⟨"s", offer "s" 1 ["p", "t"], generation 1 heir⟩

end Sample

namespace Draft

/-- Two bundles that use what they import from each other imply both wires. -/
theorem partners_closure :
    ∃ draft, Sample.looking Sample.partners = .ok draft ∧
      draft.IsUnambiguous Sample.partnerWire ∧
      draft.implied Sample.partnerWire =
        [Sample.partnerWire,
          ⟨"q", Sample.offer "q" 1 ["p"],
            Sample.generation 2 Sample.counterpart⟩,
          Sample.partnerWire] ∧
      IsLeast
        {wires | draft.IsUsesClosed
          (fun view => ¬ Returns Sample.partnerWire view) Sample.partnerWire
          wires}
        {wire | wire ∈ draft.implied Sample.partnerWire} := by
  have facts : (Sample.looking Sample.partners).toOption.any (fun draft =>
      draft.implied Sample.partnerWire =
        [Sample.partnerWire,
          ⟨"q", Sample.offer "q" 1 ["p"],
            Sample.generation 2 Sample.counterpart⟩,
          Sample.partnerWire] ∧
      (∀ wire ∈ draft.implied Sample.partnerWire,
        ∀ package ∈ wire.declared.uses,
          ¬ Returns Sample.partnerWire ⟨wire.exporter, package⟩ →
            ∀ target ∈ draft.target? ⟨wire.exporter, package⟩,
              target ∈ draft.implied Sample.partnerWire) ∧
      ∀ first ∈ draft.implied Sample.partnerWire,
        ∀ left ∈ usedViews first,
          ∀ last ∈ draft.implied Sample.partnerWire,
            ∀ right ∈ usedViews last, left.key = right.key →
              draft.target? left = draft.target? right) = true := by
    decide +kernel
  obtain ⟨draft, made, holds⟩ := Option.any_eq_true _ _ |>.1 facts
  obtain ⟨implied, onward, alike⟩ := of_decide_eq_true holds
  have closed : draft.IsUsesClosed
      (fun view => ¬ Returns Sample.partnerWire view) Sample.partnerWire
      {wire | wire ∈ draft.implied Sample.partnerWire} :=
    ⟨List.mem_cons_self, onward⟩
  have unambiguous := closed.isUnambiguous alike
  exact ⟨draft, Search.eq_ok_of_toOption made, unambiguous, implied,
    (implied_isLeast draft Sample.partnerWire unambiguous).2⟩

/-- Uses lists that come back to the package of the start are not followed to
another export of it. What has been asked of a generation is not asked of another
one with the same identity. -/
theorem implied_not_closed :
    (∃ draft,
      Sample.looking (Sample.world [Sample.onlooker, Sample.twofold]) =
          .ok draft ∧
        ¬ IsLeast
          {wires | draft.IsUsesClosed (fun _ => True) Sample.twofoldWire
            wires}
          {wire | wire ∈ draft.implied Sample.twofoldWire}) ∧
      Sample.legacy.Reachable ∧
      ∃ draft, Sample.looking Sample.legacy = .ok draft ∧
        ¬ IsLeast
          {wires | draft.IsUsesClosed
            (fun view => ¬ Returns Sample.heirWire view) Sample.heirWire
            wires}
          {wire | wire ∈ draft.implied Sample.heirWire} := by
  refine ⟨?_, Sample.reachable_legacy, ?_⟩
  · have facts : (Sample.looking (Sample.world
        [Sample.onlooker, Sample.twofold])).toOption.any (fun draft =>
          ⟨"q", Sample.offer "q" 1 ["p"],
              Sample.generation 1 Sample.twofold⟩ ∈
            draft.implied Sample.twofoldWire ∧
          draft.target? ⟨Sample.generation 1 Sample.twofold, "p"⟩ =
            some ⟨"p", Sample.offer "p" 1 ["r"],
              Sample.generation 1 Sample.twofold⟩ ∧
          ⟨"p", Sample.offer "p" 1 ["r"],
              Sample.generation 1 Sample.twofold⟩ ∉
            draft.implied Sample.twofoldWire) = true := by
      decide +kernel
    obtain ⟨draft, made, holds⟩ := Option.any_eq_true _ _ |>.1 facts
    obtain ⟨implied, found, missing⟩ := of_decide_eq_true holds
    exact ⟨draft, Search.eq_ok_of_toOption made,
      not_isLeast_of_missing implied (by decide) trivial found missing⟩
  · have facts : (Sample.looking Sample.legacy).toOption.any
        (fun draft =>
          ⟨"r", Sample.offer "r" 1 ["u"], ⟨4, Sample.id 3, Sample.latter⟩⟩ ∈
            draft.implied Sample.heirWire ∧
          draft.target? ⟨⟨4, Sample.id 3, Sample.latter⟩, "u"⟩ =
            some ⟨"u", Sample.offer "u" 2,
              ⟨4, Sample.id 3, Sample.latter⟩⟩ ∧
          ⟨"u", Sample.offer "u" 2, ⟨4, Sample.id 3, Sample.latter⟩⟩ ∉
            draft.implied Sample.heirWire) = true := by
      decide +kernel
    obtain ⟨draft, made, holds⟩ := Option.any_eq_true _ _ |>.1 facts
    obtain ⟨implied, found, missing⟩ := of_decide_eq_true holds
    exact ⟨draft, Search.eq_ok_of_toOption made,
      not_isLeast_of_missing implied (by decide) (by decide) found missing⟩

end Draft

end ModuleWiring
