import ModuleWiring.Draft.Basic
import ModuleWiring.Traversal

/-!
# Packages visible through a bundle

Who requires a bundle sees the packages that it offers and those of the bundles
that it re-exports, and so on. The bundle's own packages come first.
-/

namespace ModuleWiring.Draft

/-- The bundles that a provider re-exports. One that takes no part in the draft
does so by the wiring it was resolved with. -/
def reexportedBy (draft : Draft) (provider : Generation) :
    List Generation :=
  match draft.candidate? provider.id with
  | some candidate =>
      (candidate.required.filter (·.require.isReexport)).map
        Provision.provider
  | none =>
      ((draft.store.requiredWires provider).filter (·.reexport)).map
        RequiredWire.exporter

def offeredBy (draft : Draft) (provider : Generation) : List Wire :=
  match draft.candidate? provider.id with
  | some candidate => candidate.offers.map (·.toWire provider)
  | none => provider.offers.map (·.toWire provider)

/-- Every bundle that some wiring or candidate requires. -/
def providers (draft : Draft) : List Generation :=
  (draft.candidates.members.flatMap fun candidate =>
    candidate.required.map Provision.provider) ++
  (draft.store.solutions.flatMap fun solution =>
    solution.required.map RequiredWire.exporter)

theorem sublist_flatMap {α β : Type} {f : α → List β} {items : List α}
    {item : α} (member : item ∈ items) :
    (f item).Sublist (items.flatMap f) := by
  induction items with
  | nil => cases member
  | cons first rest ih =>
      rw [List.flatMap_cons]
      rcases List.mem_cons.1 member with rfl | later
      · exact List.sublist_append_left _ _
      · exact (ih later).trans (List.sublist_append_right _ _)

theorem reexportedBy_sublist (draft : Draft) (provider : Generation) :
    (draft.reexportedBy provider).Sublist draft.providers := by
  unfold reexportedBy providers
  split
  · rename_i candidate found
    exact ((List.filter_sublist.map Provision.provider).trans
      (sublist_flatMap
        (f := fun candidate => candidate.required.map Provision.provider)
        (mem_of_candidate? found))).trans (List.sublist_append_left _ _)
  · rcases draft.store.requiredWires_sublist provider with none | some
    · simp [none]
    · obtain ⟨solution, member, kept⟩ := some
      exact (((List.filter_sublist.map RequiredWire.exporter).trans
        kept).trans (sublist_flatMap
          (f := fun solution =>
            solution.required.map RequiredWire.exporter) member)).trans
              (List.sublist_append_right _ _)

/-- Bundles with those that they re-export. -/
def reexports (draft : Draft) (start : Generation) :
    Network Generation GenerationId where
  key := Generation.id
  next := draft.reexportedBy
  Within := fun provider => provider ∈ start :: draft.providers
  within_next := fun _ successor =>
    List.mem_cons_of_mem _ ((draft.reexportedBy_sublist _).subset successor)
  keys := fun _ => (start :: draft.providers).map Generation.id
  key_mem := List.mem_map_of_mem
  degree := fun _ => draft.providers.length
  length_next := fun _ => (draft.reexportedBy_sublist _).length_le

/-- The bundles whose packages are visible through a provider, in the order in
which they are met. -/
def reached (draft : Draft) (provider : Generation) : List Generation :=
  (draft.reexports provider).walk [] [provider] fun other member => by
    cases List.mem_singleton.1 member
    exact List.mem_cons_self

/-- The first wire of each package. -/
def firstOfEach : List Wire → List Wire
  | [] => []
  | wire :: rest =>
      wire :: (firstOfEach rest).filter (·.package ≠ wire.package)

/-- The packages that are visible through a provider, each as it is met
first. -/
def visible (draft : Draft) (provider : Generation) : List Wire :=
  firstOfEach ((draft.reached provider).flatMap draft.offeredBy)

end ModuleWiring.Draft
