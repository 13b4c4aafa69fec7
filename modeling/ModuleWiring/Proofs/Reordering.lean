import ModuleWiring.Proofs.Newcomer
import ModuleWiring.Proofs.Revision

/-!
# Imports in another order

A generation offers and requires the same in whatever order its manifest lists
its imports.  If all wirings speak of the reordered generation in place of the
other, searches for either start with drafts that differ in nothing else.
-/

namespace ModuleWiring

/-- A generation as another is, but for the order of its imports. -/
def Generation.Reorders (reordered generation : Generation) : Prop :=
  ∃ imports, imports.Perm generation.manifest.imports ∧
    reordered = { generation with
      manifest := { generation.manifest with imports := imports } }

namespace Generation.Reorders

variable {reordered generation : Generation}

theorem refl (generation : Generation) : generation.Reorders generation :=
  ⟨generation.manifest.imports, .refl _, rfl⟩

theorem revises (reorders : reordered.Reorders generation) :
    reordered.Revises generation := by
  obtain ⟨imports, _, rfl⟩ := reorders
  exact ⟨imports, generation.manifest.requires, rfl⟩

theorem id (reorders : reordered.Reorders generation) :
    reordered.id = generation.id :=
  reorders.revises.id

theorem offers (reorders : reordered.Reorders generation) :
    reordered.offers = generation.offers :=
  reorders.revises.offers

theorem requires (reorders : reordered.Reorders generation) :
    reordered.manifest.requires = generation.manifest.requires := by
  obtain ⟨imports, _, rfl⟩ := reorders
  rfl

theorem symbolicName (reorders : reordered.Reorders generation) :
    reordered.symbolicName = generation.symbolicName :=
  reorders.revises.symbolicName

theorem preference (reorders : reordered.Reorders generation) :
    reordered.preference = generation.preference :=
  reorders.revises.preference

theorem isFragment (reorders : reordered.Reorders generation) :
    reordered.isFragment = generation.isFragment :=
  reorders.revises.isFragment

theorem fragmentAttachment (reorders : reordered.Reorders generation) :
    reordered.manifest.fragmentAttachment =
      generation.manifest.fragmentAttachment :=
  reorders.revises.fragmentAttachment

theorem accepts
    (reorders : reordered.Reorders generation) (requirement : PackageImport)
    (declared : Export) :
    requirement.accepts declared reordered =
      requirement.accepts declared generation :=
  reorders.revises.accepts requirement declared

theorem isHostOf
    {framework : Framework} {otherHost host : Generation}
    (reorders : reordered.Reorders generation)
    (hostReorders : otherHost.Reorders host) :
    framework.isHostOf reordered otherHost =
      framework.isHostOf generation host :=
  reorders.revises.isHostOf hostReorders.revises

/-- The imports are the same ones. -/
theorem mem_imports
    (reorders : reordered.Reorders generation)
    {requirement : PackageImport} :
    requirement ∈ reordered.imports ↔ requirement ∈ generation.imports := by
  obtain ⟨imports, perm, rfl⟩ := reorders
  exact (perm.flatMap_right Import.requirements).mem_iff

theorem provides
    (reorders : reordered.Reorders generation) (require : Require) :
    Search.provides require reordered = Search.provides require generation :=
  reorders.revises.provides require

theorem wires (reorders : reordered.Reorders generation) (store : Store) :
    store.wires reordered = store.wires generation := by
  obtain ⟨imports, _, rfl⟩ := reorders
  rfl

theorem requiredWires
    (reorders : reordered.Reorders generation) (store : Store) :
    store.requiredWires reordered = store.requiredWires generation := by
  obtain ⟨imports, _, rfl⟩ := reorders
  rfl

end Generation.Reorders

/-- A revision that reorders imports and does nothing else. -/
structure Reordering extends Revision where
  reorders : ∀ generation, (change generation).Reorders generation
  revises := fun generation => (reorders generation).revises

instance : CoeFun Reordering fun _ => Generation → Generation :=
  ⟨fun reordering => reordering.change⟩

namespace Reordering

/-- The change of one generation. -/
def of (target reordered : Generation) (reorders : reordered.Reorders target) :
    Reordering where
  toRevision := .of target reordered reorders.revises
  reorders := by
    intro generation
    change Generation.Reorders (if generation = target then reordered
      else generation) generation
    split
    · rename_i isTarget
      exact isTarget ▸ reorders
    · exact .refl generation

end Reordering

end ModuleWiring
