import Mathlib.Data.List.Nodup
import ModuleWiring.Proofs.Tables
import ModuleWiring.Resolver.Basic

/-!
# Worlds

A world is a resolver with a store, the generations that were ever installed and
the solutions that were ever answered.  Its steps are the calls that a caller
can make.  A solution comes from an answer, so that nothing else is ever applied
to the store.
-/

namespace ModuleWiring

/-- A resolver with all that its callers have got hold of. -/
structure World where
  resolver : Resolver
  store : Store
  made : List Generation
  answers : List Solution

namespace World

/-- A new resolver, and nothing is installed. -/
def initial (policy : Policy) : World :=
  ⟨Resolver.create policy, Store.empty, [], []⟩

/-- One call. -/
inductive Step : World → World → Prop where
  | install (world : World) (id : GenerationId) (manifest : Manifest) :
      Step world { world with
        store := (world.store.install id manifest).2
        made := world.made ++ [(world.store.install id manifest).1] }
  | start {world : World} {framework : Framework} {resolver : Resolver} :
      world.resolver.start framework = .ok resolver →
      Step world { world with resolver := resolver }
  | stop {world : World} {resolver : Resolver} :
      world.resolver.stop = .ok resolver →
      Step world { world with resolver := resolver }
  | add {world : World} {generation : Generation} {resolver : Resolver} :
      generation ∈ world.made →
      world.resolver.add generation = .ok resolver →
      Step world { world with resolver := resolver }
  | remove {world : World} {generation : Generation} {resolver : Resolver} :
      generation ∈ world.made →
      world.resolver.remove generation = .ok resolver →
      Step world { world with resolver := resolver }
  | setState {world : World} {generation : Generation} (state : State) :
      generation ∈ world.made →
      Step world { world with
        store := world.store.setState generation state }
  | retain {world : World} {alive : List Generation} :
      alive ⊆ world.made →
      Step world { world with store := world.store.retain alive }
  | resolve {world : World} {target : Generation} {answer : List Solution} :
      target ∈ world.made →
      world.resolver.resolve world.store target = .ok answer →
      Step world { world with answers := world.answers ++ answer }
  | resolveDynamic {world : World} {target : Generation} {wanted : Import}
      {answer : List Solution} :
      target ∈ world.made →
      world.resolver.resolveDynamic world.store target wanted = .ok answer →
      Step world { world with answers := world.answers ++ answer }
  | apply {world : World} {solution : Solution} :
      solution ∈ world.answers →
      Step world { world with store := solution.apply world.store }
  | unapply {world : World} {solution : Solution} :
      solution ∈ world.answers →
      Step world { world with store := solution.unapply world.store }

/-- Some calls lead from a new resolver to a world. -/
inductive Reachable : World → Prop where
  | initial (policy : Policy) : Reachable (initial policy)
  | step {world next : World} :
      Reachable world → Step world next → Reachable next

end World

/-! ## What a resolver tracks -/

namespace PackageIndex

variable {index : PackageIndex} {id other : GenerationId}
  {package wanted : String}

theorem exporters_addPackage :
    (addPackage id index package).exporters wanted =
      if package = wanted ∧ id ∉ index.exporters wanted then
        index.exporters wanted ++ [id]
      else index.exporters wanted := by
  unfold addPackage
  by_cases listed : id ∈ index.exporters package
  · rw [if_pos (by simpa using listed), if_neg]
    rintro ⟨rfl, unlisted⟩
    exact unlisted listed
  · rw [if_neg (by simpa using listed)]
    by_cases same : package = wanted
    · subst same
      simp only [listed, not_false_eq_true, and_self, if_true]
      simp [exporters, Table.find?_insert]
    · simp [exporters, Table.find?_insert, same]

/-- An exporter is listed once for a package, and after those that are listed
already. -/
theorem exporters_add {generation : Generation} :
    (index.add generation).exporters package =
      if package ∈ generation.manifest.exports.flatMap Export.packages ∧
          generation.id ∉ index.exporters package then
        index.exporters package ++ [generation.id]
      else index.exporters package := by
  unfold add
  induction generation.manifest.exports.flatMap Export.packages
      generalizing index with
  | nil => simp
  | cons first rest inductionHypothesis =>
      rw [List.foldl_cons, inductionHypothesis, exporters_addPackage]
      by_cases listed : generation.id ∈ index.exporters package
      · simp [listed]
      · by_cases same : first = package
        · simp [same, listed]
        · simp [same, Ne.symm same, listed]

theorem exporters_remove :
    (index.remove id).exporters package =
      (index.exporters package).filter (· ≠ id) := by
  unfold remove exporters
  rw [Table.find?_filter, Table.find?_mapValues]
  cases Table.find? index package with
  | none => rfl
  | some ids =>
      rw [Option.map_some, Option.filter_some, Option.getD_some]
      split
      · rfl
      · rename_i empty
        exact (show ids.filter (· ≠ id) = [] by simpa using empty).symm

/-- After an addition the index knows the packages of the generation as well. -/
theorem mem_exporters_add {generation : Generation} :
    other ∈ (index.add generation).exporters package ↔
      other ∈ index.exporters package ∨
        other = generation.id ∧
          package ∈ generation.manifest.exports.flatMap Export.packages := by
  rw [exporters_add]
  split
  · rename_i unlisted
    simp [unlisted.1]
  · rename_i listed
    constructor
    · exact .inl
    · rintro (old | ⟨rfl, exported⟩)
      · exact old
      · exact Decidable.byContradiction fun missing =>
          listed ⟨exported, missing⟩

theorem mem_exporters_remove :
    other ∈ (index.remove id).exporters package ↔
      other ∈ index.exporters package ∧ other ≠ id := by
  rw [exporters_remove, List.mem_filter, decide_eq_true_iff]

end PackageIndex

namespace Resolver

/-- A resolver tracks one generation under an identity, and its index knows what
each of them exports. -/
structure IsConsistent (resolver : Resolver) : Prop where
  distinct : (resolver.tracked.map Generation.id).Nodup
  indexed : ∀ generation ∈ resolver.tracked,
    ∀ package ∈ generation.manifest.exports.flatMap Export.packages,
      generation.id ∈ resolver.index.exporters package

variable {resolver result : Resolver} {generation : Generation}

theorem isConsistent_create (policy : Policy) :
    (create policy).IsConsistent :=
  ⟨List.nodup_nil, fun _ member => by cases member⟩

/-- A call that succeeds leaves the resolver that it makes. -/
theorem inPlace_of_perform
    {call : Upkeep} (done : call.perform resolver = .ok result) :
    call.inPlace resolver = (.ok (), result) := by
  unfold Upkeep.perform at done
  split at done
  · cases done
  · rename_i left
    cases done
    exact left

theorem eq_of_start
    {framework : Framework} (done : resolver.start framework = .ok result) :
    result = { resolver with framework := some framework } := by
  have left := inPlace_of_perform done
  simp only [Upkeep.inPlace] at left
  split at left
  · cases left
  · cases left
    rfl

theorem eq_of_stop (done : resolver.stop = .ok result) :
    result = create resolver.policy := by
  have left := inPlace_of_perform done
  simp only [Upkeep.inPlace] at left
  split at left
  · cases left
  · cases left
    rfl

theorem eq_of_add (done : resolver.add generation = .ok result) :
    resolver.find? generation.id = none ∧
      result = { resolver with
        tracked := resolver.tracked ++ [generation]
        index := resolver.index.add generation } := by
  have left := inPlace_of_perform done
  simp only [Upkeep.inPlace] at left
  split at left
  · cases left
  · split at left
    · cases left
    · rename_i missing
      cases left
      exact ⟨by simpa using missing, rfl⟩

theorem eq_of_remove (done : resolver.remove generation = .ok result) :
    result = { resolver with
      tracked := resolver.tracked.filter (·.id ≠ generation.id)
      index := resolver.index.remove generation.id } := by
  have left := inPlace_of_perform done
  simp only [Upkeep.inPlace] at left
  split at left
  · cases left
  · split at left
    · cases left
    · cases left
      rfl

/-- A started resolver tracks a generation of a new identity. -/
theorem add_eq_ok
    (started : resolver.framework.isSome = true)
    (missing : resolver.find? generation.id = none) :
    resolver.add generation = .ok { resolver with
      tracked := resolver.tracked ++ [generation]
      index := resolver.index.add generation } := by
  obtain ⟨framework, isFramework⟩ := Option.isSome_iff_exists.1 started
  simp [add, Upkeep.perform, Upkeep.inPlace, Resolver.started, isFramework,
    missing]

/-- It forgets a generation if something is tracked under its identity. -/
theorem remove_eq_ok
    (started : resolver.framework.isSome = true)
    (known : (resolver.find? generation.id).isSome = true) :
    resolver.remove generation = .ok { resolver with
      tracked := resolver.tracked.filter (·.id ≠ generation.id)
      index := resolver.index.remove generation.id } := by
  obtain ⟨framework, isFramework⟩ := Option.isSome_iff_exists.1 started
  obtain ⟨other, found⟩ := Option.isSome_iff_exists.1 known
  simp [remove, Upkeep.perform, Upkeep.inPlace, Resolver.started, isFramework,
    found]

theorem IsConsistent.add
    (consistent : resolver.IsConsistent)
    (done : resolver.add generation = .ok result) :
    result.IsConsistent := by
  obtain ⟨missing, rfl⟩ := eq_of_add done
  have fresh : ∀ other ∈ resolver.tracked, other.id ≠ generation.id := by
    intro other member
    have missed := List.find?_eq_none.1 missing other member
    simpa using missed
  refine ⟨?_, ?_⟩
  · rw [List.map_append, List.nodup_append]
    refine ⟨consistent.distinct, by simp, ?_⟩
    rintro first member last lastMember rfl
    obtain ⟨other, otherMember, sameId⟩ := List.mem_map.1 member
    refine fresh other otherMember ?_
    rw [sameId]
    simpa using lastMember
  · intro other member package exported
    refine PackageIndex.mem_exporters_add.2 ?_
    rcases List.mem_append.1 member with old | new
    · exact .inl (consistent.indexed other old package exported)
    · cases List.mem_singleton.1 new
      exact .inr ⟨rfl, exported⟩

theorem IsConsistent.remove
    (consistent : resolver.IsConsistent)
    (done : resolver.remove generation = .ok result) :
    result.IsConsistent := by
  rw [eq_of_remove done]
  refine ⟨?_, ?_⟩
  · exact List.Nodup.sublist (List.filter_sublist.map _) consistent.distinct
  · intro other member package exported
    obtain ⟨kept, different⟩ := List.mem_filter.1 member
    exact PackageIndex.mem_exporters_remove.2
      ⟨consistent.indexed other kept package exported, by simpa using different⟩

/-- The generation that is found under an identity is the tracked one. -/
theorem mem_of_find?
    {id : GenerationId} (found : resolver.find? id = some generation) :
    generation ∈ resolver.tracked ∧ generation.id = id :=
  ⟨List.mem_of_find?_eq_some found, by simpa using List.find?_some found⟩

/-- Distinct generations are all found. -/
theorem find?_of_mem
    (distinct : (resolver.tracked.map Generation.id).Nodup)
    (member : generation ∈ resolver.tracked) :
    resolver.find? generation.id = some generation := by
  cases hit : resolver.find? generation.id with
  | none =>
      have missed := List.find?_eq_none.1 hit generation member
      simp at missed
  | some other =>
      obtain ⟨listed, same⟩ := mem_of_find? hit
      exact congrArg some
        (List.inj_on_of_nodup_map distinct listed member same)

end Resolver

/-! ## Small worlds -/

namespace World

/-- Install a module and track it. -/
def installing (world : World) (module : GenerationId × Manifest) : World :=
  let installed := world.store.install module.1 module.2
  { world with
    resolver := { world.resolver with
      tracked := world.resolver.tracked ++ [installed.1]
      index := world.resolver.index.add installed.1 }
    store := installed.2
    made := world.made ++ [installed.1] }

/-- The world of a started resolver that tracks newly installed modules. -/
def ofModules (policy : Policy) (framework : Framework)
    (modules : List (GenerationId × Manifest)) : World :=
  modules.foldl installing
    { initial policy with
      resolver := { Resolver.create policy with
        framework := some framework } }

/-- A started resolver accepts a generation whose identity is new. -/
theorem add_installed
    {world : World} {module : GenerationId × Manifest}
    (started : world.resolver.framework.isSome = true)
    (new : ∀ generation ∈ world.resolver.tracked,
      generation.id ≠ module.1) :
    world.resolver.add (world.store.install module.1 module.2).1 =
      .ok (world.installing module).resolver := by
  have missing : world.resolver.find? module.1 = none :=
    List.find?_eq_none.2 fun other member => by simpa using new other member
  exact Resolver.add_eq_ok started missing

/-- What holds of an empty world, and is kept when a module is installed, holds of
the world of modules of distinct identities. -/
theorem ofModules_induction
    {Holds : World → Prop} {policy : Policy} {framework : Framework}
    {modules : List (GenerationId × Manifest)}
    (distinct : (modules.map Prod.fst).Nodup)
    (start : Holds (ofModules policy framework []))
    (step : ∀ (world : World) (module : GenerationId × Manifest),
      Holds world → world.resolver.framework.isSome = true →
        (∀ generation ∈ world.resolver.tracked,
          generation.id ≠ module.1) →
            Holds (world.installing module)) :
    Holds (ofModules policy framework modules) := by
  have installed : ∀ (rest : List (GenerationId × Manifest)) (world : World),
      (rest.map Prod.fst).Nodup → Holds world →
        world.resolver.framework.isSome = true →
          (∀ generation ∈ world.resolver.tracked,
            generation.id ∉ rest.map Prod.fst) →
            Holds (rest.foldl World.installing world) := by
    intro rest
    induction rest with
    | nil => exact fun world _ holds _ _ => holds
    | cons module rest inductionHypothesis =>
        intro world distinct holds started new
        rw [List.map_cons, List.nodup_cons] at distinct
        refine inductionHypothesis _ distinct.2
          (step world module holds started ?_) started ?_
        · intro generation member same
          exact new generation member (by simp [same])
        · intro generation member
          rcases List.mem_append.1 member with old | fresh
          · intro later
            exact new generation old (List.mem_cons_of_mem _ later)
          · rw [List.mem_singleton.1 fresh]
            exact distinct.1
  refine installed modules _ distinct start rfl ?_
  intro generation member
  cases member

theorem Reachable.installing
    {world : World} {module : GenerationId × Manifest}
    (reachable : world.Reachable)
    (started : world.resolver.framework.isSome = true)
    (new : ∀ generation ∈ world.resolver.tracked,
      generation.id ≠ module.1) :
    (world.installing module).Reachable :=
  (reachable.step (.install world module.1 module.2)).step
    (.add (List.mem_append_right _ List.mem_cons_self)
      (add_installed started new))

/-- Modules of distinct identities can be installed and tracked together. -/
theorem reachable_ofModules
    (policy : Policy) (framework : Framework)
    (modules : List (GenerationId × Manifest))
    (distinct : (modules.map Prod.fst).Nodup) :
    (ofModules policy framework modules).Reachable :=
  ofModules_induction distinct
    ((Reachable.initial policy).step (.start rfl))
    fun _ _ reachable => reachable.installing

/-- Resolve a target and apply what the answer says of some hosts. -/
def applying (world : World) (target : Generation)
    (applies : Generation → Bool) : World :=
  match world.resolver.resolve world.store target with
  | .error _ => world
  | .ok answer => { world with
      answers := world.answers ++ answer
      store := world.store.applyAll
        (answer.filter fun solution => applies solution.host) }

theorem Reachable.applyAll
    {world : World} {answer : List Solution} (reachable : world.Reachable)
    (answered : answer ⊆ world.answers) :
    { world with store := world.store.applyAll answer }.Reachable := by
  induction answer generalizing world with
  | nil => exact reachable
  | cons solution rest inductionHypothesis =>
      exact @inductionHypothesis
        { world with store := solution.apply world.store }
        (reachable.step (.apply (answered List.mem_cons_self)))
        (List.subset_of_cons_subset answered)

theorem Reachable.applying
    {world : World} {target : Generation} (reachable : world.Reachable)
    (made : target ∈ world.made) (applies : Generation → Bool) :
    (world.applying target applies).Reachable := by
  unfold World.applying
  split
  · exact reachable
  · rename_i answer solved
    refine @Reachable.applyAll { world with answers := world.answers ++ answer }
      _ (reachable.step (.resolve made solved)) ?_
    intro solution member
    exact List.mem_append_right _ (List.mem_filter.1 member).1

/-- Track a module no more. -/
def removing (world : World) (generation : Generation) : World :=
  match world.resolver.remove generation with
  | .error _ => world
  | .ok resolver => { world with resolver := resolver }

theorem Reachable.removing
    {world : World} {generation : Generation} (reachable : world.Reachable)
    (made : generation ∈ world.made) :
    (world.removing generation).Reachable := by
  unfold World.removing
  split
  · exact reachable
  · rename_i resolver removed
    exact reachable.step (.remove made removed)

end World

namespace Sample

/-- The version of a major number. -/
def version (major : UInt64) : Version :=
  ⟨major, 0, 0, ""⟩

/-- An export of one package. -/
def offer (package : String) (major : UInt64) (uses : List String := []) :
    Export :=
  (Export.of [package] (version major)).withUses uses

/-- A mandatory import of the versions of a package with one major number. -/
def wish (package : String) (major : UInt64) : Import :=
  { Import.of [package] with
    range := ⟨version major, some (version (major + 1)), true, false⟩ }

/-- A bundle with exports and imports. -/
def bundle (name : String) (exports : List Export) (imports : List Import) :
    Manifest :=
  { Manifest.of name (version 1) with
    exports := exports, imports := imports }

/-- A fragment of a host, with exports and imports. -/
def fragment (name host : String) (exports : List Export)
    (imports : List Import) : Manifest :=
  { bundle name exports imports with
    fragmentHost := some ⟨host, VersionRange.everything, none⟩ }

/-- The identity of the bundle of a number. -/
def id (bundle : Nat) : GenerationId :=
  ⟨bundle, 0⟩

/-- The world in which some modules have been installed one by one. -/
def world (modules : List Manifest) : World :=
  World.ofModules ⟨false⟩ ⟨"system.bundle", BootDelegation.none⟩
    (modules.zipIdx.map fun module => (id module.2, module.1))

/-- The generation that such a world has made of a module. -/
def generation (number : Nat) (manifest : Manifest) : Generation :=
  ⟨number, id number, manifest⟩

/-- A bundle that imports two packages. -/
def consumer : Manifest :=
  bundle "a" [] [wish "p" 1, wish "q" 2]

/-- A bundle that exports one of them and wires the other, which it uses. -/
def relay : Manifest :=
  bundle "y" [offer "p" 1 ["q"]] [wish "q" 2]

/-- The exporter of the other package. -/
def source : Manifest :=
  bundle "z" [offer "q" 2] []

/-- The world of the consumer, a bundle in the middle and the source. -/
def chain (middle : Manifest) : World :=
  world [consumer, middle, source]

/-- The modules of a small world have distinct identities. -/
theorem nodup_ids (modules : List Manifest) :
    ((modules.zipIdx.map fun module =>
      (id module.2, module.1)).map Prod.fst).Nodup := by
  have keys : (modules.zipIdx.map fun module =>
      (id module.2, module.1)).map Prod.fst =
        (List.range' 0 modules.length).map id := by
    rw [← List.zipIdx_map_snd, List.map_map, List.map_map]
    rfl
  rw [keys]
  refine List.Pairwise.map id ?_ List.nodup_range'
  intro left right different same
  exact different (congrArg GenerationId.bundle same)

theorem reachable_world (modules : List Manifest) :
    (world modules).Reachable :=
  World.reachable_ofModules _ _ _ (nodup_ids modules)

end Sample

end ModuleWiring
