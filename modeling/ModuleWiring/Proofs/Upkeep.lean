import ModuleWiring.Proofs.World

/-!
# The upkeep of the package index

A resolver keeps the generations that it tracks and an index of the packages
that they export, and each call updates the two one after the other.  Whatever
calls were made, whether or not they succeeded, the index lists the tracked
exporters of each package in the order in which they are tracked.
-/

namespace ModuleWiring

/-- Whether a generation exports a package by its own manifest. -/
def Generation.exportsPackage
    (generation : Generation) (package : String) : Bool :=
  generation.manifest.exports.any (·.exportsPackage package)

/-- Packages that a manifest lists several times are exported like others. -/
theorem Generation.exportsPackage_iff
    {generation : Generation} {package : String} :
    generation.exportsPackage package = true ↔
      package ∈ generation.manifest.exports.flatMap Export.packages := by
  simp [exportsPackage, Export.exportsPackage]

namespace PackageIndex

variable {index : PackageIndex} {package : String}

/-- Every package of an index has an exporter. -/
def HasExporters (index : PackageIndex) : Prop :=
  ∀ package, index.find? package ≠ some []

theorem hasExporters_empty : HasExporters ∅ := by
  intro package listed
  cases listed

theorem HasExporters.addPackage
    (exported : index.HasExporters) (id : GenerationId) (package : String) :
    (PackageIndex.addPackage id index package).HasExporters := by
  unfold PackageIndex.addPackage
  split
  · exact exported
  · intro other
    rw [Table.find?_insert]
    split
    · simp
    · exact exported other

theorem HasExporters.add
    (exported : index.HasExporters) (generation : Generation) :
    (index.add generation).HasExporters := by
  unfold PackageIndex.add
  induction generation.manifest.exports.flatMap Export.packages
      generalizing index with
  | nil => exact exported
  | cons first rest inductionHypothesis =>
      exact inductionHypothesis (exported.addPackage generation.id first)

theorem hasExporters_remove (index : PackageIndex) (id : GenerationId) :
    (index.remove id).HasExporters := by
  intro package
  unfold remove
  rw [Table.find?_filter]
  intro listed
  simpa using Option.filter_eq_some_iff.1 listed

end PackageIndex

namespace Upkeep

variable {resolver : Resolver} {call : Upkeep}

/-- To give up an identity that is not tracked changes nothing. -/
theorem filter_of_untracked
    {id : GenerationId} (untracked : resolver.find? id = none) :
    resolver.tracked.filter (·.id ≠ id) = resolver.tracked := by
  refine List.filter_eq_self.2 fun generation member => ?_
  have different := List.find?_eq_none.1 untracked generation member
  simpa using different

/-- A call that fails leaves everything as it was. -/
theorem unchanged_of_error
    {fault : ResolverError}
    (failed : (call.inPlace resolver).1 = .error fault) :
    (call.inPlace resolver).2 = resolver := by
  cases call with
  | start framework =>
      simp only [inPlace] at failed ⊢
      split
      · rfl
      · rename_i fresh
        rw [if_neg fresh] at failed
        cases failed
  | stop =>
      simp only [inPlace] at failed ⊢
      cases started : resolver.started with
      | error fault => rfl
      | ok framework =>
          rw [started] at failed
          cases failed
  | add generation =>
      simp only [inPlace] at failed ⊢
      cases started : resolver.started with
      | error fault => rfl
      | ok framework =>
          rw [started] at failed
          cases known : resolver.find? generation.id with
          | some found => rfl
          | none =>
              rw [known] at failed
              cases failed
  | remove generation =>
      simp only [inPlace] at failed ⊢
      cases started : resolver.started with
      | error fault => rfl
      | ok framework =>
          rw [started] at failed
          cases known : resolver.find? generation.id with
          | some found =>
              rw [known] at failed
              cases failed
          | none =>
              rw [filter_of_untracked known]
              rfl

/-- A call in place leaves what it makes of the resolver, or the resolver as it
was. -/
theorem inPlace_eq (resolver : Resolver) (call : Upkeep) :
    call.inPlace resolver =
      match call.perform resolver with
      | .ok next => (.ok (), next)
      | .error fault => (.error fault, resolver) := by
  unfold perform
  cases left : call.inPlace resolver with
  | mk answer next =>
      cases answer with
      | ok value => rfl
      | error fault =>
          have same := unchanged_of_error (congrArg Prod.fst left)
          rw [left] at same
          rw [show next = resolver from same]

/-- A call that succeeds leaves the policy as it is. -/
theorem policy_perform
    {next : Resolver} (done : call.perform resolver = .ok next) :
    next.policy = resolver.policy := by
  cases call with
  | start framework => rw [Resolver.eq_of_start done]
  | stop => rw [Resolver.eq_of_stop done]; rfl
  | add generation => rw [(Resolver.eq_of_add done).2]
  | remove generation => rw [Resolver.eq_of_remove done]

end Upkeep

namespace Resolver

/-- The resolver that some calls leave, whether or not they succeed. -/
def after (resolver : Resolver) (calls : List Upkeep) : Resolver :=
  calls.foldl (fun resolver call => (call.inPlace resolver).2) resolver

/-- The resolver that some calls make of a new one. -/
def maintained (policy : Policy) (calls : List Upkeep) : Resolver :=
  (create policy).after calls

variable {resolver next : Resolver} {generation : Generation}

/-- What calls that succeed preserve holds after any calls. -/
theorem after_induction
    (Holds : Resolver → Prop) (holds : Holds resolver)
    (done : ∀ {resolver next : Resolver} {call : Upkeep}, Holds resolver →
      call.perform resolver = .ok next → Holds next)
    (calls : List Upkeep) : Holds (resolver.after calls) := by
  induction calls generalizing resolver with
  | nil => exact holds
  | cons call rest inductionHypothesis =>
      refine @inductionHypothesis (call.inPlace resolver).2 ?_
      rw [Upkeep.inPlace_eq]
      cases performed : call.perform resolver with
      | error fault => exact holds
      | ok next => exact done holds performed

theorem policy_maintained (policy : Policy) (calls : List Upkeep) :
    (maintained policy calls).policy = policy :=
  after_induction (fun resolver => resolver.policy = policy) rfl
    (fun held done => (Upkeep.policy_perform done).trans held) calls

/-- The index says which tracked generations export a package, and in which
order, and it lists no package that nobody exports. -/
structure IsIndexed (resolver : Resolver) : Prop where
  distinct : (resolver.tracked.map Generation.id).Nodup
  exact : ∀ package, resolver.index.exporters package =
    (resolver.tracked.filter (·.exportsPackage package)).map Generation.id
  exported : resolver.index.HasExporters

theorem isIndexed_create (policy : Policy) : (create policy).IsIndexed :=
  ⟨List.nodup_nil, fun _ => rfl, PackageIndex.hasExporters_empty⟩

/-- A generation of a new identity comes last among the exporters. -/
theorem IsIndexed.add
    (indexed : resolver.IsIndexed)
    (done : resolver.add generation = .ok next) : next.IsIndexed := by
  obtain ⟨missing, rfl⟩ := eq_of_add done
  have fresh : generation.id ∉ resolver.tracked.map Generation.id := by
    intro known
    obtain ⟨other, member, same⟩ := List.mem_map.1 known
    have missed := List.find?_eq_none.1 missing other member
    exact missed (by simpa using same)
  refine ⟨?_, fun package => ?_, indexed.exported.add generation⟩
  · rw [List.map_append, List.nodup_append]
    refine ⟨indexed.distinct, by simp, ?_⟩
    rintro id known other same rfl
    exact fresh (List.mem_singleton.1 same ▸ known)
  · have unlisted :
        generation.id ∉ resolver.index.exporters package := by
      rw [indexed.exact]
      intro listed
      exact fresh ((List.filter_sublist.map _).subset listed)
    rw [PackageIndex.exporters_add, List.filter_append, List.map_append,
      ← indexed.exact]
    by_cases exports : generation.exportsPackage package = true
    · rw [if_pos ⟨Generation.exportsPackage_iff.1 exports, unlisted⟩]
      simp [exports]
    · rw [if_neg fun both =>
        exports (Generation.exportsPackage_iff.2 both.1)]
      simp [exports]

theorem IsIndexed.remove
    (indexed : resolver.IsIndexed)
    (done : resolver.remove generation = .ok next) : next.IsIndexed := by
  rw [eq_of_remove done]
  refine ⟨indexed.distinct.sublist (List.filter_sublist.map _),
    fun package => ?_, PackageIndex.hasExporters_remove _ _⟩
  rw [PackageIndex.exporters_remove, indexed.exact, List.filter_map,
    List.filter_filter, List.filter_filter]
  simp only [Function.comp_apply, Bool.and_comm]

/-- One call keeps the index exact. -/
theorem IsIndexed.perform
    (indexed : resolver.IsIndexed) {call : Upkeep}
    (done : call.perform resolver = .ok next) : next.IsIndexed := by
  cases call with
  | start framework =>
      rw [eq_of_start done]
      exact ⟨indexed.distinct, indexed.exact, indexed.exported⟩
  | stop =>
      rw [eq_of_stop done]
      exact isIndexed_create resolver.policy
  | add generation => exact indexed.add done
  | remove generation => exact indexed.remove done

/-- Any calls keep the index exact. -/
theorem isIndexed_maintained (policy : Policy) (calls : List Upkeep) :
    (maintained policy calls).IsIndexed :=
  after_induction IsIndexed (isIndexed_create policy)
    (fun indexed done => indexed.perform done) calls

/-- The index answers with the tracked generations themselves. -/
theorem IsIndexed.exporters_eq
    (indexed : resolver.IsIndexed) (package : String) :
    resolver.exporters package =
      resolver.tracked.filter (·.exportsPackage package) := by
  unfold exporters
  rw [indexed.exact, List.filterMap_map]
  calc
    _ = (resolver.tracked.filter (·.exportsPackage package)).filterMap
        some := List.filterMap_congr fun generation member =>
      find?_of_mem indexed.distinct (List.mem_filter.1 member).1
    _ = _ := List.filterMap_some

/-- After any calls the exporters of a package are the tracked generations that
export it, each once and in the order in which they are tracked, no package is
listed without exporters, and a further call that fails leaves everything as it
was. -/
theorem index_exact_after_calls (policy : Policy) (calls : List Upkeep) :
    (∀ package, (maintained policy calls).exporters package =
      (maintained policy calls).tracked.filter
        (·.exportsPackage package)) ∧
    ((maintained policy calls).tracked.map Generation.id).Nodup ∧
    (∀ package,
      (maintained policy calls).index.find? package ≠ some []) ∧
    ∀ call fault,
      (Upkeep.inPlace (maintained policy calls) call).1 = .error fault →
        (Upkeep.inPlace (maintained policy calls) call).2 =
          maintained policy calls := by
  have indexed := isIndexed_maintained policy calls
  exact ⟨indexed.exporters_eq, indexed.distinct, indexed.exported,
    fun _ _ => Upkeep.unchanged_of_error⟩

end Resolver

namespace Sample

/-- A bundle that exports one package in two clauses, and another one. -/
def insistent : Manifest :=
  bundle "x" [offer "p" 1, offer "q" 1, offer "p" 2] []

/-- The calls by which a bundle is tracked before another one, removed and
tracked again. Some of the calls fail. -/
def comings : List Upkeep :=
  [.add (generation 0 insistent),
    .start ⟨"system.bundle", BootDelegation.none⟩,
    .add (generation 0 insistent), .add (generation 1 relay),
    .add (generation 0 insistent), .add (generation 2 source),
    .remove (generation 0 insistent), .remove (generation 0 insistent),
    .add (generation 0 insistent)]

end Sample

/-- The bundle comes back as the last exporter, and a removal under an unknown
identity changes nothing. -/
theorem Resolver.comings_indexed :
    (maintained ⟨false⟩ Sample.comings).exporters "p" =
      [Sample.generation 1 Sample.relay,
        Sample.generation 0 Sample.insistent] ∧
    (Upkeep.inPlace (maintained ⟨false⟩ Sample.comings)
      (.remove (Sample.generation 3 Sample.source))).1 =
        .error (.unknownGeneration (Sample.id 3)) ∧
    (Upkeep.inPlace (maintained ⟨false⟩ Sample.comings)
      (.remove (Sample.generation 3 Sample.source))).2 =
        maintained ⟨false⟩ Sample.comings := by
  obtain ⟨exporters, -, -, unchanged⟩ :=
    index_exact_after_calls ⟨false⟩ Sample.comings
  have failed : (Upkeep.inPlace (maintained ⟨false⟩ Sample.comings)
      (.remove (Sample.generation 3 Sample.source))).1 =
        .error (.unknownGeneration (Sample.id 3)) := by
    rfl
  refine ⟨?_, failed, unchanged _ _ failed⟩
  rw [exporters]
  decide +kernel

end ModuleWiring
