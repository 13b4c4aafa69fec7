import ModuleWiring.Proofs.Newcomer
import ModuleWiring.Proofs.Upkeep

/-!
# Histories of a resolver

What a resolver answers depends on the generations that it tracks and on their
order.  How they came to be tracked shows in one place only: a wildcard of a
dynamic import stands for the packages that somebody exports, in the order in
which they came up in the index.
-/

namespace ModuleWiring

/-! ## Searches whose indexes answer alike -/

/-- Two indexes list the same exporters of every package. -/
def PackageIndex.ListsAlike (index other : PackageIndex) : Prop :=
  ∀ package, index.exporters package = other.exporters package

namespace Search

variable {framework : Framework} {policy : Policy} {index other : PackageIndex}

theorem wireChoices_eq_of_listsAlike
    (alike : index.ListsAlike other) (draft : Draft)
    (requirement : PackageImport) :
    wireChoices ⟨framework, policy, index⟩ draft requirement =
      wireChoices ⟨framework, policy, other⟩ draft requirement := by
  unfold wireChoices
  congr 1
  funext group
  simp only [groupChoices, mayExport, alike requirement.package]

theorem importMoves_eq_of_listsAlike
    (alike : index.ListsAlike other) (draft : Draft) :
    importMoves ⟨framework, policy, index⟩ draft =
      importMoves ⟨framework, policy, other⟩ draft := by
  simp only [importMoves, importChoices, wireChoices_eq_of_listsAlike alike]

/-- Which exporters a package has is all that a search asks an index. -/
theorem problem_eq_of_listsAlike (alike : index.ListsAlike other) :
    problem ⟨framework, policy, index⟩ =
      problem ⟨framework, policy, other⟩ := by
  have moves_eq : moves ⟨framework, policy, index⟩ =
      moves ⟨framework, policy, other⟩ := by
    funext node
    unfold moves
    cases node.phase with
    | start => rfl
    | requires => rfl
    | imports => exact congrArg _ (importMoves_eq_of_listsAlike alike _)
    | finished => rfl
  simp only [problem, moves_eq]

end Search

/-! ## What a dynamic import stands for -/

namespace PackageIndex

variable {index other : PackageIndex}

theorem HasExporters.mem_keys_iff
    (exported : index.HasExporters) {package : String} :
    package ∈ index.keys ↔ index.exporters package ≠ [] := by
  rw [Table.mem_keys_iff, exporters]
  cases listed : Table.find? index package with
  | none => simp
  | some ids =>
      have nonempty : ids ≠ [] :=
        fun empty => exported package (empty ▸ listed)
      simpa using nonempty

/-- Indexes that answer alike know the same packages. -/
theorem ListsAlike.perm_keys
    (alike : index.ListsAlike other) (exported : index.HasExporters)
    (otherExported : other.HasExporters) : index.keys.Perm other.keys := by
  refine (List.perm_ext_iff_of_nodup index.distinct other.distinct).2 ?_
  intro package
  change package ∈ index.keys ↔ package ∈ other.keys
  rw [exported.mem_keys_iff, otherExported.mem_keys_iff, alike package]

theorem nodup_expandName (index : PackageIndex) (name : String) :
    (index.expandName name).1.Nodup := by
  unfold expandName
  split
  · exact index.distinct.filter _
  · exact List.nodup_singleton name

/-- A name stands for the same packages if the same ones are known. -/
theorem expandName_perm
    (perm : index.keys.Perm other.keys) (name : String) :
    (index.expandName name).1.Perm (other.expandName name).1 ∧
      (index.expandName name).2 = (other.expandName name).2 := by
  unfold expandName
  split
  · exact ⟨perm.filter _, rfl⟩
  · exact ⟨.refl _, rfl⟩

end PackageIndex

/-- Requirements are added for the packages that have none. -/
theorem addRequirements_eq
    {wanted : Import} {requirements : List PackageImport}
    {packages : List String} (distinct : packages.Nodup) :
    addRequirements wanted requirements packages =
      requirements ++ (packages.filter fun package =>
        !requirements.any (·.package = package)).map (⟨·, wanted⟩) := by
  unfold addRequirements
  induction packages generalizing requirements with
  | nil => simp
  | cons first rest inductionHypothesis =>
      rw [List.nodup_cons] at distinct
      rw [List.foldl_cons, inductionHypothesis distinct.2]
      by_cases known : requirements.any (·.package = first) = true
      · rw [if_pos known, List.filter_cons_of_neg (by simpa using known)]
      · have others : (rest.filter fun package =>
            !(requirements ++ [PackageImport.mk first wanted]).any
              (·.package = package)) = rest.filter fun package =>
                !requirements.any (·.package = package) := by
          refine List.filter_congr fun package member => ?_
          have different : first ≠ package := by
            rintro rfl
            exact distinct.1 member
          simp [different]
        rw [if_neg known, List.filter_cons_of_pos (by simpa using known),
          others, List.map_cons, List.append_assoc, List.singleton_append]

namespace Import

variable {index other : PackageIndex}

theorem expandName_perm
    (wanted : Import) (perm : index.keys.Perm other.keys)
    {left right : List PackageImport} (alike : left.Perm right)
    (name : String) :
    (wanted.expandName index left name).Perm
      (wanted.expandName other right name) := by
  obtain ⟨packages, isWildcard⟩ := PackageIndex.expandName_perm perm name
  unfold expandName
  simp only
  rw [isWildcard, addRequirements_eq (index.nodup_expandName name),
    addRequirements_eq (other.nodup_expandName name)]
  have known : ∀ package, left.any (·.package = package) =
      right.any (·.package = package) :=
    fun package => alike.any_eq
  simp only [known]
  exact alike.append ((packages.filter _).map _)

/-- A dynamic import stands for the same packages if the same ones are known. -/
theorem expand_perm
    (wanted : Import) (perm : index.keys.Perm other.keys) :
    (wanted.expand index).Perm (wanted.expand other) := by
  have folded : ∀ (names : List String) {left right : List PackageImport},
      left.Perm right →
        (names.foldl (wanted.expandName index) left).Perm
          (names.foldl (wanted.expandName other) right) := by
    intro names
    induction names with
    | nil => exact fun alike => alike
    | cons name rest inductionHypothesis =>
        exact fun alike =>
          inductionHypothesis (wanted.expandName_perm perm alike name)
  exact folded wanted.packages (.refl [])

/-- What is named in full stands for itself. -/
theorem expand_eq
    {wanted : Import}
    (named : ∀ name ∈ wanted.packages, name.toList.getLast? ≠ some '*')
    (index other : PackageIndex) :
    wanted.expand index = wanted.expand other := by
  unfold expand
  refine List.foldl_ext _ _ _ fun requirements name member => ?_
  unfold expandName PackageIndex.expandName
  rw [if_neg (named name member), if_neg (named name member)]

end Import

/-! ## Two histories -/

namespace Resolver

/-- Two resolvers that track the same under one framework and policy, and whose
indexes answer alike. -/
structure Alike (left right : Resolver) : Prop where
  policy : left.policy = right.policy
  framework : left.framework = right.framework
  tracked : left.tracked = right.tracked
  index : left.index.ListsAlike right.index

namespace Alike

variable {left right : Resolver} (alike : left.Alike right)

include alike

theorem canonical_eq (store : Store) :
    left.canonical store = right.canonical store := by
  unfold canonical
  rw [alike.tracked]

theorem frameworkFor_eq (target : Generation) :
    left.frameworkFor target = right.frameworkFor target := by
  unfold frameworkFor started tracks find?
  rw [alike.framework, alike.tracked]

theorem problem_eq (framework : Framework) :
    (left.search framework).problem = (right.search framework).problem := by
  unfold search
  rw [alike.policy]
  exact Search.problem_eq_of_listsAlike alike.index

theorem resolve_eq (store : Store) (target : Generation) :
    left.resolve store target = right.resolve store target := by
  unfold resolve attempt initialDraft Search.run
  rw [alike.frameworkFor_eq target, alike.canonical_eq store]
  cases right.frameworkFor target with
  | error fault => rfl
  | ok framework =>
      by_cases installed : store.state target = .installed
      · cases Draft.initial store (right.canonical store) target with
        | error conflict => simp [installed, bind, Except.bind, Except.mapError]
        | ok draft =>
            simp [installed, bind, Except.bind, Except.mapError, pure,
              Except.pure, alike.problem_eq]
      · simp [installed, bind, Except.bind, throw, throwThe,
          MonadExceptOf.throw]

theorem resolveDynamic_eq
    {wanted : Import}
    (expands : wanted.expand left.index = wanted.expand right.index)
    (store : Store) (target : Generation) :
    left.resolveDynamic store target wanted =
      right.resolveDynamic store target wanted := by
  unfold resolveDynamic attemptDynamic dynamicDraft Search.runPending
  rw [alike.frameworkFor_eq target, alike.canonical_eq store, expands]
  generalize wanted.expand right.index = requirements
  cases right.frameworkFor target with
  | error fault => rfl
  | ok framework =>
      by_cases resolved : (store.state target).isResolved = true
      · by_cases nothing : requirements = []
        · simp [resolved, nothing, bind, Except.bind, throw, throwThe,
            MonadExceptOf.throw]
        · cases begun : Draft.forDynamicImport store (right.canonical store)
              target requirements with
          | error conflict =>
              simp [resolved, nothing, begun, bind, Except.bind,
                Except.mapError]
          | ok draft =>
              simp [resolved, nothing, begun, bind, Except.bind,
                Except.mapError, pure, Except.pure, alike.problem_eq]
      · simp [resolved, bind, Except.bind, throw, throwThe,
          MonadExceptOf.throw]

end Alike

/-- Resolvers that track the same are alike, however they came to track it. -/
theorem IsIndexed.alike
    {left right : Resolver} (indexed : left.IsIndexed)
    (otherIndexed : right.IsIndexed) (policy : left.policy = right.policy)
    (framework : left.framework = right.framework)
    (tracked : left.tracked = right.tracked) : left.Alike right := by
  refine ⟨policy, framework, tracked, fun package => ?_⟩
  rw [indexed.exact, otherIndexed.exact, tracked]

/-- Resolvers that have come to track the same generations in the same order
resolve alike, and a dynamic import stands for the same packages.  It is
answered alike if these come in the same order, as they do without wildcards. -/
theorem answers_independent_of_history
    (policy : Policy) {first second : List Upkeep}
    (sameFramework : (maintained policy first).framework =
      (maintained policy second).framework)
    (sameTracked : (maintained policy first).tracked =
      (maintained policy second).tracked)
    (store : Store) (target : Generation) :
    (maintained policy first).resolve store target =
      (maintained policy second).resolve store target ∧
    ∀ wanted : Import,
      (wanted.expand (maintained policy first).index).Perm
        (wanted.expand (maintained policy second).index) ∧
      (wanted.expand (maintained policy first).index =
          wanted.expand (maintained policy second).index ∨
        (∀ name ∈ wanted.packages, name.toList.getLast? ≠ some '*') →
          (maintained policy first).resolveDynamic store target wanted =
            (maintained policy second).resolveDynamic store target wanted) := by
  have indexed := isIndexed_maintained policy first
  have otherIndexed := isIndexed_maintained policy second
  have alike := indexed.alike otherIndexed
    ((policy_maintained policy first).trans
      (policy_maintained policy second).symm) sameFramework sameTracked
  refine ⟨alike.resolve_eq store target, fun wanted => ⟨?_, ?_⟩⟩
  · exact wanted.expand_perm
      (alike.index.perm_keys indexed.exported otherIndexed.exported)
  · rintro (expands | named)
    · exact alike.resolveDynamic_eq expands store target
    · exact alike.resolveDynamic_eq (Import.expand_eq named _ _) store target

end Resolver

namespace Sample

/-- A bundle that is resolved and imports packages dynamically. -/
def caller : Manifest :=
  bundle "h" [] []

/-- A bundle, and a fragment by which it exports another package. -/
def stage : Manifest :=
  bundle "x" [offer "pa" 1] []

def prop : Manifest :=
  fragment "f" "x" [offer "s" 1] []

/-- A bundle that needs that package, and a fragment by which it exports a third
one. -/
def act : Manifest :=
  bundle "z" [offer "pb" 1] [wish "s" 1]

def encore : Manifest :=
  fragment "g" "z" [offer "t" 1] []

/-- A bundle that needs the package of the last fragment. -/
def finale : Manifest :=
  bundle "y" [offer "r" 1] [wish "t" 1]

/-- A bundle that exports a package before the others do. -/
def understudy : Manifest :=
  bundle "d" [offer "pb" 1] []

/-- The calls by which the others are tracked. -/
def billing : List Upkeep :=
  [.add (generation 0 caller), .add (generation 1 stage),
    .add (generation 2 prop), .add (generation 3 act),
    .add (generation 4 encore), .add (generation 5 finale)]

/-- A history in which they are all that is ever tracked. -/
def direct : List Upkeep :=
  .start ⟨"system.bundle", BootDelegation.none⟩ :: billing

/-- A history in which the early exporter comes first and goes in the end. -/
def detour : List Upkeep :=
  .start ⟨"system.bundle", BootDelegation.none⟩ ::
    .add (generation 6 understudy) :: billing ++
      [.remove (generation 6 understudy)]

/-- The world in which all are installed and the first is resolved. -/
def theatre : World :=
  (world [caller, stage, prop, act, encore, finale, understudy]).applying
    (generation 0 caller) fun _ => true

/-- A dynamic import with a wildcard for the packages of two bundles. -/
def request : Import :=
  { wish "r" 1 with packages := ["p*", "r"] }

end Sample

/-- After either history a bundle is resolved alike, and so is a dynamic import
without wildcards. -/
theorem Resolver.direct_and_detour_agree :
    (maintained ⟨false⟩ Sample.direct).resolve Sample.theatre.store
        (Sample.generation 1 Sample.stage) =
      (maintained ⟨false⟩ Sample.detour).resolve Sample.theatre.store
        (Sample.generation 1 Sample.stage) ∧
    (maintained ⟨false⟩ Sample.direct).resolveDynamic Sample.theatre.store
        (Sample.generation 0 Sample.caller) (Sample.wish "pa" 1) =
      (maintained ⟨false⟩ Sample.detour).resolveDynamic Sample.theatre.store
        (Sample.generation 0 Sample.caller) (Sample.wish "pa" 1) := by
  have sameFramework : (maintained ⟨false⟩ Sample.direct).framework =
      (maintained ⟨false⟩ Sample.detour).framework := by
    decide +kernel
  have sameTracked : (maintained ⟨false⟩ Sample.direct).tracked =
      (maintained ⟨false⟩ Sample.detour).tracked := by
    decide +kernel
  have agree := answers_independent_of_history ⟨false⟩ sameFramework
    sameTracked Sample.theatre.store
  have named : ∀ name ∈ (Sample.wish "pa" 1).packages,
      name.toList.getLast? ≠ some '*' := by
    decide
  exact ⟨(agree (Sample.generation 1 Sample.stage)).1,
    ((agree (Sample.generation 0 Sample.caller)).2 _).2 (.inr named)⟩

/-- The order of what a wildcard stands for may decide whether there is an
answer. Who needs the package of a fragment has to be wired after the host. -/
theorem Resolver.wildcards_remember_history :
    ∃ left right answer,
      Sample.direct.foldlM Upkeep.perform (create ⟨false⟩) = .ok left ∧
      Sample.detour.foldlM Upkeep.perform (create ⟨false⟩) = .ok right ∧
      left.framework = right.framework ∧ left.tracked = right.tracked ∧
      left.resolveDynamic Sample.theatre.store
        (Sample.generation 0 Sample.caller) Sample.request = .ok answer ∧
      right.resolveDynamic Sample.theatre.store
        (Sample.generation 0 Sample.caller) Sample.request =
          .error (.noSolution (Sample.generation 0 Sample.caller)) := by
  have solved : ((maintained ⟨false⟩ Sample.direct).resolveDynamic
      Sample.theatre.store (Sample.generation 0 Sample.caller)
        Sample.request).toOption.isSome = true := by
    decide +kernel
  obtain ⟨answer, found⟩ := Option.isSome_iff_exists.1 solved
  exact ⟨maintained ⟨false⟩ Sample.direct, maintained ⟨false⟩ Sample.detour,
    answer, rfl, rfl, rfl, by decide +kernel,
    Search.eq_ok_of_toOption found, by decide +kernel⟩

end ModuleWiring
