import Mathlib.Data.List.Nodup
import ModuleWiring.Manifest.Import
import ModuleWiring.Proofs.HeaderGrammar

/-!
# Packages imported twice

No two clauses of an import header name the same package.  Within one clause a
package may be named as often as one likes: the clause keeps its names as a set,
and the check is made on the sets.
-/

namespace ModuleWiring

/-! ## Lists without repetitions -/

section Repetitions

variable {α : Type} [DecidableEq α]

theorem nodup_eraseDups (items : List α) : items.eraseDups.Nodup := by
  cases items with
  | nil => exact List.nodup_nil
  | cons first rest =>
      rw [List.eraseDups_cons, List.nodup_cons, List.mem_eraseDups]
      refine ⟨by simp, nodup_eraseDups _⟩
termination_by items.length
decreasing_by
  exact Nat.lt_succ_of_le (List.length_filter_le ..)

/-- A list without its repetitions lists each of its items once. -/
theorem count_eraseDups (items : List α) (item : α) :
    items.eraseDups.count item = if item ∈ items then 1 else 0 := by
  split
  · rename_i member
    exact List.count_eq_one_of_mem (nodup_eraseDups _)
      (List.mem_eraseDups.2 member)
  · rename_i missing
    exact List.count_eq_zero.2 fun member =>
      missing (List.mem_eraseDups.1 member)

end Repetitions

namespace Import

variable {seen names : List String} {package : String}

theorem repeated?_eq_none_iff :
    repeated? seen names = none ↔
      names.Nodup ∧ ∀ name ∈ names, name ∉ seen := by
  induction names generalizing seen with
  | nil => simp [repeated?]
  | cons name names inductionHypothesis =>
      rw [repeated?, List.nodup_cons, List.forall_mem_cons]
      split
      · rename_i known
        simp [known]
      · rename_i new
        rw [inductionHypothesis]
        grind

/-- What is reported has occurred before. -/
theorem count_of_repeated? (found : repeated? seen names = some package) :
    package ∈ names ∧ (package ∈ seen ∨ 1 < names.count package) := by
  induction names generalizing seen with
  | nil => cases found
  | cons name names inductionHypothesis =>
      rw [repeated?] at found
      split at found
      · rename_i known
        cases found
        exact ⟨List.mem_cons_self .., .inl known⟩
      · obtain ⟨member, before⟩ := inductionHypothesis found
        refine ⟨List.mem_cons_of_mem _ member, ?_⟩
        by_cases same : name = package
        · subst same
          have later := List.count_pos_iff.2 member
          rw [List.count_cons_self]
          exact .inr (Nat.succ_lt_succ later)
        · rw [List.count_cons_of_ne same]
          exact before.imp_left fun known =>
            (List.mem_cons.1 known).resolve_left (Ne.symm same)

end Import

namespace Clause

/-- A package that two clauses name. -/
def IsShared (clauses : List Clause) (package : String) : Prop :=
  1 < clauses.countP fun clause => package ∈ clause.paths

/-- The names of each clause, without those that it repeats. -/
def distinctNames (clauses : List Clause) : List String :=
  clauses.flatMap (·.paths.eraseDups)

variable {clauses : List Clause}

theorem count_distinctNames (clauses : List Clause) (package : String) :
    (distinctNames clauses).count package =
      clauses.countP fun clause => package ∈ clause.paths := by
  induction clauses with
  | nil => rfl
  | cons clause clauses inductionHypothesis =>
      rw [distinctNames, List.flatMap_cons, List.count_append, count_eraseDups,
        List.countP_cons, ← inductionHypothesis, Nat.add_comm, distinctNames]
      simp only [decide_eq_true_eq]

theorem nodup_distinctNames_iff :
    (distinctNames clauses).Nodup ↔ ∀ package, ¬IsShared clauses package := by
  rw [List.nodup_iff_count_le_one]
  simp only [count_distinctNames, IsShared, Nat.not_lt]

/-- Names as written are distinct if those of each clause are and no two clauses
share one. -/
theorem nodup_paths_iff :
    (clauses.flatMap Clause.paths).Nodup ↔
      (∀ clause ∈ clauses, clause.paths.Nodup) ∧
        ∀ package, ¬IsShared clauses package := by
  rw [← nodup_distinctNames_iff, distinctNames, List.nodup_flatMap,
    List.nodup_flatMap]
  have apart : (Function.onFun List.Disjoint Clause.paths) =
      Function.onFun List.Disjoint fun clause => clause.paths.eraseDups := by
    funext left right
    simp only [Function.onFun, List.Disjoint, List.mem_eraseDups]
  rw [apart]
  have erased : ∀ clause ∈ clauses, clause.paths.eraseDups.Nodup :=
    fun clause _ => nodup_eraseDups clause.paths
  exact ⟨fun ⟨each, across⟩ => ⟨each, erased, across⟩,
    fun ⟨each, _, across⟩ => ⟨each, across⟩⟩

end Clause

namespace Import

variable {clause : Clause} {clauses : List Clause} {wanted : Import}
  {imports : List Import} {text : String}

/-- An import keeps the names of its clause, once each. -/
theorem packages_of_ofClause (read : ofClause clause = .ok wanted) :
    wanted.packages = clause.paths.eraseDups := by
  obtain ⟨version, -, read⟩ := bind_eq_ok_iff.1 read
  cases version <;>
  · obtain ⟨range, -, read⟩ := bind_eq_ok_iff.1 read
    obtain ⟨bundleRange, -, read⟩ := bind_eq_ok_iff.1 read
    obtain ⟨resolution, -, read⟩ := bind_eq_ok_iff.1 read
    cases read
    rfl

theorem flatMap_packages
    (read : clauses.mapM ofClause = .ok imports) :
    imports.flatMap packages = Clause.distinctNames clauses := by
  have read := mapM_eq_ok_iff.1 read
  induction read with
  | nil => rfl
  | cons first rest inductionHypothesis =>
      rw [List.flatMap_cons, packages_of_ofClause first,
        inductionHypothesis (mapM_eq_ok_iff.2 rest)]
      rfl

/-- Where the clauses have been read, their names decide. -/
theorem parse_of_read
    (parsed : Clause.parseHeader "Import-Package" text = .ok clauses)
    (read : clauses.mapM ofClause = .ok imports) :
    parse text =
      match repeated? [] (Clause.distinctNames clauses) with
      | some package => .error (.duplicateImport package)
      | none => .ok imports := by
  unfold parse
  rw [parsed, ← flatMap_packages read]
  change (clauses.mapM ofClause >>= _) = _
  rw [read]
  rfl

theorem shared_of_repeated?
    (found : repeated? [] (Clause.distinctNames clauses) = some package) :
    Clause.IsShared clauses package := by
  obtain ⟨-, known | twice⟩ := count_of_repeated? found
  · cases known
  · rwa [Clause.count_distinctNames] at twice

theorem repeated?_distinctNames_eq_none_iff :
    repeated? [] (Clause.distinctNames clauses) = none ↔
      ∀ package, ¬Clause.IsShared clauses package := by
  rw [repeated?_eq_none_iff, Clause.nodup_distinctNames_iff]
  exact and_iff_left fun _ _ => List.not_mem_nil

/-- Imports are accepted if no two clauses name the same package, and a package
that two clauses name is reported otherwise.  To name no package twice is the same
only where some package is shared, or no clause repeats a name of its own. -/
theorem parse_unless_shared
    (parsed : Clause.parseHeader "Import-Package" text = .ok clauses)
    (read : clauses.mapM ofClause = .ok imports) :
    (parse text = .ok imports ↔
      ∀ package, ¬Clause.IsShared clauses package) ∧
    ((∃ package, Clause.IsShared clauses package) →
      ∃ package, Clause.IsShared clauses package ∧
        parse text = .error (.duplicateImport package)) ∧
    (((∃ accepted, parse text = .ok accepted) ↔
        (clauses.flatMap Clause.paths).Nodup) ↔
      (∃ package, Clause.IsShared clauses package) ∨
        ∀ clause ∈ clauses, clause.paths.Nodup) := by
  have outcome := parse_of_read parsed read
  rw [Clause.nodup_paths_iff]
  cases search : repeated? [] (Clause.distinctNames clauses) with
  | some package =>
      have shared := shared_of_repeated? search
      have refused : parse text = .error (.duplicateImport package) := by
        rw [outcome, search]
      have sharing : ∃ package, Clause.IsShared clauses package :=
        ⟨package, shared⟩
      have crowded : ¬∀ package, ¬Clause.IsShared clauses package :=
        not_forall_not.2 sharing
      refine ⟨?_, fun _ => ⟨package, shared, refused⟩, ?_⟩
      · rw [refused]
        exact iff_of_false nofun crowded
      · rw [refused]
        simp [sharing, crowded]
  | none =>
      have apart := repeated?_distinctNames_eq_none_iff.1 search
      have accepted : parse text = .ok imports := by
        rw [outcome, search]
      have missing : ¬∃ package, Clause.IsShared clauses package :=
        not_exists.2 apart
      refine ⟨iff_of_true accepted apart,
        fun sharing => absurd sharing missing, ?_⟩
      rw [accepted]
      simp [apart]

end Import

namespace Sample

/-- A clause that names one package twice. -/
def stutter : Clause :=
  ⟨["p", "p"], Parameters.none⟩

end Sample

theorem Import.stutter_accepted :
    Clause.parseHeader "Import-Package" "p;p" = .ok [Sample.stutter] ∧
      [Sample.stutter].mapM ofClause = .ok [Import.of ["p"]] ∧
      parse "p;p" = .ok [Import.of ["p"]] ∧
      ¬([Sample.stutter].flatMap Clause.paths).Nodup := by
  have parsed : Clause.parseHeader "Import-Package" "p;p" =
      .ok [Sample.stutter] := by
    decide +kernel
  have read : [Sample.stutter].mapM ofClause = .ok [Import.of ["p"]] := by
    decide +kernel
  have alone : ∀ package, ¬Clause.IsShared [Sample.stutter] package :=
    fun _ => Nat.not_lt.2 List.countP_le_length
  exact ⟨parsed, read, (parse_unless_shared parsed read).1.2 alone, by decide⟩

end ModuleWiring
