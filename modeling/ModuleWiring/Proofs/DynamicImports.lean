import ModuleWiring.Proofs.Additions
import ModuleWiring.Proofs.World

/-!
# What a dynamic import stands for

A dynamic import asks for the packages that it names in full and for the indexed
ones that its wildcards cover, for each of them once.  The first name that stands
for a package decides under which conditions it is asked for, so that a wildcard in
front of a package's own name makes the package optional.
-/

namespace ModuleWiring

/-- A name that ends in an asterisk. -/
def IsWildcard (name : String) : Prop :=
  name.toList.getLast? = some '*'

instance (name : String) : Decidable (IsWildcard name) :=
  inferInstanceAs (Decidable (_ = _))

/-- A wildcard covers the packages that start with what is before its asterisk. -/
def Covers (name package : String) : Prop :=
  IsWildcard name ∧ name.toList.dropLast <+: package.toList

instance (name package : String) : Decidable (Covers name package) :=
  inferInstanceAs (Decidable (_ ∧ _))

/-- A name stands for itself, but a wildcard for the indexed packages that it
covers. -/
def PackageIndex.StandsFor (index : PackageIndex) (package name : String) :
    Prop :=
  if IsWildcard name then package ∈ index.keys ∧ Covers name package
  else name = package

instance (index : PackageIndex) (package name : String) :
    Decidable (index.StandsFor package name) :=
  inferInstanceAs (Decidable (if IsWildcard name then _ else _))

theorem PackageIndex.expandName_of_wildcard (index : PackageIndex)
    {name : String} (wildcard : IsWildcard name) :
    index.expandName name =
      (index.keys.filter fun package =>
        name.toList.dropLast.isPrefixOf package.toList, true) :=
  if_pos wildcard

theorem PackageIndex.expandName_of_plain (index : PackageIndex)
    {name : String} (plain : ¬IsWildcard name) :
    index.expandName name = ([name], false) :=
  if_neg plain

theorem PackageIndex.mem_expandName
    {index : PackageIndex} {name package : String} :
    package ∈ (index.expandName name).1 ↔ index.StandsFor package name := by
  unfold StandsFor
  by_cases wildcard : IsWildcard name
  · rw [if_pos wildcard, expandName_of_wildcard index wildcard,
      List.mem_filter, List.isPrefixOf_iff_prefix, Covers,
      and_iff_right wildcard]
  · rw [if_neg wildcard, expandName_of_plain index wildcard,
      List.mem_singleton, eq_comm]

namespace Import

variable {wanted : Import} {index : PackageIndex} {package : String}

/-- The conditions under which a name asks for packages. -/
def conditions (wanted : Import) (name : String) : Import :=
  if IsWildcard name then wanted.asOptional else wanted

theorem requirementsFor_eq (wanted : Import) (index : PackageIndex)
    (name : String) :
    wanted.requirementsFor index name =
      (index.expandName name).1.map (⟨·, wanted.conditions name⟩) := by
  unfold requirementsFor conditions
  by_cases wildcard : IsWildcard name
  · rw [index.expandName_of_wildcard wildcard, if_pos wildcard, if_pos rfl]
  · rw [index.expandName_of_plain wildcard, if_neg wildcard,
      if_neg Bool.false_ne_true]

theorem find?_requirementsFor (name : String) :
    (wanted.requirementsFor index name).find? (·.package = package) =
      if index.StandsFor package name then
        some ⟨package, wanted.conditions name⟩
      else none := by
  rw [requirementsFor_eq, List.find?_map]
  split
  · rename_i stands
    have listed := PackageIndex.mem_expandName.2 stands
    have found : (index.expandName name).1.find?
        (fun other => decide (other = package)) = some package := by
      cases hit : (index.expandName name).1.find?
          (fun other => decide (other = package)) with
      | none =>
          have missed := List.find?_eq_none.1 hit package listed
          simp at missed
      | some other =>
          exact congrArg some (by simpa using List.find?_some hit)
    exact congrArg (Option.map _) found
  · rename_i other
    rw [Option.map_eq_none_iff, List.find?_eq_none]
    intro listed member same
    have same : listed = package := by simpa using same
    exact other (PackageIndex.mem_expandName.1 (same ▸ member))

/-- A package is asked for under the conditions of the first name that stands for
it. -/
theorem find?_expand (wanted : Import) (index : PackageIndex)
    (package : String) :
    (wanted.expand index).find? (·.package = package) =
      (wanted.packages.find? (index.StandsFor package ·)).map fun name =>
        ⟨package, wanted.conditions name⟩ := by
  rw [expand_eq_foldl, find?_foldl_addNew, List.nil_append,
    List.find?_flatMap]
  simp only [find?_requirementsFor]
  induction wanted.packages with
  | nil => rfl
  | cons name rest inductionHypothesis =>
      rw [List.findSome?_cons]
      by_cases stands : index.StandsFor package name
      · rw [if_pos stands, List.find?_cons_of_pos (by simpa using stands)]
        rfl
      · rw [if_neg stands, List.find?_cons_of_neg (by simpa using stands),
          inductionHypothesis]

theorem nodup_packages_expand (wanted : Import) (index : PackageIndex) :
    ((wanted.expand index).map PackageImport.package).Nodup := by
  have start : (([] : List PackageImport).map
      PackageImport.package).Nodup := List.nodup_nil
  rw [expand_eq_foldl]
  exact nodup_map_foldl_addNew start _

theorem mem_expand_iff {requirement : PackageImport} :
    requirement ∈ wanted.expand index ↔
      ∃ name, wanted.packages.find?
          (index.StandsFor requirement.package ·) = some name ∧
        requirement.wanted = wanted.conditions name := by
  have found := @find?_key_eq_some_iff _ _ _ PackageImport.package _
    (wanted.nodup_packages_expand index) requirement.package requirement
  rw [and_iff_left rfl, find?_expand, Option.map_eq_some_iff] at found
  rw [← found]
  refine exists_congr fun name => and_congr_right fun _ => ?_
  constructor
  · intro conditions
    rw [← conditions]
  · intro conditions
    rw [← conditions]

/-- A package that one of the names is, as it stands. -/
def NamesInFull (wanted : Import) (package : String) : Prop :=
  package ∈ wanted.packages ∧ ¬IsWildcard package

instance (wanted : Import) (package : String) :
    Decidable (wanted.NamesInFull package) :=
  inferInstanceAs (Decidable (_ ∧ _))

/-- An indexed package that a wildcard in front of the package's own name
covers. -/
def IsOvertaken (wanted : Import) (index : PackageIndex)
    (package : String) : Prop :=
  package ∈ index.keys ∧
    ∃ name ∈ wanted.packages.takeWhile (· ≠ package), Covers name package

instance (wanted : Import) (index : PackageIndex) (package : String) :
    Decidable (wanted.IsOvertaken index package) :=
  inferInstanceAs (Decidable (_ ∧ _))

/-- The resolution under which a package is asked for. -/
def resolutionOf (wanted : Import) (index : PackageIndex)
    (package : String) : Resolution :=
  if wanted.NamesInFull package ∧ ¬wanted.IsOvertaken index package then
    wanted.resolution
  else .optional

theorem conditions_eq {name : String}
    (first : wanted.packages.find? (index.StandsFor package ·) = some name) :
    wanted.conditions name =
      { wanted with resolution := wanted.resolutionOf index package } := by
  obtain ⟨stands, before, after, split, others⟩ :=
    List.find?_eq_some_iff_append.1 first
  have stands : index.StandsFor package name := of_decide_eq_true stands
  have others : ∀ other ∈ before, ¬index.StandsFor package other := by
    simpa using others
  unfold conditions resolutionOf
  unfold PackageIndex.StandsFor at stands
  by_cases wildcard : IsWildcard name
  · rw [if_pos wildcard] at stands
    rw [if_pos wildcard, if_neg]
    · rfl
    rintro ⟨full, ahead⟩
    -- The package's own name is not before the wildcard, which would then not
    -- be the first name that stands for it.
    have ownLater : ∀ other ∈ before, other ≠ package := by
      rintro other member rfl
      refine others other member ?_
      rw [PackageIndex.StandsFor, if_neg full.2]
    have different : name ≠ package := by
      rintro rfl
      exact full.2 wildcard
    refine ahead ⟨stands.1, name, ?_, stands.2⟩
    rw [split, List.takeWhile_append_of_pos (by simpa using ownLater),
      List.takeWhile_cons_of_pos (by simpa using different)]
    exact List.mem_append_right _ (List.mem_cons_self ..)
  · rw [if_neg wildcard] at stands
    subst stands
    rw [if_neg wildcard, if_pos]
    refine ⟨⟨split ▸ List.mem_append_right _ (List.mem_cons_self ..),
      wildcard⟩, ?_⟩
    rintro ⟨indexed, other, ahead, covers⟩
    have earlier : other ∈ before := by
      have member := ahead
      rw [split, List.takeWhile_append] at member
      split at member
      · rw [List.takeWhile_cons_of_neg (by simp), List.append_nil] at member
        exact member
      · exact List.takeWhile_subset _ member
    refine others other earlier ?_
    rw [PackageIndex.StandsFor, if_pos covers.1]
    exact ⟨indexed, covers⟩

/-- The packages that are asked for, each with its resolution. -/
def outline (wanted : Import) (index : PackageIndex) :
    List (String × Resolution) :=
  (wanted.expand index).map fun requirement =>
    (requirement.package, requirement.wanted.resolution)

/-- A package that one of the names stands for. -/
def AsksFor (wanted : Import) (index : PackageIndex) (package : String) :
    Prop :=
  wanted.NamesInFull package ∨
    package ∈ index.keys ∧ ∃ name ∈ wanted.packages, Covers name package

theorem exists_standsFor_iff :
    (∃ name ∈ wanted.packages, index.StandsFor package name) ↔
      wanted.AsksFor index package := by
  unfold PackageIndex.StandsFor AsksFor NamesInFull
  constructor
  · rintro ⟨name, member, stands⟩
    by_cases wildcard : IsWildcard name
    · rw [if_pos wildcard] at stands
      exact .inr ⟨stands.1, name, member, stands.2⟩
    · rw [if_neg wildcard] at stands
      subst stands
      exact .inl ⟨member, wildcard⟩
  · rintro (⟨member, plain⟩ | ⟨indexed, name, member, covers⟩)
    · exact ⟨package, member, by rw [if_neg plain]⟩
    · exact ⟨name, member, by rw [if_pos covers.1]; exact ⟨indexed, covers⟩⟩

theorem mem_packages_expand :
    package ∈ (wanted.expand index).map PackageImport.package ↔
      wanted.AsksFor index package := by
  rw [← exists_standsFor_iff, List.mem_map]
  constructor
  · rintro ⟨requirement, member, rfl⟩
    obtain ⟨name, first, -⟩ := mem_expand_iff.1 member
    exact ⟨name, List.mem_of_find?_eq_some first,
      by simpa using List.find?_some first⟩
  · rintro ⟨name, member, stands⟩
    have isSome : (wanted.packages.find?
        (index.StandsFor package ·)).isSome :=
      List.find?_isSome.2 ⟨name, member, decide_eq_true stands⟩
    obtain ⟨first, found⟩ := Option.isSome_iff_exists.1 isSome
    exact ⟨⟨package, wanted.conditions first⟩,
      mem_expand_iff.2 ⟨first, found, rfl⟩, rfl⟩

theorem wanted_eq_of_mem_expand
    {requirement : PackageImport}
    (member : requirement ∈ wanted.expand index) :
    requirement.wanted =
      { wanted with
        resolution := wanted.resolutionOf index requirement.package } := by
  obtain ⟨name, first, conditions⟩ := mem_expand_iff.1 member
  rw [conditions, conditions_eq first]

theorem mem_outline {resolution : Resolution} :
    (package, resolution) ∈ wanted.outline index ↔
      wanted.AsksFor index package ∧
        resolution = wanted.resolutionOf index package := by
  rw [← mem_packages_expand, outline, List.mem_map, List.mem_map]
  constructor
  · rintro ⟨requirement, member, same⟩
    obtain ⟨rfl, rfl⟩ := Prod.mk.injEq .. ▸ same
    exact ⟨⟨requirement, member, rfl⟩,
      by rw [wanted_eq_of_mem_expand member]⟩
  · rintro ⟨⟨requirement, member, rfl⟩, rfl⟩
    exact ⟨requirement, member,
      by rw [wanted_eq_of_mem_expand member]⟩

theorem nodup_outline (wanted : Import) (index : PackageIndex) :
    (wanted.outline index).Nodup := by
  refine List.Nodup.of_map Prod.fst ?_
  rw [outline, List.map_map]
  exact wanted.nodup_packages_expand index

theorem resolutionOf_eq_iff (full : wanted.NamesInFull package) :
    wanted.resolutionOf index package = wanted.resolution ↔
      wanted.resolution = .optional ∨ ¬wanted.IsOvertaken index package := by
  unfold resolutionOf
  by_cases ahead : wanted.IsOvertaken index package
  · rw [if_neg (fun free => free.2 ahead), or_iff_left (not_not.2 ahead),
      eq_comm]
  · rw [if_pos ⟨full, ahead⟩, eq_self, true_iff]
    exact .inr ahead

theorem resolutionOf_eq_optional (other : ¬wanted.NamesInFull package) :
    wanted.resolutionOf index package = .optional :=
  if_neg fun free => other free.1

/-- All packages named in full keep the clause's resolution unless one of them is
overtaken. -/
theorem keeps_resolution_iff :
    (∀ requirement ∈ wanted.expand index,
      requirement.wanted.resolution =
        if wanted.NamesInFull requirement.package then wanted.resolution
        else .optional) ↔
      wanted.resolution = .optional ∨
        ∀ package, wanted.NamesInFull package →
          ¬wanted.IsOvertaken index package := by
  have carries {requirement : PackageImport}
      (member : requirement ∈ wanted.expand index) :
      requirement.wanted.resolution =
        wanted.resolutionOf index requirement.package := by
    rw [wanted_eq_of_mem_expand member]
  constructor
  · intro keeps
    refine or_iff_not_imp_left.2 fun mandatory package full => ?_
    obtain ⟨requirement, member, rfl⟩ :=
      List.mem_map.1 (mem_packages_expand.2 (.inl full))
    have kept := keeps requirement member
    rw [if_pos full, carries member] at kept
    exact ((resolutionOf_eq_iff full).1 kept).resolve_left mandatory
  · intro free requirement member
    rw [carries member]
    by_cases full : wanted.NamesInFull requirement.package
    · rw [if_pos full, resolutionOf_eq_iff full]
      exact free.imp_right (· requirement.package full)
    · rw [if_neg full, resolutionOf_eq_optional full]

/-- The same import with its names in another order. -/
def withNames (wanted : Import) (names : List String) : Import :=
  { wanted with packages := names }

@[simp] theorem withNames_resolution (wanted : Import)
    (names : List String) :
    (wanted.withNames names).resolution = wanted.resolution :=
  rfl

section Reordered

variable {names : List String} (reordered : names.Perm wanted.packages)
include reordered

theorem withNames_namesInFull :
    (wanted.withNames names).NamesInFull package ↔
      wanted.NamesInFull package :=
  and_congr_left' reordered.mem_iff

theorem withNames_asksFor :
    (wanted.withNames names).AsksFor index package ↔
      wanted.AsksFor index package :=
  or_congr (withNames_namesInFull reordered)
    (and_congr_right' (exists_congr fun _ =>
      and_congr_left' reordered.mem_iff))

/-- Two orders ask alike for a package named in full when it is overtaken in both
or in neither. -/
theorem withNames_resolutionOf_iff (full : wanted.NamesInFull package) :
    (wanted.withNames names).resolutionOf index package =
        wanted.resolutionOf index package ↔
      wanted.resolution = .optional ∨
        ((wanted.withNames names).IsOvertaken index package ↔
          wanted.IsOvertaken index package) := by
  have full' := (withNames_namesInFull reordered).2 full
  unfold resolutionOf
  rw [withNames_resolution]
  by_cases ahead : wanted.IsOvertaken index package <;>
    by_cases ahead' : (wanted.withNames names).IsOvertaken index package <;>
    simp [full, full', ahead, ahead', eq_comm]

theorem withNames_outline_perm_iff :
    ((wanted.withNames names).outline index).Perm (wanted.outline index) ↔
      wanted.resolution = .optional ∨
        ∀ package, wanted.NamesInFull package →
          ((wanted.withNames names).IsOvertaken index package ↔
            wanted.IsOvertaken index package) := by
  rw [List.perm_ext_iff_of_nodup (nodup_outline ..) (nodup_outline ..)]
  constructor
  · intro same
    refine or_iff_not_imp_left.2 fun mandatory package full => ?_
    have listed := (same (package, _)).2 (mem_outline.2 ⟨.inl full, rfl⟩)
    exact ((withNames_resolutionOf_iff reordered full).1
      (mem_outline.1 listed).2.symm).resolve_left mandatory
  · intro alike
    rintro ⟨package, resolution⟩
    rw [mem_outline, mem_outline, withNames_asksFor reordered]
    have same : (wanted.withNames names).resolutionOf index package =
        wanted.resolutionOf index package := by
      by_cases full : wanted.NamesInFull package
      · exact (withNames_resolutionOf_iff reordered full).2
          (alike.imp_right (· package full))
      · rw [resolutionOf_eq_optional full, resolutionOf_eq_optional
          (mt (withNames_namesInFull reordered).1 full)]
    rw [same]

/-- A dynamic import asks once for each package that its names stand for.  A
package named in full is asked for under the conditions of the clause exactly if
no wildcard overtakes it, which depends on the order of the names. -/
theorem expand_by_first_name :
    ((wanted.expand index).map PackageImport.package).Nodup ∧
    (∀ package,
      package ∈ (wanted.expand index).map PackageImport.package ↔
        wanted.AsksFor index package) ∧
    (∀ requirement ∈ wanted.expand index,
      requirement.wanted =
        { wanted with
          resolution := wanted.resolutionOf index requirement.package }) ∧
    ((∀ requirement ∈ wanted.expand index,
        requirement.wanted.resolution =
          if wanted.NamesInFull requirement.package then wanted.resolution
          else .optional) ↔
      wanted.resolution = .optional ∨
        ∀ package, wanted.NamesInFull package →
          ¬wanted.IsOvertaken index package) ∧
    (((wanted.withNames names).outline index).Perm (wanted.outline index) ↔
      wanted.resolution = .optional ∨
        ∀ package, wanted.NamesInFull package →
          ((wanted.withNames names).IsOvertaken index package ↔
            wanted.IsOvertaken index package)) :=
  ⟨nodup_packages_expand wanted index, fun _ => mem_packages_expand,
    fun _ => wanted_eq_of_mem_expand, keeps_resolution_iff,
    withNames_outline_perm_iff reordered⟩

end Reordered

end Import

namespace Sample

/-- An index with one exporter of one package. -/
def soleIndex : PackageIndex :=
  PackageIndex.addPackage (id 1) .empty "p"

/-- Whatever there is, and a package in particular. -/
def anyAndOne : Import :=
  Import.of ["*", "p"]

end Sample

/-- The wildcard in front makes the package optional, and behind it it does
not. -/
theorem Import.wildcard_in_front_overtakes :
    Sample.anyAndOne.NamesInFull "p" ∧
    Sample.anyAndOne.IsOvertaken Sample.soleIndex "p" ∧
    Sample.anyAndOne.outline Sample.soleIndex = [("p", .optional)] ∧
    (Sample.anyAndOne.withNames ["p", "*"]).outline Sample.soleIndex =
      [("p", .mandatory)] ∧
    ¬(((Sample.anyAndOne.withNames ["p", "*"]).outline
        Sample.soleIndex).Perm (Sample.anyAndOne.outline Sample.soleIndex)) := by
  have reordered : ["p", "*"].Perm Sample.anyAndOne.packages := by decide
  refine ⟨by decide +kernel, by decide +kernel, by decide +kernel,
    by decide +kernel, ?_⟩
  rw [(Import.expand_by_first_name reordered).2.2.2.2]
  rintro (optional | alike)
  · exact absurd optional (by decide)
  · have overtaken := (alike "p" (by decide +kernel)).2 (by decide +kernel)
    exact absurd overtaken (by decide +kernel)

end ModuleWiring
