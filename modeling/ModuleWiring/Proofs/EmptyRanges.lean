import Mathlib.Order.Bounds.Defs
import ModuleWiring.Proofs.VersionOrder
import ModuleWiring.Proofs.WrittenRanges

/-!
# Empty ranges

A range counts as empty if its bounds are equal and do not both belong to it.  The
order of versions is not dense, though: nothing lies between a version and the same
version with a least character behind its qualifier.  Main statement: what counts as
empty includes no version, and nothing else does so but the gap between two such
neighbours, whatever characters the qualifiers may have.
-/

namespace ModuleWiring

namespace Version

variable {version : Version}

/-- All characters of the qualifier are allowed ones. -/
def IsOver (allowed : Char → Prop) (version : Version) : Prop :=
  ∀ c ∈ version.qualifier.toList, allowed c

theorem isOver_true (version : Version) : version.IsOver fun _ => True :=
  fun _ _ => trivial

/-- What can be read is over the characters of qualifiers. -/
theorem exists_parse_eq_ok_iff_isOver :
    (∃ text, parse text = .ok version) ↔
      version.IsOver fun c => isQualifierChar c = true :=
  exists_parse_eq_ok_iff.trans <|
    forall₂_congr fun _ _ => isQualifierChar_iff.symm

theorem IsOver.extend {allowed : Char → Prop} {c : Char}
    (within : version.IsOver allowed) (member : allowed c) :
    (version.extend c).IsOver allowed := by
  rw [IsOver, toList_qualifier_extend]
  exact List.forall_mem_append.2 ⟨within, List.forall_mem_singleton.2 member⟩

theorem isLeast_nul : IsLeast {_c : Char | True} '\x00' :=
  ⟨trivial, fun _ _ => Char.le_def.2 UInt32.zero_le⟩

theorem isLeast_hyphen : IsLeast {c | isQualifierChar c = true} '-' := by
  refine ⟨rfl, fun c member => ?_⟩
  obtain ⟨low, -⟩ | ⟨low, -⟩ | ⟨low, -⟩ | rfl | rfl :=
    isQualifierChar_iff.1 member
  on_goal 4 => decide
  on_goal 4 => decide
  all_goals exact Std.le_trans (by decide) low

end Version

namespace VersionRange

variable {range : VersionRange} {version low high : Version}
  {lowInclusive highInclusive : Bool} {allowed : Char → Prop} {c : Char}

theorem includes_eq_true_iff :
    range.includes version = true ↔
      (range.low < version ∨ version = range.low ∧ range.lowInclusive = true) ∧
        ∀ high ∈ range.high,
          version < high ∨ version = high ∧ range.highInclusive = true := by
  unfold includes
  cases range.high <;> simp

theorem isEmpty_eq_true_iff :
    range.isEmpty = true ↔ range.high = some range.low ∧
      (range.lowInclusive = true → range.highInclusive = false) := by
  unfold isEmpty
  cases range.high with
  | none => simp
  | some high =>
      simp only [Bool.and_eq_true, decide_eq_true_eq, Bool.not_eq_true',
        Bool.and_eq_false_imp, Option.some.injEq, eq_comm (a := high)]

/-- What lies between a version and the same version with one more character, without
both. -/
structure IsGap (c : Char) (range : VersionRange) : Prop where
  low : range.lowInclusive = false
  high : range.highInclusive = false
  neighbours : range.high = some (range.low.extend c)

theorem IsGap.not_isEmpty (gap : range.IsGap c) :
    ¬range.isEmpty = true := by
  rw [isEmpty_eq_true_iff, gap.neighbours]
  rintro ⟨same, -⟩
  have later := range.low.lt_extend c
  rw [Option.some.inj same] at later
  exact Std.lt_irrefl later

theorem isEmpty_iff_or_isGap :
    (range.isEmpty = true ↔ range.isEmpty = true ∨ range.IsGap c) ↔
      ¬range.IsGap c :=
  iff_self_or.trans <|
    imp_congr_right fun gap => iff_false_intro gap.not_isEmpty

theorem includes_eq_false_of_isEmpty (empty : range.isEmpty = true) :
    range.includes version = false := by
  obtain ⟨same, outside⟩ := isEmpty_eq_true_iff.1 empty
  refine Bool.eq_false_iff.2 fun included => ?_
  obtain ⟨above, below⟩ := includes_eq_true_iff.1 included
  obtain later | ⟨rfl, low⟩ := above
  · obtain earlier | ⟨rfl, -⟩ := below _ same
    · exact Std.lt_irrefl (Std.lt_trans later earlier)
    · exact Std.lt_irrefl later
  · obtain earlier | ⟨-, high⟩ := below _ same
    · exact Std.lt_irrefl earlier
    · rw [outside low] at high
      cases high

theorem IsGap.includes_eq_false (gap : range.IsGap c)
    (least : ∀ d ∈ version.qualifier.toList, c ≤ d) :
    range.includes version = false := by
  refine Bool.eq_false_iff.2 fun included => ?_
  obtain ⟨above, below⟩ := includes_eq_true_iff.1 included
  rw [gap.low] at above
  have bounded := below _ gap.neighbours
  rw [gap.high] at bounded
  simp only [Bool.false_eq_true, and_false, or_false] at above bounded
  obtain rfl | beyond := Version.eq_extend_or_lt least above
  · exact Std.lt_irrefl bounded
  · exact Std.lt_irrefl (Std.lt_trans bounded beyond)

/-- Between two bounds lie the first one, the second one or the next version after the
first one, unless these are left out or there is no such version. -/
theorem isEmpty_or_isGap_of_bounded (least : IsLeast {c | allowed c} c)
    (ordered : low ≤ high) (first : low.IsOver allowed)
    (second : high.IsOver allowed)
    (nothing : ∀ version : Version, version.IsOver allowed →
      includes ⟨low, some high, lowInclusive, highInclusive⟩ version = false) :
    isEmpty ⟨low, some high, lowInclusive, highInclusive⟩ = true ∨
      IsGap c ⟨low, some high, lowInclusive, highInclusive⟩ := by
  have excluded : ∀ version : Version, version.IsOver allowed →
      low < version ∨ version = low ∧ lowInclusive = true →
        ¬(version < high ∨ version = high ∧ highInclusive = true) := by
    intro version within above below
    refine Bool.eq_false_iff.1 (nothing version within)
      (includes_eq_true_iff.2 ⟨above, ?_⟩)
    rintro _ ⟨⟩
    exact below
  obtain lt | rfl := Std.le_iff_lt_or_eq.1 ordered
  · refine .inr ⟨Bool.eq_false_iff.2 fun inclusive => ?_,
      Bool.eq_false_iff.2 fun inclusive => ?_, ?_⟩
    · exact excluded low first (.inr ⟨rfl, inclusive⟩) (.inl lt)
    · exact excluded high second (.inl lt) (.inr ⟨rfl, inclusive⟩)
    · obtain same | beyond := Version.eq_extend_or_lt
        (fun d member => least.2 (second d member)) lt
      · exact congrArg some same
      · exact absurd (.inl beyond) (excluded _ (first.extend least.1)
          (.inl (low.lt_extend c)))
  · refine .inl (isEmpty_eq_true_iff.2 ⟨rfl, fun inclusive =>
      Bool.eq_false_iff.2 fun inclusive' => ?_⟩)
    exact excluded low first (.inr ⟨rfl, inclusive⟩) (.inr ⟨rfl, inclusive'⟩)

/-- Over an alphabet with a least character the ranges without a version are the empty
ones and the gaps of that character. -/
theorem includes_nothing_iff (least : IsLeast {c | allowed c} c)
    (made : range.IsMade) (first : range.low.IsOver allowed)
    (second : ∀ high ∈ range.high, high.IsOver allowed) :
    (∀ version : Version, version.IsOver allowed →
        range.includes version = false) ↔
      range.isEmpty = true ∨ range.IsGap c := by
  constructor
  · intro nothing
    obtain ⟨low, upper, lowInclusive, highInclusive⟩ := range
    cases upper with
    | none =>
        have included : includes ⟨low, none, lowInclusive, highInclusive⟩
            (low.extend c) = true :=
          includes_eq_true_iff.2 ⟨.inl (low.lt_extend c), nofun⟩
        rw [nothing _ (first.extend least.1)] at included
        cases included
    | some high =>
        exact isEmpty_or_isGap_of_bounded least (isMade_iff.1 made high rfl)
          first (second high rfl) nothing
  · rintro (empty | gap) version within
    · exact includes_eq_false_of_isEmpty empty
    · exact gap.includes_eq_false fun d member => least.2 (within d member)

/-- What counts as empty is exactly what includes no version, but for a gap between
neighbours.  Among all versions the next one after a version has a NUL character behind
its qualifier, among those that are read from texts a hyphen.  So if the bounds have
been read, what counts as empty is exactly what includes none of all versions, whereas
the gap of a hyphen includes none that could be read and does not count as empty. -/
theorem isEmpty_exact_unless_gap (range : VersionRange) (made : range.IsMade) :
    ((range.isEmpty = true ↔ ∀ version, range.includes version = false) ↔
      ¬range.IsGap '\x00') ∧
    ((∃ text, Version.parse text = .ok range.low) →
      (∀ high ∈ range.high, ∃ text, Version.parse text = .ok high) →
        (range.isEmpty = true ↔
          ∀ version, range.includes version = false) ∧
        ((range.isEmpty = true ↔
            ∀ version, (∃ text, Version.parse text = .ok version) →
              range.includes version = false) ↔
          ¬range.IsGap '-')) := by
  have all : (∀ version, range.includes version = false) ↔
      range.isEmpty = true ∨ range.IsGap '\x00' := by
    have exact := includes_nothing_iff Version.isLeast_nul made
      (Version.isOver_true _) fun _ _ => Version.isOver_true _
    simpa only [Version.isOver_true, forall_const] using exact
  rw [all]
  refine ⟨isEmpty_iff_or_isGap, fun first second => ⟨?_, ?_⟩⟩
  · rw [isEmpty_iff_or_isGap]
    intro gap
    have plain := Version.exists_parse_eq_ok_iff_isOver.1
      (second _ gap.neighbours)
    rw [Version.IsOver, Version.toList_qualifier_extend] at plain
    exact absurd (plain '\x00' List.mem_concat_self) (by decide)
  · simp only [Version.exists_parse_eq_ok_iff_isOver] at first second ⊢
    rw [includes_nothing_iff Version.isLeast_hyphen made first second]
    exact isEmpty_iff_or_isGap

end VersionRange

namespace Sample

/-- A range between a version and the next one of all. -/
def seam : VersionRange :=
  ⟨⟨1, 0, 0, ""⟩, some (Version.extend ⟨1, 0, 0, ""⟩ '\x00'), false, false⟩

/-- A range between a version and the next one that can be read. -/
def hyphenSeam : VersionRange :=
  ⟨⟨1, 0, 0, ""⟩, some ⟨1, 0, 0, "-"⟩, false, false⟩

end Sample

theorem VersionRange.seam_not_isEmpty :
    between ⟨1, 0, 0, ""⟩ false (some (Version.extend ⟨1, 0, 0, ""⟩ '\x00'))
        false = .ok Sample.seam ∧
      Sample.seam.isEmpty = false ∧
      (∀ version, Sample.seam.includes version = false) ∧
      parse "(1.0,1.0.0.-)" = .ok Sample.hyphenSeam ∧
      Sample.hyphenSeam.isEmpty = false ∧
      (∃ version, Sample.hyphenSeam.includes version = true) ∧
      ∀ version, (∃ text, Version.parse text = .ok version) →
        Sample.hyphenSeam.includes version = false := by
  have made : between ⟨1, 0, 0, ""⟩ false
      (some (Version.extend ⟨1, 0, 0, ""⟩ '\x00')) false =
        .ok Sample.seam := by
    decide
  have read : parse "(1.0,1.0.0.-)" = .ok Sample.hyphenSeam := by
    decide +kernel
  have seam : ¬Sample.seam.isEmpty = true := by decide
  have hyphenSeam : ¬Sample.hyphenSeam.isEmpty = true := by decide
  have exact := (isEmpty_exact_unless_gap Sample.seam (.between made)).1
  obtain ⟨-, readable⟩ :=
    (isEmpty_exact_unless_gap Sample.hyphenSeam (.parsed read)).2
      ⟨"1.0", by decide +kernel⟩
      (by rintro _ ⟨⟩; exact ⟨"1.0.0.-", by decide +kernel⟩)
  refine ⟨made, Bool.eq_false_iff.2 seam, ?_, read,
    Bool.eq_false_iff.2 hyphenSeam, ⟨⟨1, 0, 0, "!"⟩, by decide⟩, ?_⟩
  · by_contra other
    exact exact.1 (iff_of_false seam other) ⟨rfl, rfl, rfl⟩
  · by_contra other
    exact readable.1 (iff_of_false hyphenSeam other) ⟨rfl, rfl, rfl⟩

end ModuleWiring
