import ModuleWiring.Proofs.VersionGrammar

/-!
# Versions as they are written

A version is written as its three numbers and, where it has one, its qualifier.  Main
statement: reading gives the version back exactly if the qualifier is empty or a run
of qualifier characters, and so for every version that has ever been read.
-/

namespace ModuleWiring

namespace Version

variable {digits : List Char} {value : UInt64} {version other : Version}
  {text : String}

/-- The qualifier, which may be empty, has only ASCII letters, digits, underscores and
hyphens. -/
def IsPlain (version : Version) : Prop :=
  ∀ c ∈ version.qualifier.toList, ('A' ≤ c ∧ c ≤ 'Z') ∨ ('a' ≤ c ∧ c ≤ 'z') ∨
    ('0' ≤ c ∧ c ≤ '9') ∨ c = '_' ∨ c = '-'

instance (version : Version) : Decidable version.IsPlain :=
  List.decidableBAll _ _

theorem isPlain_iff :
    version.IsPlain ↔
      version.qualifier = "" ∨ IsQualifier version.qualifier.toList := by
  constructor
  · intro plain
    by_cases empty : version.qualifier = ""
    · exact .inl empty
    · exact .inr ⟨fun nothing => empty (String.toList_eq_nil_iff.1 nothing), plain⟩
  · rintro (empty | qualifier)
    · rw [IsPlain, empty]
      exact fun _ member => nomatch member
    · exact qualifier.plain

theorem numeral_number (value : UInt64) :
    Numeral (number value).toList value := by
  rw [number, Nat.toList_repr]
  refine ⟨Nat.toDigits_ne_nil, fun digit member => ?_,
    Nat.ofDigitChars_ten_toDigits⟩
  exact isDigit_iff.1
    (Nat.isDigit_of_mem_toDigits (by decide) (by decide) member)

theorem Numeral.unique {value' : UInt64} (numeral : Numeral digits value)
    (numeral' : Numeral digits value') : value = value' :=
  UInt64.toNat_inj.1 (numeral.value.symm.trans numeral'.value)

theorem isQualifier_number (value : UInt64) :
    IsQualifier (number value).toList :=
  (numeral_number value).isQualifier

/-- The three numbers of a version, with dots between them. -/
def numbers (version : Version) : List Char :=
  (number version.major).toList ++ '.' :: ((number version.minor).toList ++
    '.' :: (number version.micro).toList)

theorem toList_render (version : Version) :
    version.render.toList = version.numbers ++
      if version.qualifier = "" then [] else '.' :: version.qualifier.toList := by
  rw [render, numbers]
  split <;> simp

theorem forall_mem_numbers {Holds : Char → Prop} (dot : Holds '.')
    (runs : ∀ text, IsQualifier text → ∀ c ∈ text, Holds c) :
    ∀ c ∈ version.numbers, Holds c := by
  have each := fun value => runs _ (isQualifier_number value)
  exact List.forall_mem_append.2 ⟨each _, List.forall_mem_cons.2 ⟨dot,
    List.forall_mem_append.2 ⟨each _, List.forall_mem_cons.2 ⟨dot, each _⟩⟩⟩⟩

theorem IsPlain.forall_mem_render {Holds : Char → Prop}
    (plain : version.IsPlain) (dot : Holds '.')
    (runs : ∀ text, IsQualifier text → ∀ c ∈ text, Holds c) :
    ∀ c ∈ version.render.toList, Holds c := by
  rw [toList_render]
  refine List.forall_mem_append.2 ⟨forall_mem_numbers dot runs, ?_⟩
  obtain empty | qualifier := isPlain_iff.1 plain
  · rw [if_pos empty]
    exact fun _ member => nomatch member
  · split
    · exact fun _ member => nomatch member
    · exact List.forall_mem_cons.2 ⟨dot, runs _ qualifier⟩

theorem IsPlain.not_mem_render {c : Char} (plain : version.IsPlain)
    (noDot : c ≠ '.') (other : isQualifierChar c = false) :
    c ∉ version.render.toList := by
  have apart : ∀ d ∈ version.render.toList, c ≠ d := by
    refine plain.forall_mem_render noDot ?_
    rintro text qualifier d occurs rfl
    rw [isQualifierChar_iff.2 (qualifier.plain c occurs)] at other
    cases other
  exact fun member => apart c member rfl

theorem trim_render (version : Version) :
    Text.trim version.render.toList = version.numbers ++
      if version.qualifier = "" then []
      else '.' :: Text.trimEnd version.qualifier.toList := by
  have nonempty : version.numbers ≠ [] := by
    simp [numbers]
  rw [toList_render, Text.trim_append_of_bare nonempty
    (Text.isBare_of_forall (forall_mem_numbers (by decide)
      fun _ qualifier => qualifier.not_blank))]
  split
  · rfl
  · have dot : ∀ c ∈ ['.'].getLast?, Text.isBlank c = false := by
      rintro _ ⟨⟩
      rfl
    exact congrArg _ (Text.trimEnd_append_of_bare dot _)

/-- The parts that are found in a written version. -/
theorem splitOn_render (version : Version) :
    Text.splitOn '.' (Text.trim version.render.toList) =
      (number version.major).toList :: (number version.minor).toList ::
        (number version.micro).toList ::
          if version.qualifier = "" then []
          else Text.splitOn '.'
            (Text.trimEnd version.qualifier.toList) := by
  have free := fun value => (isQualifier_number value).ne_dot
  rw [trim_render, numbers]
  simp only [List.append_assoc, List.cons_append]
  rw [Text.splitOn_append_cons (free _), Text.splitOn_append_cons (free _)]
  split
  · rw [List.append_nil, Text.splitOn_eq_singleton_iff.2 ⟨free _, rfl⟩]
  · rw [Text.splitOn_append_cons (free _)]

theorem spells_numbers_iff {parts : List (List Char)} :
    Spells ((number version.major).toList :: (number version.minor).toList ::
        (number version.micro).toList :: parts) other ↔
      parts = [] ∧ other = { version with qualifier := "" } ∨
        ∃ qualifier, IsQualifier qualifier ∧ parts = [qualifier] ∧
          other = { version with qualifier := String.ofList qualifier } := by
  have numeral := numeral_number
  constructor
  · intro spells
    cases spells with
    | micro first second third =>
        cases first.unique (numeral _)
        cases second.unique (numeral _)
        cases third.unique (numeral _)
        exact .inl ⟨rfl, rfl⟩
    | qualified first second third fourth =>
        cases first.unique (numeral _)
        cases second.unique (numeral _)
        cases third.unique (numeral _)
        exact .inr ⟨_, fourth, rfl, rfl⟩
  · rintro (⟨rfl, rfl⟩ | ⟨qualifier, fourth, rfl, rfl⟩)
    · exact .micro (numeral _) (numeral _) (numeral _)
    · exact .qualified (numeral _) (numeral _) (numeral _) fourth

/-- The blanks at the end of a qualifier are lost; what is left must be a qualifier. -/
theorem parse_render_eq_ok_iff :
    parse version.render = .ok other ↔
      version.qualifier = "" ∧ other = version ∨
        IsQualifier (Text.trimEnd version.qualifier.toList) ∧
          other = { version with
            qualifier :=
              String.ofList (Text.trimEnd version.qualifier.toList) } := by
  rw [parse_eq_ok_iff, splitOn_render, spells_numbers_iff]
  split
  · rename_i empty
    have same : { version with qualifier := "" } = version := by
      rw [← empty]
    have nothing : ¬IsQualifier (Text.trimEnd version.qualifier.toList) := by
      rw [empty]
      exact fun qualifier => qualifier.nonempty rfl
    rw [same, and_iff_right rfl, and_iff_right empty,
      or_iff_left fun ⟨_, _, cut, _⟩ => List.cons_ne_nil _ _ cut.symm,
      or_iff_left fun found => nothing found.1]
  · rename_i named
    rw [or_iff_right fun none => Text.splitOn_ne_nil _ _ none.1,
      or_iff_right fun none => named none.1]
    constructor
    · rintro ⟨qualifier, plain, cut, rfl⟩
      rw [(Text.splitOn_eq_singleton_iff.1 cut).2]
      exact ⟨plain, rfl⟩
    · rintro ⟨plain, rfl⟩
      exact ⟨_, plain, Text.splitOn_eq_singleton_iff.2 ⟨plain.ne_dot, rfl⟩, rfl⟩

theorem parse_render_eq_ok_iff_isPlain :
    parse version.render = .ok version ↔ version.IsPlain := by
  rw [parse_render_eq_ok_iff, isPlain_iff, and_iff_left rfl]
  refine or_congr_right ⟨fun ⟨plain, same⟩ => ?_, fun plain => ?_⟩
  · have trimmed : version.qualifier.toList =
        Text.trimEnd version.qualifier.toList := by
      rw [← String.toList_ofList (l := Text.trimEnd _)]
      exact congrArg (fun version => version.qualifier.toList) same
    rwa [trimmed]
  · have trimmed : Text.trimEnd version.qualifier.toList =
        version.qualifier.toList :=
      Text.trimEnd_of_bare (Text.isBare_of_forall plain.not_blank).2
    rw [trimmed, String.ofList_toList]
    exact ⟨plain, rfl⟩

/-- Every version that a text spells is plain. -/
theorem Spells.isPlain {parts : List (List Char)} (spells : Spells parts version) :
    version.IsPlain := by
  rw [isPlain_iff]
  cases spells with
  | major | minor | micro => exact .inl rfl
  | qualified _ _ _ fourth =>
      refine .inr ?_
      rw [String.toList_ofList]
      exact fourth

/-- The plain versions are those that some text stands for. -/
theorem exists_parse_eq_ok_iff :
    (∃ text, parse text = .ok version) ↔ version.IsPlain := by
  constructor
  · rintro ⟨text, read⟩
    exact (parse_eq_ok_iff.1 read).isPlain
  · exact fun plain => ⟨_, parse_render_eq_ok_iff_isPlain.2 plain⟩

/-- A version is read back from its text exactly if it is plain, as every version is
that has been read.  The text of any other version is refused or stands for a different
one. -/
theorem read_back_iff_plain (version : Version) :
    (parse version.render = .ok version ↔ version.IsPlain) ∧
    (¬version.IsPlain →
      parse version.render = .error (.invalidVersion version.render) ∨
        ∃ other, other ≠ version ∧ parse version.render = .ok other) ∧
    ∀ text, parse text = .ok version → parse version.render = .ok version := by
  have kept : parse version.render = .ok version ↔ version.IsPlain :=
    parse_render_eq_ok_iff_isPlain
  refine ⟨kept, fun other => ?_, fun text read => ?_⟩
  · cases outcome : parse version.render with
    | error error =>
        rw [(parse_eq_error_iff.1 outcome).1]
        exact .inl rfl
    | ok found =>
        refine .inr ⟨found, ?_, rfl⟩
        rintro rfl
        exact other (kept.1 outcome)
  · exact kept.2 (exists_parse_eq_ok_iff.1 ⟨text, read⟩)

end Version

namespace Sample

/-- A version whose qualifier ends in a blank. -/
def trailing : Version :=
  ⟨1, 2, 3, "a "⟩

/-- A version whose qualifier has a dot. -/
def dotted : Version :=
  ⟨1, 2, 3, "a.b"⟩

/-- A version as it is read from a text. -/
def beta : Version :=
  ⟨1, 2, 3, "beta-1"⟩

end Sample

theorem Version.trailing_blank_lost :
    ¬Sample.trailing.IsPlain ∧
      (parse Sample.trailing.render =
          .error (.invalidVersion Sample.trailing.render) ∨
        ∃ other, other ≠ Sample.trailing ∧
          parse Sample.trailing.render = .ok other) ∧
      parse Sample.trailing.render = .ok ⟨1, 2, 3, "a"⟩ ∧
      parse Sample.dotted.render =
        .error (.invalidVersion Sample.dotted.render) ∧
      parse " 01.2.3.beta-1 " = .ok Sample.beta ∧
      parse Sample.beta.render = .ok Sample.beta := by
  have other : ¬Sample.trailing.IsPlain := by decide
  have read : parse " 01.2.3.beta-1 " = .ok Sample.beta := by decide +kernel
  exact ⟨other, (read_back_iff_plain Sample.trailing).2.1 other,
    by decide +kernel, by decide +kernel, read,
    (read_back_iff_plain Sample.beta).2.2 _ read⟩

end ModuleWiring
