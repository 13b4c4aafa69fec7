import ModuleWiring.Proofs.Blanks
import ModuleWiring.Version.Parser

/-!
# The grammar of version texts

A version is spelt by up to three runs of decimal digits and a qualifier, joined by
dots.  Main statement: reading accepts exactly the texts that spell a version between
blanks, and returns the version that they spell.
-/

namespace ModuleWiring

/-! ## Cutting at every separator -/

namespace Text

variable {separator : Char} {front back text : List Char}

theorem splitOn_eq (separator : Char) (text : List Char) :
    splitOn separator text = text.splitOn separator := by
  induction text with
  | nil => rfl
  | cons c rest inductionHypothesis =>
      rw [splitOn, List.splitOn_cons_eq_if_modifyHead, inductionHypothesis]
      simp only [beq_iff_eq]
      congr 1
      cases cut : rest.splitOn separator with
      | nil => exact (List.splitOn_ne_nil _ _ cut).elim
      | cons part parts => rfl

theorem intercalate_splitOn (separator : Char) (text : List Char) :
    [separator].intercalate (splitOn separator text) = text := by
  rw [splitOn_eq, List.intercalate_splitOn]

theorem splitOn_append_cons (free : separator ∉ front) (text : List Char) :
    splitOn separator (front ++ separator :: text) =
      front :: splitOn separator text := by
  rw [splitOn_eq, splitOn_eq, List.splitOn_append_cons_self_of_not_mem free]

/-- A text has one part if the separator does not occur in it. -/
theorem splitOn_eq_singleton_iff {part : List Char} :
    splitOn separator text = [part] ↔ separator ∉ text ∧ text = part := by
  constructor
  · intro cut
    have count := length_splitOn separator text
    rw [cut] at count
    refine ⟨List.count_eq_zero.1 (Nat.succ.inj count.symm), ?_⟩
    rw [← intercalate_splitOn separator text, cut, List.intercalate_singleton]
  · rintro ⟨free, rfl⟩
    rw [splitOn_eq, List.splitOn_eq_singleton free]

/-- A text has two parts if the separator occurs in it once. -/
theorem splitOn_eq_pair_iff :
    splitOn separator text = [front, back] ↔
      separator ∉ front ∧ separator ∉ back ∧
        text = front ++ separator :: back := by
  constructor
  · intro cut
    have joined : text = front ++ separator :: back := by
      rw [← intercalate_splitOn separator text, cut,
        List.intercalate_cons_cons, List.intercalate_singleton,
        List.append_assoc, List.singleton_append]
    have count := length_splitOn separator text
    rw [cut, joined, List.count_append, List.count_cons_self] at count
    simp only [List.length_cons, List.length_nil] at count
    exact ⟨List.count_eq_zero.1 (by omega), List.count_eq_zero.1 (by omega),
      joined⟩
  · rintro ⟨first, second, rfl⟩
    rw [splitOn_append_cons first, splitOn_eq_singleton_iff.2 ⟨second, rfl⟩]

end Text

namespace Version

/-! ## Numbers and qualifiers -/

/-- A run of decimal digits, and the number of 64 bits that it spells. -/
structure Numeral (digits : List Char) (value : UInt64) : Prop where
  nonempty : digits ≠ []
  decimal : ∀ digit ∈ digits, '0' ≤ digit ∧ digit ≤ '9'
  value : Nat.ofDigitChars 10 digits 0 = value.toNat

/-- A run of ASCII letters, digits, underscores and hyphens. -/
structure IsQualifier (text : List Char) : Prop where
  nonempty : text ≠ []
  plain : ∀ c ∈ text, ('A' ≤ c ∧ c ≤ 'Z') ∨ ('a' ≤ c ∧ c ≤ 'z') ∨
    ('0' ≤ c ∧ c ≤ '9') ∨ c = '_' ∨ c = '-'

variable {c : Char} {digits text : List Char} {value : UInt64}

theorem isDigit_iff : c.isDigit = true ↔ '0' ≤ c ∧ c ≤ '9' := by
  simp only [Char.isDigit, ge_iff_le, Bool.and_eq_true, decide_eq_true_eq,
    Char.le_def]

theorem isQualifierChar_iff :
    isQualifierChar c = true ↔
      ('A' ≤ c ∧ c ≤ 'Z') ∨ ('a' ≤ c ∧ c ≤ 'z') ∨ ('0' ≤ c ∧ c ≤ '9') ∨
        c = '_' ∨ c = '-' := by
  have upper : c.isUpper = true ↔ 'A' ≤ c ∧ c ≤ 'Z' := decide_eq_true_iff
  have lower : c.isLower = true ↔ 'a' ≤ c ∧ c ≤ 'z' :=
    Bool.and_eq_true_iff.trans <|
      and_congr decide_eq_true_iff decide_eq_true_iff
  change (c.isUpper || c.isLower || c.isDigit || decide (c = '_') ||
    decide (c = '-')) = true ↔ _
  simp only [Bool.or_eq_true, upper, lower, isDigit_iff, decide_eq_true_eq,
    or_assoc]

theorem number?_eq_some_iff :
    number? digits = some value ↔ Numeral digits value := by
  unfold number?
  split
  · rename_i run
    obtain ⟨nonempty, decimal⟩ := run
    rw [List.all_eq_true] at decimal
    dsimp only
    split
    · rename_i fits
      rw [Option.some.injEq, ← UInt64.toNat_inj, UInt64.toNat_ofNatLT]
      exact ⟨fun same =>
        ⟨nonempty, fun digit member => isDigit_iff.1 (decimal digit member),
          same⟩, Numeral.value⟩
    · rename_i large
      exact iff_of_false nofun fun numeral =>
        large (numeral.value ▸ value.toNat_lt)
  · rename_i other
    refine iff_of_false nofun fun numeral => other ⟨numeral.nonempty, ?_⟩
    exact List.all_eq_true.2 fun digit member =>
      isDigit_iff.2 (numeral.decimal digit member)

theorem qualifier?_eq_some_iff {qualifier : String} :
    qualifier? text = some qualifier ↔
      IsQualifier text ∧ String.ofList text = qualifier := by
  unfold qualifier?
  split
  · rename_i run
    obtain ⟨nonempty, plain⟩ := run
    rw [List.all_eq_true] at plain
    rw [Option.some.injEq]
    exact (and_iff_right
      ⟨nonempty, fun c member => isQualifierChar_iff.1 (plain c member)⟩).symm
  · rename_i other
    refine iff_of_false nofun fun ⟨qualifier, _⟩ =>
      other ⟨qualifier.nonempty, ?_⟩
    exact List.all_eq_true.2 fun c member =>
      isQualifierChar_iff.2 (qualifier.plain c member)

theorem Numeral.isQualifier (numeral : Numeral digits value) :
    IsQualifier digits :=
  ⟨numeral.nonempty, fun digit member =>
    .inr (.inr (.inl (numeral.decimal digit member)))⟩

theorem IsQualifier.ne_dot (qualifier : IsQualifier text) : '.' ∉ text :=
  fun member => absurd (qualifier.plain '.' member) (by decide)

theorem IsQualifier.not_blank (qualifier : IsQualifier text) :
    ∀ c ∈ text, Text.isBlank c = false := by
  intro c member
  have visible : 0x20 < c.toNat ∧ c.toNat < 0x7F := by
    rcases qualifier.plain c member with
      ⟨low, high⟩ | ⟨low, high⟩ | ⟨low, high⟩ | rfl | rfl
    on_goal 4 => decide
    on_goal 4 => decide
    all_goals exact ⟨Nat.lt_of_lt_of_le (by decide) low,
      Nat.lt_of_le_of_lt high (by decide)⟩
  exact Text.isBlank_eq_false visible.1 visible.2

/-! ## Parts of a version -/

/-- The version that a list of parts spells. -/
inductive Spells : List (List Char) → Version → Prop where
  | major {a : List Char} {x : UInt64} (first : Numeral a x) :
      Spells [a] ⟨x, 0, 0, ""⟩
  | minor {a b : List Char} {x y : UInt64} (first : Numeral a x)
      (second : Numeral b y) :
      Spells [a, b] ⟨x, y, 0, ""⟩
  | micro {a b c : List Char} {x y z : UInt64} (first : Numeral a x)
      (second : Numeral b y) (third : Numeral c z) :
      Spells [a, b, c] ⟨x, y, z, ""⟩
  | qualified {a b c d : List Char} {x y z : UInt64} (first : Numeral a x)
      (second : Numeral b y) (third : Numeral c z) (fourth : IsQualifier d) :
      Spells [a, b, c, d] ⟨x, y, z, String.ofList d⟩

variable {parts : List (List Char)} {version : Version}

theorem ofParts?_eq_some_iff :
    ofParts? parts = some version ↔ Spells parts version := by
  constructor
  · intro read
    unfold ofParts? at read
    split at read
    on_goal 5 => cases read
    all_goals
      simp only [bind, Option.bind_eq_some_iff, number?_eq_some_iff,
        qualifier?_eq_some_iff] at read
    · obtain ⟨x, first, same⟩ := read
      cases same
      exact .major first
    · obtain ⟨x, first, y, second, same⟩ := read
      cases same
      exact .minor first second
    · obtain ⟨x, first, y, second, z, third, same⟩ := read
      cases same
      exact .micro first second third
    · obtain ⟨x, first, y, second, z, third, q, ⟨fourth, rfl⟩, same⟩ := read
      cases same
      exact .qualified first second third fourth
  · intro spells
    cases spells with
    | major first =>
        simp [ofParts?, number?_eq_some_iff.2 first]
    | minor first second =>
        simp [ofParts?, number?_eq_some_iff.2 first,
          number?_eq_some_iff.2 second]
    | micro first second third =>
        simp [ofParts?, number?_eq_some_iff.2 first,
          number?_eq_some_iff.2 second, number?_eq_some_iff.2 third]
    | qualified first second third fourth =>
        simp [ofParts?, number?_eq_some_iff.2 first,
          number?_eq_some_iff.2 second, number?_eq_some_iff.2 third,
          qualifier?_eq_some_iff.2 ⟨fourth, rfl⟩]

/-- The numbers stand first, a qualifier behind three of them. -/
theorem Spells.arrangement (spells : Spells parts version) :
    parts.length ≤ 4 ∧ (∀ part ∈ parts.take 3, ∃ value, Numeral part value) ∧
      ∀ part ∈ parts.drop 3, IsQualifier part := by
  cases spells with
  | major first =>
      simpa using ⟨_, first⟩
  | minor first second =>
      simpa using ⟨⟨_, first⟩, ⟨_, second⟩⟩
  | micro first second third =>
      simpa using ⟨⟨_, first⟩, ⟨_, second⟩, ⟨_, third⟩⟩
  | qualified first second third fourth =>
      simpa using ⟨⟨⟨_, first⟩, ⟨_, second⟩, ⟨_, third⟩⟩, fourth⟩

/-- Every part is a run of the characters that a qualifier has. -/
theorem Spells.isQualifier (spells : Spells parts version) :
    ∀ part ∈ parts, IsQualifier part := by
  intro part member
  obtain ⟨-, numbers, qualifier⟩ := spells.arrangement
  rw [← List.take_append_drop 3 parts, List.mem_append] at member
  rcases member with number | last
  · obtain ⟨value, numeral⟩ := numbers part number
    exact numeral.isQualifier
  · exact qualifier part last

theorem Spells.ne_nil (spells : Spells parts version) : parts ≠ [] := by
  rintro rfl
  cases spells

theorem splitOn_joined (some : parts ≠ [])
    (runs : ∀ part ∈ parts, '.' ∉ part) :
    Text.splitOn '.' (['.'].intercalate parts) = parts := by
  rw [Text.splitOn_eq]
  exact List.splitOn_intercalate '.' runs some

/-- A text is read by its parts. -/
theorem parse_eq_ok_iff {text : String} :
    parse text = .ok version ↔
      Spells (Text.splitOn '.' (Text.trim text.toList)) version := by
  rw [← ofParts?_eq_some_iff, parse]
  split
  · rename_i found read
    rw [read, Except.ok.injEq, Option.some.injEq]
  · rename_i missing
    rw [missing]
    exact iff_of_false nofun nofun

theorem parse_eq_error_iff {text : String} {error : VersionError} :
    parse text = .error error ↔
      error = .invalidVersion text ∧
        ¬∃ version, parse text = .ok version := by
  unfold parse
  split
  · simp
  · simp [eq_comm]

/-- A text that spells a version, with blanks around it. -/
def IsSpelledBy (version : Version) (text : List Char) : Prop :=
  ∃ parts, Spells parts version ∧
    Text.IsPadded (['.'].intercalate parts) text

theorem parse_eq_ok_iff_isSpelledBy {text : String} :
    parse text = .ok version ↔ version.IsSpelledBy text.toList := by
  rw [parse_eq_ok_iff]
  constructor
  · intro spells
    refine ⟨_, spells, ?_⟩
    rw [Text.intercalate_splitOn]
    exact Text.isPadded_trim _
  · rintro ⟨parts, spells, padded⟩
    have runs := spells.isQualifier
    have bare : Text.IsBare (['.'].intercalate parts) :=
      Text.isBare_of_forall <| Text.forall_mem_intercalate (by decide)
        fun part member => (runs part member).not_blank
    rw [Text.trim_of_padded padded bare,
      splitOn_joined spells.ne_nil fun part member => (runs part member).ne_dot]
    exact spells

/-! ## Reading through a pattern -/

/-- What the groups of the pattern
`^(\d+)(?:\.(\d+)(?:\.(\d+)(?:\.([A-Za-z0-9_-]+))?)?)?$` hold after a match.  The
digits of a pattern may be more than those of ASCII. -/
structure Matches (isDecimal : Char → Bool) (groups : List (List Char))
    (text : List Char) : Prop where
  joined : text = ['.'].intercalate groups
  nonempty : groups ≠ []
  few : groups.length ≤ 4
  numbers : ∀ group ∈ groups.take 3, group ≠ [] ∧ group.all isDecimal = true
  qualifier : ∀ group ∈ groups.drop 3, IsQualifier group

section Patterns

variable {isDecimal : Char → Bool} {groups : List (List Char)}

theorem Spells.matches (ascii : ∀ c, c.isDigit = true → isDecimal c = true)
    (spells : Spells parts version) :
    Matches isDecimal parts (['.'].intercalate parts) := by
  obtain ⟨few, numbers, qualifier⟩ := spells.arrangement
  refine ⟨rfl, spells.ne_nil, few, fun part member => ?_, qualifier⟩
  obtain ⟨value, numeral⟩ := numbers part member
  refine ⟨numeral.nonempty, List.all_eq_true.2 fun digit occurs => ?_⟩
  exact ascii digit (isDigit_iff.2 (numeral.decimal digit occurs))

theorem Matches.ne_dot (noDot : isDecimal '.' = false)
    (found : Matches isDecimal groups text) :
    ∀ group ∈ groups, '.' ∉ group := by
  intro group member
  rw [← List.take_append_drop 3 groups, List.mem_append] at member
  rcases member with number | qualifier
  · intro dot
    have decimal := List.all_eq_true.1 (found.numbers group number).2 '.' dot
    rw [noDot] at decimal
    cases decimal
  · exact (found.qualifier group qualifier).ne_dot

/-- The groups are read as numbers afterwards. -/
theorem parse_eq_ok_iff_matches {text : String}
    (ascii : ∀ c, c.isDigit = true → isDecimal c = true)
    (noDot : isDecimal '.' = false) :
    parse text = .ok version ↔
      ∃ groups, Matches isDecimal groups (Text.trim text.toList) ∧
        ofParts? groups = some version := by
  rw [parse_eq_ok_iff]
  constructor
  · intro spells
    have found := spells.matches ascii
    rw [Text.intercalate_splitOn] at found
    exact ⟨_, found, ofParts?_eq_some_iff.2 spells⟩
  · rintro ⟨groups, found, read⟩
    rw [found.joined, splitOn_joined found.nonempty (found.ne_dot noDot)]
    exact ofParts?_eq_some_iff.1 read

end Patterns

/-- Exactly the texts of the grammar are read, as the version that they spell, and
all others are reported as they were given.  It is the same to match the pattern
first, with whatever digits beyond those of ASCII, and then to read its groups. -/
theorem parse_accepts_spelled (text : String) :
    (∀ version, parse text = .ok version ↔
      IsSpelledBy version text.toList) ∧
    (∀ error, parse text = .error error ↔
      error = .invalidVersion text ∧
        ¬∃ version, IsSpelledBy version text.toList) ∧
    ∀ isDecimal : Char → Bool, (∀ c, c.isDigit = true → isDecimal c = true) →
      isDecimal '.' = false →
        ∀ version, parse text = .ok version ↔
          ∃ groups, Matches isDecimal groups (Text.trim text.toList) ∧
            ofParts? groups = some version := by
  refine ⟨fun version => parse_eq_ok_iff_isSpelledBy, fun error => ?_,
    fun isDecimal ascii noDot version => parse_eq_ok_iff_matches ascii noDot⟩
  rw [parse_eq_error_iff]
  simp only [parse_eq_ok_iff_isSpelledBy]

end Version

namespace Sample

/-- The digits of ASCII and the Arabic-Indic three. -/
def isDecimal (c : Char) : Bool :=
  c.isDigit || c = Char.ofNat 0x663

/-- A text that the pattern matches and that spells no version. -/
def foreignVersion : String :=
  String.ofList ['1', '.', Char.ofNat 0x663]

end Sample

theorem Version.foreign_digit_refused :
    (∀ c, c.isDigit = true → Sample.isDecimal c = true) ∧
      Sample.isDecimal '.' = false ∧
      (∃ groups, Matches Sample.isDecimal groups (Text.trim " 01.2 ".toList) ∧
        ofParts? groups = some ⟨1, 2, 0, ""⟩) ∧
      Matches Sample.isDecimal [['1'], [Char.ofNat 0x663]]
        (Text.trim Sample.foreignVersion.toList) ∧
      ¬∃ version groups,
        Matches Sample.isDecimal groups
            (Text.trim Sample.foreignVersion.toList) ∧
          ofParts? groups = some version := by
  have ascii : ∀ c, c.isDigit = true → Sample.isDecimal c = true := by
    intro c digit
    rw [Sample.isDecimal, digit, Bool.true_or]
  have noDot : Sample.isDecimal '.' = false := by decide
  have groups :=
    ((parse_accepts_spelled " 01.2 ").2.2 Sample.isDecimal ascii noDot
      ⟨1, 2, 0, ""⟩).1 (by decide +kernel)
  refine ⟨ascii, noDot, groups, ⟨by decide +kernel, by decide, by decide,
    by decide +kernel, nofun⟩, fun ⟨version, found⟩ => ?_⟩
  have accepted :=
    ((parse_accepts_spelled Sample.foreignVersion).2.2 Sample.isDecimal ascii
      noDot version).2 found
  have refused : parse Sample.foreignVersion =
      .error (.invalidVersion Sample.foreignVersion) := by
    decide +kernel
  rw [accepted] at refused
  cases refused

end ModuleWiring
