import ModuleWiring.Proofs.Failing
import ModuleWiring.Proofs.VersionGrammar
import ModuleWiring.Proofs.VersionOrder
import ModuleWiring.VersionRange.Parser

/-!
# The grammar of range texts

A range is spelt by a version, or by two versions with a comma between them and a
bracket on either side.  Main statement: reading accepts exactly the texts that spell
a range between blanks, reports bounds in the wrong order as such, and always cuts a
text between two characters.
-/

namespace ModuleWiring

/-! ## Byte offsets -/

namespace Text

/-- The stretch of a text from one byte offset to another; `none` if an offset lies
inside a character or behind the end, or if they stand in the wrong order. -/
def slice? (text : String) (start stop : Nat) : Option String := do
  let first ← text.pos? ⟨start⟩
  let last ← text.pos? ⟨stop⟩
  if first ≤ last then some (text.extract first last) else none

theorem pos?_eq_some {text : String} {offset : String.Pos.Raw}
    (valid : offset.IsValid text) :
    text.pos? offset = some (text.pos offset valid) := by
  have inside : offset.isValidForSlice text.toSlice = true :=
    String.Pos.Raw.isValidForSlice_eq_true_iff.2 valid.toSlice
  rw [String.pos?, String.Slice.pos?, dif_pos inside]
  rfl

theorem slice?_append (front middle back : String) :
    slice? (front ++ middle ++ back) front.utf8ByteSize
      (front ++ middle).utf8ByteSize = some middle := by
  have first : (⟨front.utf8ByteSize⟩ : String.Pos.Raw).IsValid
      (front ++ middle ++ back) :=
    String.Pos.Raw.isValid_iff_exists_append.2
      ⟨front, middle ++ back, String.append_assoc, rfl⟩
  have last : (⟨(front ++ middle).utf8ByteSize⟩ : String.Pos.Raw).IsValid
      (front ++ middle ++ back) :=
    String.Pos.Raw.isValid_iff_exists_append.2
      ⟨front ++ middle, back, rfl, rfl⟩
  have ordered : (front ++ middle ++ back).pos _ first ≤
      (front ++ middle ++ back).pos _ last := by
    simp [String.Pos.le_iff, String.Pos.Raw.le_iff]
  rw [slice?, pos?_eq_some first, pos?_eq_some last]
  simp only [Option.bind_eq_bind, Option.bind_some, if_pos ordered]
  rw [Option.some.injEq, ← String.toByteArray_inj, String.toByteArray_extract,
    String.offset_pos, String.offset_pos, String.toByteArray_append,
    ← String.size_toByteArray, ← String.size_toByteArray,
    ByteArray.extract_append_size_left, String.toByteArray_append,
    ByteArray.extract_append_eq_right rfl ByteArray.size_append]

/-- A cut inside a character of two bytes. -/
example : slice? "é" 0 1 = none := by decide +kernel

end Text

theorem Version.parse_ne_inverted {text other : String} :
    Version.parse text ≠ .error (.invertedRange other) :=
  fun failed => nomatch (Version.parse_eq_error_iff.1 failed).1

namespace VersionRange

/-! ## Brackets -/

def opening (inclusive : Bool) : Char :=
  if inclusive then '[' else '('

def closing (inclusive : Bool) : Char :=
  if inclusive then ']' else ')'

variable {c first : Char} {inclusive lowInclusive highInclusive : Bool}
  {body lower upper rest : List Char} {low high : Version}
  {text other : String} {range : VersionRange}

theorem opening?_eq_some_iff :
    opening? c = some inclusive ↔ c = opening inclusive := by
  unfold opening? opening
  split <;> cases inclusive <;> simp_all

theorem opening?_eq_none_iff : opening? c = none ↔ c ≠ '(' ∧ c ≠ '[' := by
  unfold opening?
  split <;> simp_all

theorem closing?_eq_some_iff :
    closing? c = some inclusive ↔ c = closing inclusive := by
  unfold closing? closing
  split <;> cases inclusive <;> simp_all

theorem closed?_concat (start : List Char) (last : Char) :
    closed? (start ++ [last]) =
      (closing? last).map fun inclusive => (start, inclusive) := by
  rw [closed?, List.getLast?_concat, List.dropLast_concat]

theorem closed?_eq_some_iff :
    closed? rest = some (body, inclusive) ↔
      rest = body ++ [closing inclusive] := by
  obtain rfl | ⟨start, last, rfl⟩ := List.eq_nil_or_concat rest
  · simp [closed?]
  · rw [List.concat_eq_append, closed?_concat, Option.map_eq_some_iff,
      ← List.concat_eq_append, ← List.concat_eq_append, List.concat_inj]
    constructor
    · rintro ⟨_, closes, ⟨⟩⟩
      exact ⟨rfl, closing?_eq_some_iff.1 closes⟩
    · rintro ⟨rfl, rfl⟩
      exact ⟨_, closing?_eq_some_iff.2 rfl, rfl⟩

theorem opening?_opening (inclusive : Bool) :
    opening? (opening inclusive) = some inclusive :=
  opening?_eq_some_iff.2 rfl

theorem closed?_closing (body : List Char) (inclusive : Bool) :
    closed? (body ++ [closing inclusive]) = some (body, inclusive) :=
  closed?_eq_some_iff.2 rfl

/-- How a text starts and ends. -/
inductive Shape : List Char → Prop where
  | empty : Shape []
  | bare {first : Char} {rest : List Char} (other : opening? first = none) :
      Shape (first :: rest)
  | unclosed {lowInclusive : Bool} {rest : List Char}
      (other : closed? rest = none) :
      Shape (opening lowInclusive :: rest)
  | enclosed {lowInclusive highInclusive : Bool} {body : List Char} :
      Shape (opening lowInclusive :: (body ++ [closing highInclusive]))

theorem shape (text : List Char) : Shape text := by
  cases text with
  | nil => exact .empty
  | cons first rest =>
      cases opens : opening? first with
      | none => exact .bare opens
      | some lowInclusive =>
          rw [opening?_eq_some_iff.1 opens]
          cases closes : closed? rest with
          | none => exact .unclosed closes
          | some found =>
              rw [closed?_eq_some_iff.1 closes]
              exact .enclosed

/-! ## The two ways to write a range -/

/-- Read a version as the lower bound of a range without an end. -/
def ofBare (text : String) : Except VersionError VersionRange := do
  return atLeast (← Version.parse text)

/-- Read the two bounds of a range; the text is the one to report. -/
def ofBounds (text : String) (lowInclusive highInclusive : Bool)
    (bounds : String × String) : Except VersionError VersionRange := do
  let low ← Version.parse bounds.1
  let high ← Version.parse bounds.2
  if high < low then
    .error (.invertedRange text)
  else
    .ok ⟨low, some high, lowInclusive, highInclusive⟩

/-- Read what stands between the brackets of a range. -/
def ofBody (text : String) (lowInclusive highInclusive : Bool)
    (body : List Char) : Except VersionError VersionRange :=
  match bounds? body with
  | .error fault => .error (.invalidRange text fault)
  | .ok bounds => ofBounds text lowInclusive highInclusive bounds

theorem bounds?_eq_ok_iff {bounds : String × String} :
    bounds? body = .ok bounds ↔
      ',' ∉ bounds.1.toList ∧ ',' ∉ bounds.2.toList ∧
        body = bounds.1.toList ++ ',' :: bounds.2.toList := by
  rw [← Text.splitOn_eq_pair_iff]
  unfold bounds?
  split
  · rename_i cut
    rw [cut]
    simp [Prod.ext_iff, ← String.toList_inj]
  · rename_i cut
    simp [cut]
  · rename_i other _
    exact iff_of_false nofun (other _ _)

theorem ofBare_eq_ok_iff :
    ofBare text = .ok range ↔
      ∃ low, Version.parse text = .ok low ∧ range = atLeast low := by
  simp only [ofBare, bind_eq_ok_iff, pure, Except.pure, Except.ok.injEq,
    eq_comm (a := range)]

theorem ofBare_ne_inverted : ofBare text ≠ .error (.invertedRange other) := by
  rw [Ne, ofBare, bind_eq_error_iff,
    or_iff_right Version.parse_ne_inverted]
  rintro ⟨_, -, failed⟩
  cases failed

/-- The bounds of a range are compared before it is returned. -/
theorem compared_eq_ok_iff {error : VersionError} {found : VersionRange} :
    (if high < low then .error error else .ok found : Except _ _) =
        .ok range ↔
      low ≤ high ∧ range = found := by
  split
  · rename_i inverted
    exact iff_of_false nofun fun ordered => Std.not_lt.2 ordered.1 inverted
  · rename_i ordered
    rw [Except.ok.injEq, and_iff_right (Std.not_lt.1 ordered), eq_comm]

theorem ofBounds_eq_ok_iff {bounds : String × String} :
    ofBounds text lowInclusive highInclusive bounds = .ok range ↔
      ∃ low high, Version.parse bounds.1 = .ok low ∧
        Version.parse bounds.2 = .ok high ∧ low ≤ high ∧
          range = ⟨low, some high, lowInclusive, highInclusive⟩ := by
  simp only [ofBounds, bind_eq_ok_iff, compared_eq_ok_iff,
    ← exists_and_left]

theorem ofBounds_eq_inverted_iff {bounds : String × String} :
    ofBounds text lowInclusive highInclusive bounds =
        .error (.invertedRange other) ↔
      other = text ∧ ∃ low high, Version.parse bounds.1 = .ok low ∧
        Version.parse bounds.2 = .ok high ∧ high < low := by
  simp only [ofBounds, bind_eq_error_iff, or_iff_right Version.parse_ne_inverted,
    ← exists_and_left]
  refine exists_congr fun low => exists_congr fun high => ?_
  split
  · rename_i inverted
    simp [inverted, eq_comm, and_left_comm, and_comm]
  · rename_i ordered
    simp [ordered]

/-! ## Reading -/

theorem parse_of_empty (whole : Text.trim text.toList = []) :
    parse text = .error (.invalidRange text .empty) := by
  rw [parse, whole]
  rfl

theorem parse_of_bare (whole : Text.trim text.toList = first :: rest)
    (other : opening? first = none) :
    parse text = ofBare (Text.trimmed text) := by
  rw [parse, whole]
  dsimp only
  rw [other]
  rfl

theorem parse_of_unclosed
    (whole : Text.trim text.toList = opening lowInclusive :: rest)
    (other : closed? rest = none) :
    parse text = .error (.invalidRange text .noClosingBracket) := by
  rw [parse, whole]
  dsimp only
  rw [opening?_opening]
  dsimp only
  rw [other]
  rfl

theorem parse_of_enclosed
    (whole : Text.trim text.toList =
      opening lowInclusive :: (body ++ [closing highInclusive])) :
    parse text = ofBody text lowInclusive highInclusive body := by
  rw [parse, whole]
  dsimp only
  rw [opening?_opening]
  dsimp only
  rw [closed?_closing]
  dsimp only
  rw [ofBody]
  cases bounds? body <;> rfl

/-- A range in brackets: two texts without commas, a comma between them, and a bracket
on either side. -/
structure Encloses (lowInclusive highInclusive : Bool)
    (lower upper text : List Char) : Prop where
  noComma : ',' ∉ lower ∧ ',' ∉ upper
  text_eq : text =
    opening lowInclusive :: (lower ++ ',' :: upper ++ [closing highInclusive])

/-- The range that a text without blanks around it spells. -/
inductive Spells : List Char → VersionRange → Prop where
  | bare {text : List Char} {low : Version} (nonempty : text ≠ [])
      (first : ∀ c ∈ text.head?, c ≠ '(' ∧ c ≠ '[')
      (read : Version.parse (String.ofList text) = .ok low) :
      Spells text (atLeast low)
  | enclosed {lowInclusive highInclusive : Bool}
      {lower upper text : List Char} {low high : Version}
      (brackets : Encloses lowInclusive highInclusive lower upper text)
      (first : Version.parse (String.ofList lower) = .ok low)
      (second : Version.parse (String.ofList upper) = .ok high)
      (ordered : low ≤ high) :
      Spells text ⟨low, some high, lowInclusive, highInclusive⟩

/-- Two versions stand between brackets, the greater one first. -/
def IsInverted (text : List Char) : Prop :=
  ∃ lowInclusive highInclusive lower upper low high,
    Encloses lowInclusive highInclusive lower upper text ∧
      Version.parse (String.ofList lower) = .ok low ∧
        Version.parse (String.ofList upper) = .ok high ∧ high < low

theorem Encloses.parse_eq
    (brackets : Encloses lowInclusive highInclusive lower upper
      (Text.trim text.toList)) :
    parse text = ofBounds text lowInclusive highInclusive
      (String.ofList lower, String.ofList upper) := by
  have found : bounds? (lower ++ ',' :: upper) =
      .ok (String.ofList lower, String.ofList upper) :=
    bounds?_eq_ok_iff.2 (by simpa using brackets.noComma)
  rw [parse_of_enclosed brackets.text_eq, ofBody, found]

theorem encloses_of_bounds? {bounds : String × String}
    (found : bounds? body = .ok bounds) :
    Encloses lowInclusive highInclusive bounds.1.toList bounds.2.toList
      (opening lowInclusive :: (body ++ [closing highInclusive])) := by
  obtain ⟨lower, upper, rfl⟩ := bounds?_eq_ok_iff.1 found
  exact ⟨⟨lower, upper⟩, rfl⟩

/-- What is not a malformed range is read as a version or between its brackets. -/
theorem parse_eq_iff {result : Except VersionError VersionRange}
    (other : ∀ fault, result ≠ .error (.invalidRange text fault)) :
    parse text = result ↔
      (Text.trim text.toList ≠ [] ∧
        (∀ c ∈ (Text.trim text.toList).head?, c ≠ '(' ∧ c ≠ '[') ∧
          ofBare (Text.trimmed text) = result) ∨
      ∃ lowInclusive highInclusive lower upper,
        Encloses lowInclusive highInclusive lower upper
            (Text.trim text.toList) ∧
          ofBounds text lowInclusive highInclusive
            (String.ofList lower, String.ofList upper) = result := by
  constructor
  · rintro rfl
    have form := shape (Text.trim text.toList)
    generalize whole : Text.trim text.toList = trimmed at form ⊢
    cases form with
    | empty => exact absurd (parse_of_empty whole) (other _)
    | bare unbracketed =>
        refine .inl ⟨List.cons_ne_nil _ _, fun c first => ?_,
          (parse_of_bare whole unbracketed).symm⟩
        cases first
        exact opening?_eq_none_iff.1 unbracketed
    | unclosed unclosed =>
        exact absurd (parse_of_unclosed whole unclosed) (other _)
    | enclosed =>
        rw [parse_of_enclosed whole, ofBody] at other ⊢
        split at other
        · exact absurd rfl (other _)
        · rename_i bounds found
          refine .inr ⟨_, _, _, _, encloses_of_bounds? found, ?_⟩
          rw [String.ofList_toList, String.ofList_toList]
  · rintro (⟨nonempty, first, read⟩ | ⟨_, _, _, _, brackets, read⟩)
    · obtain ⟨c, rest, whole⟩ := List.exists_cons_of_ne_nil nonempty
      rw [whole] at first
      rw [parse_of_bare whole (opening?_eq_none_iff.2 (first c rfl))]
      exact read
    · rw [brackets.parse_eq]
      exact read

theorem parse_eq_ok_iff :
    parse text = .ok range ↔ Spells (Text.trim text.toList) range := by
  have other : ∀ fault,
      Except.ok range ≠ .error (VersionError.invalidRange text fault) := nofun
  simp only [parse_eq_iff other, ofBare_eq_ok_iff, ofBounds_eq_ok_iff]
  constructor
  · rintro (⟨nonempty, first, low, read, rfl⟩ |
      ⟨_, _, _, _, brackets, low, high, first, second, ordered, rfl⟩)
    · exact .bare nonempty first read
    · exact .enclosed brackets first second ordered
  · rintro (⟨nonempty, first, read⟩ | ⟨brackets, first, second, ordered⟩)
    · exact .inl ⟨nonempty, first, _, read, rfl⟩
    · exact .inr ⟨_, _, _, _, brackets, _, _, first, second, ordered, rfl⟩

theorem parse_eq_inverted_iff :
    parse text = .error (.invertedRange other) ↔
      other = text ∧ IsInverted (Text.trim text.toList) := by
  have plain : ∀ fault, Except.error (.invertedRange other) ≠
      (.error (.invalidRange text fault) : Except VersionError VersionRange) :=
    nofun
  simp only [parse_eq_iff plain, ofBare_ne_inverted, and_false, false_or,
    ofBounds_eq_inverted_iff, IsInverted]
  constructor
  · rintro ⟨_, _, _, _, brackets, rfl, low, high, bounds⟩
    exact ⟨rfl, _, _, _, _, low, high, brackets, bounds⟩
  · rintro ⟨rfl, _, _, _, _, low, high, brackets, bounds⟩
    exact ⟨_, _, _, _, brackets, rfl, low, high, bounds⟩

theorem utf8Size_opening (inclusive : Bool) :
    (opening inclusive).utf8Size = 1 := by
  cases inclusive <;> rfl

theorem utf8Size_closing (inclusive : Bool) :
    (closing inclusive).utf8Size = 1 := by
  cases inclusive <;> rfl

theorem getLast?_bind_closing? :
    (opening lowInclusive :: rest).getLast?.bind closing? =
      (closed? rest).map Prod.snd := by
  obtain rfl | ⟨start, last, rfl⟩ := List.eq_nil_or_concat rest
  · cases lowInclusive <;> rfl
  · rw [List.concat_eq_append, ← List.cons_append, List.getLast?_concat,
      closed?_concat, Option.bind_some, Option.map_map]
    cases closing? last <;> rfl

/-- Between the first byte and the last one stands what is between the brackets. -/
theorem slice?_brackets
    (whole : text.toList =
      opening lowInclusive :: (body ++ [closing highInclusive])) :
    1 < text.utf8ByteSize ∧
      Text.slice? text 1 (text.utf8ByteSize - 1) = some (String.ofList body) := by
  have joined : text = String.singleton (opening lowInclusive) ++
      String.ofList body ++ String.singleton (closing highInclusive) := by
    rw [← String.toList_inj, whole]
    simp
  have sliced := Text.slice?_append (String.singleton (opening lowInclusive))
    (String.ofList body) (String.singleton (closing highInclusive))
  rw [← joined] at sliced
  have size : text.utf8ByteSize = 1 + (String.ofList body).utf8ByteSize + 1 := by
    rw [joined, String.utf8ByteSize_append, String.utf8ByteSize_append,
      String.utf8ByteSize_singleton, String.utf8ByteSize_singleton,
      utf8Size_opening, utf8Size_closing]
  rw [String.utf8ByteSize_append, String.utf8ByteSize_singleton,
    utf8Size_opening] at sliced
  rw [size, Nat.add_sub_cancel]
  exact ⟨by omega, sliced⟩

/-- Read a range by byte offsets; `none` if it cuts a text inside a character. -/
def parseBytes? (text : String) : Option (Except VersionError VersionRange) :=
  let trimmed := Text.trimmed text
  match trimmed.toList.head? with
  | none => some (.error (.invalidRange text .empty))
  | some first =>
      match opening? first with
      | none => some (ofBare trimmed)
      | some lowInclusive =>
          match trimmed.toList.getLast?.bind closing? with
          | none => some (.error (.invalidRange text .noClosingBracket))
          | some highInclusive =>
              if 1 < trimmed.utf8ByteSize then
                (Text.slice? trimmed 1 (trimmed.utf8ByteSize - 1)).map
                  fun body =>
                    ofBody text lowInclusive highInclusive body.toList
              else
                some (.error (.invalidRange text .noClosingBracket))

theorem parseBytes?_eq (text : String) :
    parseBytes? text = some (parse text) := by
  have form := shape (Text.trim text.toList)
  generalize whole : Text.trim text.toList = trimmed at form
  have same : (Text.trimmed text).toList = trimmed := by
    rw [Text.toList_trimmed, whole]
  cases form with
  | empty =>
      rw [parse_of_empty whole, parseBytes?, same]
      rfl
  | bare unbracketed =>
      rw [parse_of_bare whole unbracketed, parseBytes?, same]
      dsimp only [List.head?_cons]
      rw [unbracketed]
  | unclosed unclosed =>
      rw [parse_of_unclosed whole unclosed, parseBytes?, same]
      dsimp only [List.head?_cons]
      rw [opening?_opening, getLast?_bind_closing?, unclosed]
      rfl
  | enclosed =>
      obtain ⟨room, sliced⟩ := slice?_brackets same
      rw [parse_of_enclosed whole, parseBytes?, same]
      dsimp only [List.head?_cons]
      rw [opening?_opening, getLast?_bind_closing?, closed?_closing]
      dsimp only [Option.map_some]
      rw [if_pos room, sliced, Option.map_some, String.toList_ofList]

/-- Exactly the texts are read that spell a range between blanks, as the range that
they spell.  Bounds in the wrong order are reported with the whole text, and what
stands between the brackets is always cut out between two characters. -/
theorem parse_accepts_exactly (text : String) :
    (∀ range, parse text = .ok range ↔
      Spells (Text.trim text.toList) range) ∧
    (∀ other, parse text = .error (.invertedRange other) ↔
      other = text ∧ IsInverted (Text.trim text.toList)) ∧
    parseBytes? text = some (parse text) :=
  ⟨fun _ => parse_eq_ok_iff, fun _ => parse_eq_inverted_iff,
    parseBytes?_eq text⟩

end VersionRange
end ModuleWiring
