import ModuleWiring.Json.Basic

/-!
# The tokens of a JSON text

`Json.tokens?` cuts a text into tokens. Blanks between tokens are the space,
the tabulator and the two line ends; a string literal may hold any character
but a control character.
-/

namespace ModuleWiring.Json

/-- A token of a JSON text. -/
inductive Token where
  | openBrace
  | closeBrace
  | openBracket
  | closeBracket
  | comma
  | colon
  | null
  | bool (value : Bool)
  | number (literal : String)
  | string (text : JsonText)
  deriving Repr

/-- One piece of a string literal: a character, or a code unit of UTF-16
written as an escape. -/
inductive Piece where
  | char (c : Char)
  | unit (value : Nat)
  deriving Repr

def hexDigit? (c : Char) : Option Nat :=
  if '0' ≤ c ∧ c ≤ '9' then some (c.toNat - '0'.toNat)
  else if 'a' ≤ c ∧ c ≤ 'f' then some (c.toNat - 'a'.toNat + 10)
  else if 'A' ≤ c ∧ c ≤ 'F' then some (c.toNat - 'A'.toNat + 10)
  else none

def hexUnit? (a b c d : Char) : Option Nat := do
  return (((← hexDigit? a) * 16 + (← hexDigit? b)) * 16 + (← hexDigit? c)) * 16
    + (← hexDigit? d)

/-- The character that a one-letter escape stands for. -/
def escaped? : Char → Option Char
  | '"' => some '"'
  | '\\' => some '\\'
  | '/' => some '/'
  | 'b' => some '\x08'
  | 'f' => some '\x0c'
  | 'n' => some '\n'
  | 'r' => some '\r'
  | 't' => some '\t'
  | _ => none

/-- The pieces of a string literal up to its closing quote, and the text after
that. -/
def pieces? : List Char → Option (List Piece × List Char)
  | [] => none
  | '"' :: rest => some ([], rest)
  | '\\' :: 'u' :: a :: b :: c :: d :: rest => do
      let value ← hexUnit? a b c d
      let (pieces, rest) ← pieces? rest
      return (.unit value :: pieces, rest)
  | '\\' :: c :: rest => do
      let c ← escaped? c
      let (pieces, rest) ← pieces? rest
      return (.char c :: pieces, rest)
  | c :: rest =>
      if ' ' ≤ c then do
        let (pieces, rest) ← pieces? rest
        return (.char c :: pieces, rest)
      else
        none

/-- The first half of a surrogate pair. -/
def isHighSurrogate (value : Nat) : Bool :=
  decide (0xD800 ≤ value) && decide (value < 0xDC00)

/-- The second half of a surrogate pair. -/
def isLowSurrogate (value : Nat) : Bool :=
  decide (0xDC00 ≤ value) && decide (value < 0xE000)

/-- The character that two halves spell together. -/
def pairOf (high low : Nat) : Char :=
  Char.ofNat (0x10000 + (high - 0xD800) * 0x400 + (low - 0xDC00))

/-- The characters that the pieces of a literal spell. The halves of a surrogate
pair stand next to each other, or the literal spells no text. -/
def characters? : List Piece → Option (List Char)
  | [] => some []
  | .char c :: rest => (c :: ·) <$> characters? rest
  | .unit high :: .unit low :: rest =>
      if isHighSurrogate high && isLowSurrogate low then
        (pairOf high low :: ·) <$> characters? rest
      else if isHighSurrogate high || isLowSurrogate high then
        none
      else
        (Char.ofNat high :: ·) <$> characters? (.unit low :: rest)
  | .unit value :: rest =>
      if isHighSurrogate value || isLowSurrogate value then
        none
      else
        (Char.ofNat value :: ·) <$> characters? rest

/-- A run of digits at the front, and what follows it. -/
def digitRun? (text : List Char) : Option (List Char × List Char) :=
  match text.takeWhile Char.isDigit with
  | [] => none
  | digits => some (digits, text.dropWhile Char.isDigit)

/-- The whole part of a number: no zero in front of other digits. -/
def whole? (text : List Char) : Option (List Char × List Char) :=
  match digitRun? text with
  | some ('0' :: _ :: _, _) => none
  | run => run

def fraction? : List Char → Option (List Char × List Char)
  | '.' :: text => do
      let (digits, rest) ← digitRun? text
      return ('.' :: digits, rest)
  | text => some ([], text)

/-- The sign of an exponent, where there is one. -/
def exponentSign : List Char → List Char × List Char
  | '+' :: rest => (['+'], rest)
  | '-' :: rest => (['-'], rest)
  | text => ([], text)

def exponent? : List Char → Option (List Char × List Char)
  | [] => some ([], [])
  | c :: text =>
      if c = 'e' ∨ c = 'E' then do
        let (sign, text) := exponentSign text
        let (digits, rest) ← digitRun? text
        return (c :: sign ++ digits, rest)
      else
        some ([], c :: text)

/-- The literal of a number without its sign. -/
def unsigned? (text : List Char) : Option (List Char × List Char) := do
  let (whole, text) ← whole? text
  let (fraction, text) ← fraction? text
  let (exponent, rest) ← exponent? text
  return (whole ++ fraction ++ exponent, rest)

/-- A token at the front of a text, and what follows it. -/
def token? : List Char → Option (Token × List Char)
  | '{' :: rest => some (.openBrace, rest)
  | '}' :: rest => some (.closeBrace, rest)
  | '[' :: rest => some (.openBracket, rest)
  | ']' :: rest => some (.closeBracket, rest)
  | ',' :: rest => some (.comma, rest)
  | ':' :: rest => some (.colon, rest)
  | 'n' :: 'u' :: 'l' :: 'l' :: rest => some (.null, rest)
  | 't' :: 'r' :: 'u' :: 'e' :: rest => some (.bool true, rest)
  | 'f' :: 'a' :: 'l' :: 's' :: 'e' :: rest => some (.bool false, rest)
  | '"' :: rest => do
      let (pieces, rest) ← pieces? rest
      return (.string ((characters? pieces).map String.ofList), rest)
  | '-' :: rest => do
      let (literal, rest) ← unsigned? rest
      return (.number (String.ofList ('-' :: literal)), rest)
  | text => do
      let (literal, rest) ← unsigned? text
      return (.number (String.ofList literal), rest)

/-- The characters that may stand between tokens. -/
def isSeparator (c : Char) : Bool :=
  c = ' ' || c = '\t' || c = '\n' || c = '\r'

theorem length_of_pieces? {text rest : List Char} {pieces : List Piece}
    (read : pieces? text = some (pieces, rest)) :
    rest.length ≤ text.length := by
  fun_induction pieces? text generalizing pieces rest with
  | case1 => simp at read
  | case2 => simp_all
  | case3 a b c d tail ih =>
      simp only [Option.bind_eq_bind, Option.bind_eq_some_iff, Prod.exists,
        Option.pure_def, Option.some.injEq, Prod.mk.injEq] at read
      obtain ⟨_, _, _, _, tailRead, _, rfl⟩ := read
      have shorter := ih tailRead
      simp only [List.length_cons]
      omega
  | case4 c tail _ ih =>
      simp only [Option.bind_eq_bind, Option.bind_eq_some_iff, Prod.exists,
        Option.pure_def, Option.some.injEq, Prod.mk.injEq] at read
      obtain ⟨_, _, _, _, tailRead, _, rfl⟩ := read
      have shorter := ih tailRead
      simp only [List.length_cons]
      omega
  | case5 c tail _ _ _ _ ih =>
      simp only [Option.bind_eq_bind, Option.bind_eq_some_iff, Prod.exists,
        Option.pure_def, Option.some.injEq, Prod.mk.injEq] at read
      obtain ⟨_, _, tailRead, _, rfl⟩ := read
      have shorter := ih tailRead
      simp only [List.length_cons]
      omega
  | case6 => cases read

theorem length_of_digitRun? {text digits rest : List Char}
    (read : digitRun? text = some (digits, rest)) :
    rest.length < text.length := by
  have whole := congrArg List.length
    (List.takeWhile_append_dropWhile (p := Char.isDigit) (l := text))
  rw [List.length_append] at whole
  unfold digitRun? at read
  split at read
  · simp at read
  · rename_i nonempty
    simp only [Option.some.injEq, Prod.mk.injEq] at read
    obtain ⟨rfl, rfl⟩ := read
    have := List.length_pos_iff.2 nonempty
    omega

theorem length_of_whole? {text digits rest : List Char}
    (read : whole? text = some (digits, rest)) :
    rest.length < text.length := by
  unfold whole? at read
  split at read
  · cases read
  · exact length_of_digitRun? read

theorem length_of_fraction? {text fraction rest : List Char}
    (read : fraction? text = some (fraction, rest)) :
    rest.length ≤ text.length := by
  unfold fraction? at read
  split at read
  · simp only [Option.bind_eq_bind, Option.bind_eq_some_iff, Prod.exists,
      Option.pure_def, Option.some.injEq, Prod.mk.injEq] at read
    obtain ⟨_, _, run, _, rfl⟩ := read
    have shorter := length_of_digitRun? run
    simp only [List.length_cons]
    omega
  · simp only [Option.some.injEq, Prod.mk.injEq] at read
    simp [read.2]

theorem length_exponentSign (text : List Char) :
    (exponentSign text).2.length ≤ text.length := by
  unfold exponentSign
  split <;> simp

theorem length_of_exponent? {text exponent rest : List Char}
    (read : exponent? text = some (exponent, rest)) :
    rest.length ≤ text.length := by
  unfold exponent? at read
  split at read
  · simp_all
  · rename_i c tail
    split at read
    · simp only [Option.bind_eq_bind, Option.bind_eq_some_iff, Prod.exists,
        Option.pure_def, Option.some.injEq, Prod.mk.injEq] at read
      obtain ⟨_, _, run, _, rfl⟩ := read
      have shorter := length_of_digitRun? run
      have := length_exponentSign tail
      simp only [List.length_cons]
      omega
    · simp only [Option.some.injEq, Prod.mk.injEq] at read
      simp [← read.2]

theorem length_of_unsigned? {text literal rest : List Char}
    (read : unsigned? text = some (literal, rest)) :
    rest.length < text.length := by
  simp only [unsigned?, Option.bind_eq_bind, Option.bind_eq_some_iff,
    Prod.exists, Option.pure_def, Option.some.injEq, Prod.mk.injEq] at read
  obtain ⟨_, _, whole, _, _, fraction, _, _, exponent, _, rfl⟩ := read
  have := length_of_whole? whole
  have := length_of_fraction? fraction
  have := length_of_exponent? exponent
  omega

theorem length_of_token? {text rest : List Char} {token : Token}
    (read : token? text = some (token, rest)) :
    rest.length < text.length := by
  unfold token? at read
  split at read
  case h_10 tail =>
    simp only [Option.bind_eq_bind, Option.bind_eq_some_iff, Prod.exists,
      Option.pure_def, Option.some.injEq, Prod.mk.injEq] at read
    obtain ⟨_, _, body, _, rfl⟩ := read
    have := length_of_pieces? body
    simp only [List.length_cons]
    omega
  case h_11 tail =>
    simp only [Option.bind_eq_bind, Option.bind_eq_some_iff, Prod.exists,
      Option.pure_def, Option.some.injEq, Prod.mk.injEq] at read
    obtain ⟨_, _, digits, _, rfl⟩ := read
    have := length_of_unsigned? digits
    simp only [List.length_cons]
    omega
  case h_12 =>
    simp only [Option.bind_eq_bind, Option.bind_eq_some_iff, Prod.exists,
      Option.pure_def, Option.some.injEq, Prod.mk.injEq] at read
    obtain ⟨_, _, digits, _, rfl⟩ := read
    exact length_of_unsigned? digits
  all_goals
    simp only [Option.some.injEq, Prod.mk.injEq] at read
    obtain ⟨_, rfl⟩ := read
    simp only [List.length_cons]
    omega

/-- All tokens of a text; `none` where something is no token. -/
def tokens? : List Char → Option (List Token)
  | [] => some []
  | c :: rest =>
      if isSeparator c then
        tokens? rest
      else
        match _read : token? (c :: rest) with
        | none => none
        | some (token, rest) => (token :: ·) <$> tokens? rest
termination_by text => text.length
decreasing_by
  · simp
  · exact length_of_token? _read

end ModuleWiring.Json
