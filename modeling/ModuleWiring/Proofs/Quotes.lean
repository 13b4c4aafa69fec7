import Mathlib.Data.List.Basic
import ModuleWiring.Text.Quoted

/-!
# What stands outside quotes

A text is cut at the separators outside its quotes exactly if it is the parts,
joined by the separator, and each part closes its quotes and has no separator
outside them.  The first occurrence of a character outside quotes is described in
the same words.
-/

namespace ModuleWiring.Text

/-- The characters outside quotes, where `quoted` tells whether the text starts
inside.  The quotes themselves are not among them. -/
def outsideFrom : Bool → List Char → List Char
  | _, [] => []
  | quoted, c :: rest =>
      if c = '"' then
        outsideFrom (!quoted) rest
      else if quoted then
        outsideFrom quoted rest
      else
        c :: outsideFrom quoted rest

/-- The characters outside quotes. -/
def outside (text : List Char) : List Char :=
  outsideFrom false text

/-- A text that ends outside quotes and has a character only inside them, where
`quoted` tells whether the text starts inside. -/
def IsSealedFrom (quoted : Bool) (c : Char) (text : List Char) : Prop :=
  isBalanced text = !quoted ∧ c ∉ outsideFrom quoted text

/-- A text that closes its quotes and has a character only inside them. -/
def IsSealed (c : Char) (text : List Char) : Prop :=
  IsSealedFrom false c text

/-- A text and its parts between the separators outside quotes. -/
structure IsCut (separator : Char) (text : List Char)
    (parts : List (List Char)) : Prop where
  nonempty : parts ≠ []
  joined : text = [separator].intercalate parts
  closed : ∀ part ∈ parts, IsSealed separator part

/-- A text between two quotes. -/
def inQuotes (text : List Char) : List Char :=
  '"' :: (text ++ ['"'])

instance (c : Char) (text : List Char) : Decidable (IsSealed c text) :=
  inferInstanceAs (Decidable (_ ∧ _))

instance (separator : Char) (text : List Char) (parts : List (List Char)) :
    Decidable (IsCut separator text parts) :=
  decidable_of_iff
    (parts ≠ [] ∧ text = [separator].intercalate parts ∧
      ∀ part ∈ parts, IsSealed separator part)
    ⟨fun cut => ⟨cut.1, cut.2.1, cut.2.2⟩,
      fun cut => ⟨cut.nonempty, cut.joined, cut.closed⟩⟩

variable {separator c : Char} {quoted : Bool}
  {text before after rest part : List Char} {parts : List (List Char)}

/-! ## Balance -/

theorem isBalanced_nil : isBalanced [] = true :=
  rfl

theorem isBalanced_quote (rest : List Char) :
    isBalanced ('"' :: rest) = !isBalanced rest := by
  unfold isBalanced
  rw [List.count_cons_self, Bool.eq_iff_iff]
  simp only [decide_eq_true_eq, Bool.not_eq_true', decide_eq_false_iff_not]
  omega

theorem isBalanced_cons (other : c ≠ '"') (rest : List Char) :
    isBalanced (c :: rest) = isBalanced rest := by
  unfold isBalanced
  rw [List.count_cons_of_ne other]

theorem isBalanced_append (text rest : List Char) :
    isBalanced (text ++ rest) = (isBalanced text == isBalanced rest) := by
  induction text with
  | nil => rw [List.nil_append, isBalanced_nil, Bool.true_beq]
  | cons c text inductionHypothesis =>
      by_cases quote : c = '"'
      · subst quote
        rw [List.cons_append, isBalanced_quote, isBalanced_quote,
          inductionHypothesis]
        cases isBalanced text <;> cases isBalanced rest <;> rfl
      · rw [List.cons_append, isBalanced_cons quote, isBalanced_cons quote,
          inductionHypothesis]

theorem isBalanced_of_not_mem (plain : '"' ∉ text) : isBalanced text = true := by
  rw [isBalanced, List.count_eq_zero.2 plain]
  rfl

/-! ## The characters outside quotes -/

theorem outsideFrom_quote (quoted : Bool) (rest : List Char) :
    outsideFrom quoted ('"' :: rest) = outsideFrom (!quoted) rest :=
  if_pos rfl

theorem outsideFrom_true_cons (other : c ≠ '"') (rest : List Char) :
    outsideFrom true (c :: rest) = outsideFrom true rest := by
  rw [outsideFrom, if_neg other, if_pos rfl]

theorem outsideFrom_false_cons (other : c ≠ '"') (rest : List Char) :
    outsideFrom false (c :: rest) = c :: outsideFrom false rest := by
  rw [outsideFrom, if_neg other, if_neg Bool.false_ne_true]

theorem outsideFrom_append (quoted : Bool) (text rest : List Char) :
    outsideFrom quoted (text ++ rest) =
      outsideFrom quoted text ++
        outsideFrom (quoted ^^ !isBalanced text) rest := by
  induction text generalizing quoted with
  | nil => rw [isBalanced_nil, Bool.not_true, Bool.xor_false]; rfl
  | cons c text inductionHypothesis =>
      by_cases quote : c = '"'
      · subst quote
        rw [List.cons_append, outsideFrom_quote, outsideFrom_quote,
          inductionHypothesis, isBalanced_quote]
        congr 2
        cases quoted <;> cases isBalanced text <;> rfl
      · cases quoted with
        | true =>
            rw [List.cons_append, outsideFrom_true_cons quote,
              outsideFrom_true_cons quote, inductionHypothesis,
              isBalanced_cons quote]
        | false =>
            rw [List.cons_append, outsideFrom_false_cons quote,
              outsideFrom_false_cons quote, inductionHypothesis,
              isBalanced_cons quote, List.cons_append]

theorem outsideFrom_of_not_mem (plain : '"' ∉ text) :
    outsideFrom quoted text = if quoted then [] else text := by
  induction text with
  | nil => cases quoted <;> rfl
  | cons c text inductionHypothesis =>
      obtain ⟨other, plain⟩ := not_or.1 (mt List.mem_cons.2 plain)
      cases quoted with
      | true =>
          exact (outsideFrom_true_cons (Ne.symm other) _).trans
            (inductionHypothesis plain)
      | false =>
          exact (outsideFrom_false_cons (Ne.symm other) _).trans
            (congrArg _ (inductionHypothesis plain))

/-! ## Sealed texts -/

theorem isSealed_nil (c : Char) : IsSealed c [] :=
  ⟨rfl, List.not_mem_nil⟩

theorem isSealed_of_not_mem (plain : '"' ∉ text) (free : c ∉ text) :
    IsSealed c text := by
  refine ⟨isBalanced_of_not_mem plain, ?_⟩
  rw [outsideFrom_of_not_mem plain]
  exact free

theorem IsSealed.append (first : IsSealed c text) (second : IsSealed c rest) :
    IsSealed c (text ++ rest) := by
  refine ⟨?_, ?_⟩
  · rw [isBalanced_append, first.1, second.1]
    rfl
  · rw [outsideFrom_append, first.1, List.mem_append]
    exact not_or.2 ⟨first.2, second.2⟩

/-- Inside quotes a separator is an ordinary character. -/
theorem isSealed_inQuotes (plain : '"' ∉ text) : IsSealed c (inQuotes text) := by
  refine ⟨?_, ?_⟩
  · rw [inQuotes, isBalanced_quote, isBalanced_append,
      isBalanced_of_not_mem plain]
    rfl
  · rw [inQuotes, outsideFrom_quote, outsideFrom_append,
      outsideFrom_of_not_mem plain, isBalanced_of_not_mem plain]
    exact List.not_mem_nil

theorem isSealedFrom_quote :
    IsSealedFrom quoted c ('"' :: rest) ↔ IsSealedFrom (!quoted) c rest := by
  rw [IsSealedFrom, IsSealedFrom, isBalanced_quote, outsideFrom_quote,
    Bool.not_inj_iff, Bool.not_not]

theorem isSealedFrom_true_cons {first : Char} (other : first ≠ '"') :
    IsSealedFrom true c (first :: rest) ↔ IsSealedFrom true c rest := by
  rw [IsSealedFrom, IsSealedFrom, isBalanced_cons other,
    outsideFrom_true_cons other]

theorem isSealedFrom_false_cons {first : Char} (other : first ≠ '"') :
    IsSealedFrom false c (first :: rest) ↔
      c ≠ first ∧ IsSealedFrom false c rest := by
  rw [IsSealedFrom, IsSealedFrom, isBalanced_cons other,
    outsideFrom_false_cons other, List.mem_cons, not_or, and_left_comm]

/-! ## The first occurrence outside quotes -/

private theorem map_cons_eq_some_iff {first : Char}
    {found : Option (List Char × List Char)} :
    (found.map fun (before, after) => (first :: before, after)) =
        some (before, after) ↔
      ∃ tail, before = first :: tail ∧ found = some (tail, after) := by
  rw [Option.map_eq_some_iff]
  constructor
  · rintro ⟨⟨tail, _⟩, rfl, same⟩
    obtain ⟨rfl, rfl⟩ := Prod.mk.injEq .. ▸ same
    exact ⟨tail, rfl, rfl⟩
  · rintro ⟨tail, rfl, rfl⟩
    exact ⟨(tail, after), rfl, rfl⟩

private theorem cons_eq_append_cons_iff {first : Char} :
    first :: text = before ++ c :: after ∧ IsSealedFrom quoted c before ↔
      (before = [] ∧ first = c ∧ text = after ∧ quoted = false) ∨
        ∃ tail, before = first :: tail ∧ text = tail ++ c :: after ∧
          IsSealedFrom quoted c (first :: tail) := by
  constructor
  · rintro ⟨split, closed⟩
    cases before with
    | nil =>
        obtain ⟨rfl, rfl⟩ := List.cons.inj split
        refine .inl ⟨rfl, rfl, rfl, ?_⟩
        simpa [isBalanced_nil] using closed.1
    | cons head tail =>
        obtain ⟨rfl, rfl⟩ := List.cons.inj split
        exact .inr ⟨tail, rfl, rfl, closed⟩
  · rintro (⟨rfl, rfl, rfl, rfl⟩ | ⟨tail, rfl, rfl, closed⟩)
    · exact ⟨rfl, isSealed_nil first⟩
    · exact ⟨rfl, closed⟩

theorem breakOutside_eq_some_iff (plain : c ≠ '"') :
    breakOutside c quoted text = some (before, after) ↔
      text = before ++ c :: after ∧ IsSealedFrom quoted c before := by
  induction text generalizing quoted before with
  | nil => simp [breakOutside]
  | cons first rest inductionHypothesis =>
      rw [cons_eq_append_cons_iff, breakOutside]
      by_cases quote : first = '"'
      · rw [if_pos quote, map_cons_eq_some_iff, or_iff_right]
        · subst quote
          simp only [inductionHypothesis, isSealedFrom_quote]
        · rintro ⟨-, same, -⟩
          exact plain (same.symm.trans quote)
      · rw [if_neg quote]
        by_cases hit : first = c ∧ quoted = false
        · obtain ⟨rfl, rfl⟩ := hit
          rw [if_pos ⟨rfl, rfl⟩, or_iff_left]
          · simp [eq_comm]
          · rintro ⟨tail, -, -, closed⟩
            exact ((isSealedFrom_false_cons quote).1 closed).1 rfl
        · rw [if_neg hit, map_cons_eq_some_iff, or_iff_right]
          · simp only [inductionHypothesis]
            cases quoted with
            | true => simp only [isSealedFrom_true_cons quote]
            | false =>
                have other : c ≠ first := fun same => hit ⟨same.symm, rfl⟩
                simp only [isSealedFrom_false_cons quote, ne_eq, other,
                  not_false_eq_true, true_and]
          · rintro ⟨-, same, -, outer⟩
            exact hit ⟨same, outer⟩

theorem breakOutside_eq_none_iff :
    breakOutside c quoted text = none ↔ c ∉ outsideFrom quoted text := by
  induction text generalizing quoted with
  | nil => simp [breakOutside, outsideFrom]
  | cons first rest inductionHypothesis =>
      rw [breakOutside, outsideFrom]
      by_cases quote : first = '"'
      · rw [if_pos quote, if_pos quote, Option.map_eq_none_iff,
          inductionHypothesis]
      · rw [if_neg quote, if_neg quote]
        cases quoted with
        | true =>
            rw [if_neg (fun hit => Bool.false_ne_true hit.2.symm),
              Option.map_eq_none_iff, inductionHypothesis, if_pos rfl]
        | false =>
            rw [if_neg Bool.false_ne_true, List.mem_cons]
            by_cases same : first = c
            · simp [same]
            · rw [if_neg (fun hit => same hit.1), Option.map_eq_none_iff,
                inductionHypothesis, or_iff_right (Ne.symm same)]

theorem breakUnquoted?_eq_some_iff (plain : c ≠ '"') :
    breakUnquoted? c text = some (before, after) ↔
      text = before ++ c :: after ∧ IsSealed c before :=
  breakOutside_eq_some_iff plain

theorem breakUnquoted?_eq_none_iff :
    breakUnquoted? c text = none ↔ c ∉ outside text :=
  breakOutside_eq_none_iff

/-! ## Cuts -/

/-- Cutting takes off what is before the first separator and goes on after it. -/
theorem splitOutside_eq_break (separator : Char) (quoted : Bool)
    (text : List Char) :
    splitOutside separator quoted text =
      match breakOutside separator quoted text with
      | none => [text]
      | some (before, after) =>
          before :: splitOutside separator false after := by
  induction text generalizing quoted with
  | nil => rfl
  | cons first rest inductionHypothesis =>
      rw [splitOutside, breakOutside]
      by_cases quote : first = '"'
      · rw [if_pos quote, if_pos quote, inductionHypothesis]
        cases breakOutside separator (!quoted) rest <;> rfl
      · rw [if_neg quote, if_neg quote]
        by_cases hit : first = separator ∧ quoted = false
        · rw [if_pos hit, if_pos hit, hit.2]
        · rw [if_neg hit, if_neg hit, inductionHypothesis]
          cases breakOutside separator quoted rest <;> rfl

theorem splitOutside_of_not_mem (free : separator ∉ outsideFrom quoted text) :
    splitOutside separator quoted text = [text] := by
  rw [splitOutside_eq_break, breakOutside_eq_none_iff.2 free]

theorem splitOutside_append (plain : separator ≠ '"')
    (closed : IsSealed separator part) (rest : List Char) :
    splitOutside separator false (part ++ separator :: rest) =
      part :: splitOutside separator false rest := by
  rw [splitOutside_eq_break,
    (breakOutside_eq_some_iff plain).2 ⟨rfl, closed⟩]

theorem isCut_singleton (closed : IsSealed separator text) :
    IsCut separator text [text] :=
  ⟨List.cons_ne_nil _ _, List.intercalate_singleton.symm, by simpa using closed⟩

theorem IsCut.cons (closed : IsSealed separator part)
    (cut : IsCut separator rest parts) :
    IsCut separator (part ++ separator :: rest) (part :: parts) := by
  refine ⟨List.cons_ne_nil _ _, ?_, List.forall_mem_cons.2 ⟨closed, cut.closed⟩⟩
  rw [List.intercalate_cons_of_ne_nil cut.nonempty, ← cut.joined,
    List.append_assoc, List.singleton_append]

/-- A cut is of one part, or of a part and a cut of what is behind the first
separator. -/
theorem IsCut.cases_cons (cut : IsCut separator text (part :: parts)) :
    IsSealed separator part ∧
      (text = part ∧ parts = [] ∨
        ∃ rest, text = part ++ separator :: rest ∧
          IsCut separator rest parts) := by
  obtain ⟨closed, others⟩ := List.forall_mem_cons.1 cut.closed
  refine ⟨closed, ?_⟩
  by_cases last : parts = []
  · subst last
    exact .inl ⟨cut.joined.trans List.intercalate_singleton, rfl⟩
  · refine .inr ⟨[separator].intercalate parts, ?_, last, rfl, others⟩
    rw [cut.joined, List.intercalate_cons_of_ne_nil last, List.append_assoc,
      List.singleton_append]

theorem IsCut.mem_of_mem_part (cut : IsCut separator text parts)
    (member : part ∈ parts) (occurs : c ∈ part) : c ∈ text := by
  induction parts generalizing text with
  | nil => cases member
  | cons first others inductionHypothesis =>
      obtain ⟨-, ⟨rfl, rfl⟩ | ⟨rest, rfl, remaining⟩⟩ := cut.cases_cons
      · rwa [List.mem_singleton.1 member] at occurs
      · rw [List.mem_append, List.mem_cons]
        rcases List.mem_cons.1 member with rfl | later
        · exact .inl occurs
        · exact .inr (.inr (inductionHypothesis remaining later))

theorem IsCut.isBalanced (plain : separator ≠ '"')
    (cut : IsCut separator text parts) : isBalanced text = true := by
  induction parts generalizing text with
  | nil => exact absurd rfl cut.nonempty
  | cons part parts inductionHypothesis =>
      obtain ⟨closed, ⟨rfl, -⟩ | ⟨rest, rfl, remaining⟩⟩ := cut.cases_cons
      · exact closed.1
      · rw [isBalanced_append, isBalanced_cons plain, closed.1,
          inductionHypothesis remaining]
        rfl

theorem IsCut.splitOutside_eq (plain : separator ≠ '"')
    (cut : IsCut separator text parts) :
    splitOutside separator false text = parts := by
  induction parts generalizing text with
  | nil => exact absurd rfl cut.nonempty
  | cons part parts inductionHypothesis =>
      obtain ⟨closed, ⟨rfl, rfl⟩ | ⟨rest, rfl, remaining⟩⟩ := cut.cases_cons
      · exact splitOutside_of_not_mem closed.2
      · rw [splitOutside_append plain closed, inductionHypothesis remaining]

theorem IsCut.unique {others : List (List Char)} (plain : separator ≠ '"')
    (cut : IsCut separator text parts) (cut' : IsCut separator text others) :
    parts = others :=
  (cut.splitOutside_eq plain).symm.trans (cut'.splitOutside_eq plain)

theorem isCut_splitOutside (plain : separator ≠ '"') (text : List Char)
    (balanced : isBalanced text = true) :
    IsCut separator text (splitOutside separator false text) := by
  rw [splitOutside_eq_break]
  cases found : breakOutside separator false text with
  | none => exact isCut_singleton ⟨balanced, breakOutside_eq_none_iff.1 found⟩
  | some sides =>
      obtain ⟨before, after⟩ := sides
      obtain ⟨split, closed⟩ := (breakOutside_eq_some_iff plain).1 found
      have shorter : after.length < text.length := by
        rw [split, List.length_append, List.length_cons]
        omega
      have remaining : isBalanced after = true := by
        rw [split, isBalanced_append, isBalanced_cons plain, closed.1]
          at balanced
        simpa using balanced
      have cut := isCut_splitOutside plain after remaining
      exact split ▸ cut.cons closed
termination_by text.length
decreasing_by exact shorter

/-- Cutting finds the parts between the separators outside quotes. -/
theorem splitUnquoted?_eq_some_iff (plain : separator ≠ '"') :
    splitUnquoted? separator text = some parts ↔ IsCut separator text parts := by
  unfold splitUnquoted?
  constructor
  · intro done
    split at done
    · rename_i balanced
      cases done
      exact isCut_splitOutside plain text balanced
    · cases done
  · intro cut
    rw [if_pos (cut.isBalanced plain), cut.splitOutside_eq plain]

/-! ## Unquoting -/

theorem unquote_inQuotes (text : List Char) : unquote (inQuotes text) = text := by
  rw [inQuotes, unquote, if_pos List.getLast?_concat, List.dropLast_concat]

theorem unquote_of_head? (plain : text.head? ≠ some '"') :
    unquote text = text := by
  unfold unquote
  split
  · exact absurd rfl plain
  · rfl

theorem unquote_eq_nil_iff :
    unquote text = [] ↔ text = [] ∨ text = inQuotes [] := by
  constructor
  · intro nothing
    unfold unquote at nothing
    split at nothing
    · rename_i rest
      split at nothing
      · rename_i last
        -- Without its last character nothing is left: it is the closing quote.
        obtain ⟨front, rfl⟩ := List.getLast?_eq_some_iff.1 last
        rw [List.dropLast_concat] at nothing
        subst nothing
        exact .inr rfl
      · cases nothing
    · exact .inl nothing
  · rintro (rfl | rfl) <;> rfl

end ModuleWiring.Text
