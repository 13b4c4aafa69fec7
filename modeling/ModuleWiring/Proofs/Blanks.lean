import Mathlib.Data.List.DropRight
import ModuleWiring.Text.Blank

/-!
# Blanks around a text

Trimming is described from outside: what it leaves is the one text that neither
starts nor ends with a blank and has only blanks around it.
-/

namespace ModuleWiring.Text

/-- A text of blanks and nothing else; it may be empty. -/
def AllBlank (text : List Char) : Prop :=
  ∀ c ∈ text, isBlank c = true

/-- Neither the first nor the last character is a blank. -/
def IsBare (text : List Char) : Prop :=
  (∀ c ∈ text.head?, isBlank c = false) ∧
    ∀ c ∈ text.getLast?, isBlank c = false

/-- A text with blanks before and after it, as many as one likes. -/
def IsPadded (core text : List Char) : Prop :=
  ∃ front back, AllBlank front ∧ AllBlank back ∧
    text = front ++ core ++ back

instance (text : List Char) : Decidable (AllBlank text) :=
  List.decidableBAll _ text

instance (text : List Char) : Decidable (IsBare text) :=
  @instDecidableAnd _ _ (Option.decidableForallMem _)
    (Option.decidableForallMem _)

variable {core front back text : List Char}

/-- Visible characters of ASCII are no blanks. -/
theorem isBlank_eq_false {c : Char} (low : 0x20 < c.toNat)
    (high : c.toNat < 0x7F) : isBlank c = false := by
  simp only [isBlank, blankRanges, List.any_cons, List.any_nil, Bool.or_false,
    Bool.or_eq_false_iff, Bool.and_eq_false_imp, decide_eq_true_eq,
    decide_eq_false_iff_not, Nat.not_le]
  omega

theorem forall_mem_intercalate {Holds : Char → Prop} {separator : Char}
    {parts : List (List Char)} (kept : Holds separator)
    (each : ∀ part ∈ parts, ∀ c ∈ part, Holds c) :
    ∀ c ∈ [separator].intercalate parts, Holds c := by
  induction parts with
  | nil => exact fun _ member => nomatch member
  | cons part parts inductionHypothesis =>
      obtain ⟨first, others⟩ := List.forall_mem_cons.1 each
      by_cases last : parts = []
      · rwa [last, List.intercalate_singleton]
      · rw [List.intercalate_cons_of_ne_nil last, List.append_assoc,
          List.singleton_append]
        exact List.forall_mem_append.2
          ⟨first, List.forall_mem_cons.2 ⟨kept, inductionHypothesis others⟩⟩

theorem allBlank_nil : AllBlank [] :=
  fun _ member => nomatch member

theorem AllBlank.append (before : AllBlank front) (after : AllBlank back) :
    AllBlank (front ++ back) :=
  fun c member => (List.mem_append.1 member).elim (before c) (after c)

theorem isBare_of_forall (plain : ∀ c ∈ text, isBlank c = false) :
    IsBare text :=
  ⟨fun c first => plain c (List.mem_of_head? first),
    fun c last => plain c (List.mem_of_getLast? last)⟩

theorem trimStart_of_bare (bare : ∀ c ∈ text.head?, isBlank c = false) :
    trimStart text = text := by
  cases text with
  | nil => rfl
  | cons c rest =>
      exact List.dropWhile_cons_of_neg (by simpa using bare c rfl)

theorem trimEnd_of_bare (bare : ∀ c ∈ text.getLast?, isBlank c = false) :
    trimEnd text = text :=
  List.rdropWhile_eq_self_iff.2 fun nonempty => by
    simpa using bare _ (List.getLast?_eq_some_getLast nonempty)

theorem trim_of_bare (bare : IsBare text) : trim text = text := by
  rw [trim, trimStart_of_bare bare.1, trimEnd_of_bare bare.2]

theorem trimStart_append (blank : AllBlank front) (text : List Char) :
    trimStart (front ++ text) = trimStart text := by
  rw [trimStart, List.dropWhile_append_of_pos blank]
  rfl

theorem trimEnd_append (text : List Char) (blank : AllBlank back) :
    trimEnd (text ++ back) = trimEnd text := by
  rw [trimEnd, List.reverse_append, List.dropWhile_append_of_pos]
  · rfl
  · exact fun c member => blank c (List.mem_reverse.1 member)

/-- Behind a character that is no blank, only what follows is trimmed. -/
theorem trimEnd_append_of_bare
    (bare : ∀ c ∈ front.getLast?, isBlank c = false) (text : List Char) :
    trimEnd (front ++ text) = front ++ trimEnd text := by
  rw [trimEnd, List.reverse_append, List.dropWhile_append]
  split
  · rename_i blank
    have nothing : trimEnd text = [] := by
      rw [trimEnd, List.isEmpty_iff.1 blank, List.reverse_nil]
    rw [nothing, List.append_nil]
    exact trimEnd_of_bare bare
  · rw [List.reverse_append, List.reverse_reverse, trimEnd]

theorem trim_append_of_bare (nonempty : front ≠ []) (bare : IsBare front)
    (text : List Char) : trim (front ++ text) = front ++ trimEnd text := by
  have start : trimStart (front ++ text) = front ++ text :=
    trimStart_of_bare (by
      rw [List.head?_append_of_ne_nil _ nonempty]
      exact bare.1)
  rw [trim, start, trimEnd_append_of_bare bare.2]

theorem trim_of_allBlank (blank : AllBlank text) : trim text = [] := by
  have nothing : trimStart text = [] := List.dropWhile_eq_nil_iff.2 blank
  rw [trim, nothing]
  rfl

theorem trim_of_padded (padded : IsPadded core text) (bare : IsBare core) :
    trim text = core := by
  obtain ⟨front, back, before, after, rfl⟩ := padded
  rw [trim, List.append_assoc, trimStart_append before]
  cases core with
  | nil =>
      have nothing : trimStart back = [] := List.dropWhile_eq_nil_iff.2 after
      rw [List.nil_append, nothing]
      rfl
  | cons c rest =>
      have start : trimStart (c :: rest ++ back) = c :: rest ++ back :=
        trimStart_of_bare bare.1
      rw [start, trimEnd_append _ after, trimEnd_of_bare bare.2]

theorem isPadded_trim (text : List Char) : IsPadded (trim text) text := by
  refine ⟨text.takeWhile isBlank, (trimStart text).rtakeWhile isBlank,
    fun c member => List.mem_takeWhile_imp member,
    fun c member => List.mem_rtakeWhile_imp member, ?_⟩
  have end' : trim text ++ (trimStart text).rtakeWhile isBlank =
      trimStart text := List.rdropWhile_append_rtakeWhile
  rw [List.append_assoc, end']
  exact List.takeWhile_append_dropWhile.symm

theorem isBare_trim (text : List Char) : IsBare (trim text) := by
  constructor
  · intro c first
    -- The end that is cut off leaves the first character in place.
    obtain ⟨rest, split⟩ : trim text <+: trimStart text :=
      List.rdropWhile_prefix isBlank (trimStart text)
    have start : (trimStart text).head? = some c := by
      rw [← split, List.head?_append, first]
      rfl
    have stopped := List.head?_dropWhile_not isBlank text
    rw [← trimStart, start] at stopped
    simpa using stopped
  · intro c last
    have nonempty : trim text ≠ [] := by
      rintro nothing
      rw [nothing] at last
      cases last
    have final : (trim text).getLast nonempty = c :=
      (List.getLast_eq_iff_getLast?_eq_some nonempty).2 last
    rw [← final]
    exact Bool.eq_false_iff.2
      (List.rdropWhile_last_not isBlank (trimStart text) nonempty)

/-- Trimming leaves the bare text inside the blanks. -/
theorem trim_eq_iff : trim text = core ↔ IsPadded core text ∧ IsBare core := by
  constructor
  · rintro rfl
    exact ⟨isPadded_trim text, isBare_trim text⟩
  · rintro ⟨padded, bare⟩
    exact trim_of_padded padded bare

theorem trim_eq_nil_iff : trim text = [] ↔ AllBlank text := by
  refine ⟨fun nothing => ?_, trim_of_allBlank⟩
  obtain ⟨⟨front, back, before, after, rfl⟩, -⟩ := trim_eq_iff.1 nothing
  rw [List.append_nil]
  exact before.append after

end ModuleWiring.Text
