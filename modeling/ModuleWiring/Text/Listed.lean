import ModuleWiring.Text.Blank

/-!
# Comma separated lists

`splitOn` cuts a text at every occurrence of one character, and `listed` reads
the entries of a comma separated list.
-/

namespace ModuleWiring.Text

/-- Put a character in front of the first part of a text that was cut. -/
def prepend (c : Char) : List (List Char) → List (List Char)
  | [] => [[c]]
  | part :: parts => (c :: part) :: parts

/-- The stretches of a text between the occurrences of a separator; there is
always one more of them than there are separators. -/
def splitOn (separator : Char) : List Char → List (List Char)
  | [] => [[]]
  | c :: rest =>
      if c = separator then
        [] :: splitOn separator rest
      else
        prepend c (splitOn separator rest)

theorem splitOn_ne_nil (separator : Char) (text : List Char) :
    splitOn separator text ≠ [] := by
  cases text with
  | nil => simp [splitOn]
  | cons c rest =>
      simp only [splitOn]
      split
      · simp
      · unfold prepend
        split <;> simp

theorem length_prepend
    {c : Char} {parts : List (List Char)} (nonempty : parts ≠ []) :
    (prepend c parts).length = parts.length := by
  cases parts with
  | nil => exact absurd rfl nonempty
  | cons part parts => rfl

theorem length_splitOn (separator : Char) (text : List Char) :
    (splitOn separator text).length = text.count separator + 1 := by
  induction text with
  | nil => rfl
  | cons c rest ih =>
      by_cases same : c = separator
      · simp [splitOn, same, ih]
      · rw [splitOn, if_neg same,
          length_prepend (splitOn_ne_nil separator rest), ih,
          List.count_cons_of_ne same]

/-- The entries of a comma separated list, each without the blanks around it;
an entry of blanks alone is none. -/
def listed (text : String) : List String :=
  (((splitOn ',' text.toList).map trim).filter (· ≠ [])).map String.ofList

end ModuleWiring.Text
