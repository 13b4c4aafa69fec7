import ModuleWiring.Text.Listed

/-!
# Text with quoted stretches

Between two double quotes a separator is an ordinary character.
-/

namespace ModuleWiring.Text

/-- Every quote that opens is closed. -/
def isBalanced (text : List Char) : Bool :=
  text.count '"' % 2 = 0

/-- The stretches of a text between the separators that stand outside quotes,
where `quoted` tells whether the text starts inside. -/
def splitOutside (separator : Char) : Bool → List Char → List (List Char)
  | _, [] => [[]]
  | quoted, c :: rest =>
      if c = '"' then
        prepend c (splitOutside separator (!quoted) rest)
      else if c = separator ∧ quoted = false then
        [] :: splitOutside separator quoted rest
      else
        prepend c (splitOutside separator quoted rest)

/-- Cut a text at the separators outside quotes; `none` if a quote stays
open. -/
def splitUnquoted? (separator : Char) (text : List Char) :
    Option (List (List Char)) :=
  if isBalanced text then
    some (splitOutside separator false text)
  else
    none

/-- What stands before and after the first occurrence of a character outside
quotes, where `quoted` tells whether the text starts inside. -/
def breakOutside (needle : Char) :
    Bool → List Char → Option (List Char × List Char)
  | _, [] => none
  | quoted, c :: rest =>
      if c = '"' then
        (breakOutside needle (!quoted) rest).map fun (before, after) =>
          (c :: before, after)
      else if c = needle ∧ quoted = false then
        some ([], rest)
      else
        (breakOutside needle quoted rest).map fun (before, after) =>
          (c :: before, after)

/-- What stands before and after the first occurrence of a character outside
quotes. -/
def breakUnquoted? (needle : Char) (text : List Char) :
    Option (List Char × List Char) :=
  breakOutside needle false text

/-- Take off one pair of quotes around a text, where there is one. -/
def unquote : List Char → List Char
  | '"' :: rest =>
      if rest.getLast? = some '"' then rest.dropLast else '"' :: rest
  | text => text

end ModuleWiring.Text
