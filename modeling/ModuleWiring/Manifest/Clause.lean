import ModuleWiring.Manifest.Error
import ModuleWiring.Manifest.Parameters
import ModuleWiring.Text.Quoted

/-!
# Clauses of a header

The value of a header is a comma separated list of clauses. A clause names one
path or more and then its parameters, all separated by semicolons; a value may
stand in quotes, inside of which separators are ordinary characters.
-/

namespace ModuleWiring

/-- One clause of a header. -/
structure Clause where
  paths : List String
  parameters : Parameters
  deriving DecidableEq, Repr

namespace Clause

def empty : Clause :=
  ⟨[], Parameters.none⟩

def hasParameter (clause : Clause) : Bool :=
  !clause.parameters.attributes.isEmpty ||
    !clause.parameters.directives.isEmpty

/-- The name before an equals sign, and whether a colon makes it that of a
directive. -/
def parameterName (before : List Char) : List Char × Bool :=
  if before.getLast? = some ':' then
    (Text.trim before.dropLast, true)
  else
    (Text.trim before, false)

/-- Names are not empty and hold no blanks. -/
def isName (name : List Char) : Bool :=
  !name.isEmpty && !name.any Text.isBlank

/-- Add a parameter whose name is new among those of its kind. -/
def addParameter
    (clause : Clause) (name value : String) (isDirective : Bool) :
    Except HeaderFault Clause :=
  if isDirective then
    if clause.parameters.directives.contains name then
      .error (.repeatedParameter name)
    else
      .ok { clause with
        parameters := clause.parameters.withDirective name value }
  else
    if clause.parameters.attributes.contains name then
      .error (.repeatedParameter name)
    else
      .ok { clause with
        parameters := clause.parameters.withAttribute name value }

/-- Read one element, a path or a parameter, from which the blanks around it
have been taken. Paths come before parameters. -/
def addElement (clause : Clause) (element : List Char) :
    Except HeaderFault Clause :=
  match Text.breakUnquoted? '=' element with
  | none =>
      if clause.hasParameter then
        .error (.pathAfterParameter (String.ofList element))
      else
        .ok { clause with
          paths := clause.paths ++ [String.ofList (Text.unquote element)] }
  | some (before, after) =>
      let (name, isDirective) := parameterName before
      if isName name then
        clause.addParameter (String.ofList name)
          (String.ofList (Text.unquote (Text.trim after))) isDirective
      else
        .error (.parameterName (String.ofList element))

/-- Read the elements of a clause in order; none of them may be blank. -/
def addElements (whole : List Char) :
    List (List Char) → Clause → Except HeaderFault Clause
  | [], clause => .ok clause
  | element :: elements, clause =>
      match Text.trim element with
      | [] => .error (.emptyElement (String.ofList (Text.trim whole)))
      | first :: rest => do
          addElements whole elements (← clause.addElement (first :: rest))

/-- Read the text of one clause. -/
def read (text : List Char) : Except HeaderFault Clause :=
  match Text.splitUnquoted? ';' text with
  | none => .error (.openQuote (String.ofList (Text.trim text)))
  | some elements => do
      let clause ← addElements text elements empty
      if clause.paths.isEmpty then
        throw (.noPath (String.ofList (Text.trim text)))
      return clause

/-- Read the clauses of a value. A blank value has none. -/
def readAll (value : List Char) : Except HeaderFault (List Clause) :=
  if (Text.trim value).isEmpty then
    .ok []
  else
    match Text.splitUnquoted? ',' value with
    | none => .error (.openQuote (String.ofList (Text.trim value)))
    | some texts => texts.mapM read

/-- Read the value of a header; errors name the header. -/
def parseHeader (header value : String) :
    Except ManifestError (List Clause) :=
  (readAll value.toList).mapError (.invalidHeader header)

end Clause

end ModuleWiring
