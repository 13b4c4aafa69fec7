import ModuleWiring.Universe.Selector

/-!
# Arguments of the program

The first argument names a command. The others are options, which start with a
hyphen, and the path of a universe. An option may be given once, unless it
collects what it is given.
-/

namespace ModuleWiring

/-- What the `resolve` command is asked to do. -/
structure ResolveRequest where
  path : String
  selectors : List Selector
  settingsPath : Option String
  useEnvironment : Bool
  asJson : Bool
  deriving DecidableEq, Repr

/-- What the `validate` command is asked to do. -/
structure ValidateRequest where
  path : String
  quiet : Bool
  deriving DecidableEq, Repr

/-- A command with what it is asked to do. -/
inductive Command where
  | resolve (request : ResolveRequest)
  | validate (request : ValidateRequest)
  deriving DecidableEq, Repr

/-- An option of a command. -/
structure OptionForm where
  long : String
  short : Option Char
  takesValue : Bool
  repeatable : Bool
  deriving DecidableEq, Repr

namespace OptionForm

def bundle : OptionForm :=
  ⟨"bundle", some 'b', true, true⟩

def config : OptionForm :=
  ⟨"config", some 'c', true, false⟩

/-- The option to leave the environment aside. -/
def noEnvironment : OptionForm :=
  ⟨"no-env", none, false, false⟩

def json : OptionForm :=
  ⟨"json", none, false, false⟩

/-- The option to write problems only. -/
def quiet : OptionForm :=
  ⟨"quiet", some 'q', false, false⟩

end OptionForm

/-- The arguments of a command, sorted out: options with their values, a flag
with none, and the other words. -/
structure ArgumentList where
  options : List (OptionForm × Option String)
  words : List String

namespace ArgumentList

def empty : ArgumentList :=
  ⟨[], []⟩

/-- Add an option with its value. One that may not be repeated is refused the
second time. -/
def addOption (arguments : ArgumentList) (form : OptionForm)
    (value : Option String) : Option ArgumentList :=
  if !form.repeatable && arguments.options.any (·.1 = form) then
    none
  else
    some { arguments with options := arguments.options ++ [(form, value)] }

def addWord (arguments : ArgumentList) (word : String) : ArgumentList :=
  { arguments with words := arguments.words ++ [word] }

def values (arguments : ArgumentList) (form : OptionForm) : List String :=
  arguments.options.filterMap fun (given, value) =>
    if given = form then value else none

def has (arguments : ArgumentList) (form : OptionForm) : Bool :=
  arguments.options.any (·.1 = form)

end ArgumentList

/-- How one argument reads on its own: an option with the text attached to it,
the mark after which there are only words, or a word. -/
inductive Argument where
  | option (form : OptionForm) (attached : Option String)
  | onlyWords
  | word (text : String)

namespace Argument

/-- A text from which an equals sign at the front is taken off. -/
def afterEquals : List Char → List Char
  | '=' :: rest => rest
  | rest => rest

/-- The name of a long option and the value after its first equals sign. -/
def cutLong : List Char → List Char × Option (List Char)
  | [] => ([], none)
  | '=' :: rest => ([], some rest)
  | c :: rest =>
      let (name, value) := cutLong rest
      (c :: name, value)

/-- Read one argument among the options of a command; `none` if it looks like an
option that there is not. -/
def read (forms : List OptionForm) (text : String) : Option Argument :=
  match text.toList with
  | ['-', '-'] => some .onlyWords
  | '-' :: '-' :: rest =>
      let (name, value) := cutLong rest
      (forms.find? (·.long = String.ofList name)).map fun form =>
        .option form (value.map String.ofList)
  | '-' :: letter :: rest =>
      (forms.find? (·.short = some letter)).map fun form =>
        .option form <|
          if rest.isEmpty then none
          else some (String.ofList (afterEquals rest))
  | _ => some (.word text)

/-- Whether a text can be a value of its own after an option. -/
def isValue (text : String) : Bool :=
  text = "-" || text.toList.head? ≠ some '-'

/-- Sort out the arguments of a command from left to right. -/
def readAll (forms : List OptionForm) :
    List String → ArgumentList → Option ArgumentList
  | [], arguments => some arguments
  | text :: rest, arguments =>
      match read forms text with
      | none => none
      | some (.word other) => readAll forms rest (arguments.addWord other)
      | some .onlyWords => some (rest.foldl ArgumentList.addWord arguments)
      | some (.option form attached) =>
          match form.takesValue, attached with
          | true, some value => do
              readAll forms rest (← arguments.addOption form (some value))
          | false, none => do
              readAll forms rest (← arguments.addOption form none)
          | false, some _ => none
          | true, none =>
              match rest with
              | [] => none
              | value :: others =>
                  if isValue value then do
                    readAll forms others
                      (← arguments.addOption form (some value))
                  else
                    none

end Argument

namespace ResolveRequest

def forms : List OptionForm :=
  [.bundle, .config, .noEnvironment, .json]

def parse? (arguments : List String) : Option ResolveRequest := do
  let given ← Argument.readAll forms arguments ArgumentList.empty
  let selectors ← (given.values .bundle).mapM fun text =>
    (Selector.parse text).toOption
  match given.words with
  | [path] =>
      return {
        path := path
        selectors := selectors
        settingsPath := (given.values .config).head?
        useEnvironment := !given.has .noEnvironment
        asJson := given.has .json }
  | _ => none

end ResolveRequest

namespace ValidateRequest

def forms : List OptionForm :=
  [.quiet]

def parse? (arguments : List String) : Option ValidateRequest := do
  let given ← Argument.readAll forms arguments ArgumentList.empty
  match given.words with
  | [path] => return ⟨path, given.has .quiet⟩
  | _ => none

end ValidateRequest

/-- Read the arguments of the program; `none` if they ask for nothing that it
does. -/
def Command.parse? : List String → Option Command
  | "resolve" :: arguments => .resolve <$> ResolveRequest.parse? arguments
  | "validate" :: arguments => .validate <$> ValidateRequest.parse? arguments
  | _ => none

end ModuleWiring
