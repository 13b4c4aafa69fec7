import ModuleWiring.Json.Lexer

/-!
# Reading JSON

The tokens of a text are taken one by one by a machine that remembers which
arrays and objects are still open.
-/

namespace ModuleWiring.Json

/-- An array or object that is still open: its contents so far, last first. In
an object, the key waits for its value. -/
inductive Frame where
  | items (read : List Json)
  | member (key : JsonText) (read : List (JsonText × Json))

/-- What may come next, under the frames that are open. -/
inductive Reading where
  | atValue (frames : List Frame)
  | atFirstItem (frames : List Frame)
  | atFirstKey (frames : List Frame)
  | atKey (read : List (JsonText × Json)) (frames : List Frame)
  | atColon (key : JsonText) (read : List (JsonText × Json))
      (frames : List Frame)
  | afterItem (read : List Json) (frames : List Frame)
  | afterMember (read : List (JsonText × Json)) (frames : List Frame)
  | complete (value : Json)

namespace Reading

/-- Hand a finished value to the frame that waits for it. -/
def place (value : Json) : List Frame → Reading
  | [] => .complete value
  | .items read :: frames => .afterItem (value :: read) frames
  | .member key read :: frames => .afterMember ((key, value) :: read) frames

/-- Take a token where a value has to start. -/
def start (frames : List Frame) : Token → Option Reading
  | .null => some (place .null frames)
  | .bool value => some (place (.bool value) frames)
  | .number literal => some (place (.number literal) frames)
  | .string text => some (place (.string text) frames)
  | .openBracket => some (.atFirstItem frames)
  | .openBrace => some (.atFirstKey frames)
  | _ => none

/-- Take one token; `none` where it may not stand here. -/
def step : Reading → Token → Option Reading
  | .atValue frames, token => start frames token
  | .atFirstItem frames, .closeBracket => some (place (.array []) frames)
  | .atFirstItem frames, token => start (.items [] :: frames) token
  | .atFirstKey frames, .closeBrace => some (place (.object []) frames)
  | .atFirstKey frames, .string key => some (.atColon key [] frames)
  | .atKey read frames, .string key => some (.atColon key read frames)
  | .atColon key read frames, .colon =>
      some (.atValue (.member key read :: frames))
  | .afterItem read frames, .comma => some (.atValue (.items read :: frames))
  | .afterItem read frames, .closeBracket =>
      some (place (.array read.reverse) frames)
  | .afterMember read frames, .comma => some (.atKey read frames)
  | .afterMember read frames, .closeBrace =>
      some (place (.object read.reverse) frames)
  | _, _ => none

def value? : Reading → Option Json
  | .complete value => some value
  | _ => none

end Reading

def ofTokens? (tokens : List Token) : Option Json := do
  (← tokens.foldlM Reading.step (.atValue [])).value?

/-- Read a JSON text that holds one value and nothing else. -/
def parse? (text : String) : Option Json := do
  ofTokens? (← tokens? text.toList)

end ModuleWiring.Json
