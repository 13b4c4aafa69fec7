import ModuleWiring.Version.Basic
import ModuleWiring.Version.Error

/-!
# Ranges of versions

A range has a lower bound, perhaps an upper one, and says of each whether the
bound itself belongs to it.
-/

namespace ModuleWiring

/-- An interval of versions; without `high` it has no upper end. -/
structure VersionRange where
  low : Version
  high : Option Version
  lowInclusive : Bool
  highInclusive : Bool
  deriving DecidableEq, Repr

namespace VersionRange

def atLeast (low : Version) : VersionRange :=
  ⟨low, none, true, false⟩

def exact (version : Version) : VersionRange :=
  ⟨version, some version, true, true⟩

/-- Every version lies in the range that a requirement gets when it names
none. -/
def everything : VersionRange :=
  atLeast Version.zero

instance : Inhabited VersionRange :=
  ⟨everything⟩

/-- The written form of two bounds between their brackets. -/
def bracketed
    (low : Version) (lowInclusive : Bool)
    (high : String) (highInclusive : Bool) : String :=
  (if lowInclusive then "[" else "(") ++ low.render ++ "," ++ high ++
    (if highInclusive then "]" else ")")

/-- A range between two bounds; a lower bound above the upper one is an
error. -/
def between
    (low : Version) (lowInclusive : Bool)
    (high : Option Version) (highInclusive : Bool) :
    Except VersionError VersionRange :=
  match high with
  | none => .ok ⟨low, none, lowInclusive, highInclusive⟩
  | some top =>
      if top < low then
        .error (.invertedRange
          (bracketed low lowInclusive top.render highInclusive))
      else
        .ok ⟨low, some top, lowInclusive, highInclusive⟩

def includes (range : VersionRange) (version : Version) : Bool :=
  let aboveLow :=
    decide (range.low < version) ||
      (decide (version = range.low) && range.lowInclusive)
  let belowHigh :=
    match range.high with
    | none => true
    | some high =>
        decide (version < high) ||
          (decide (version = high) && range.highInclusive)
  aboveLow && belowHigh

/-- A range between equal bounds is empty unless both belong to it. -/
def isEmpty (range : VersionRange) : Bool :=
  match range.high with
  | none => false
  | some high =>
      decide (range.low = high) &&
        !(range.lowInclusive && range.highInclusive)

/-- The text of a range: a bare version where the range starts there and has no
end, brackets otherwise. -/
def render (range : VersionRange) : String :=
  match range.high with
  | some high =>
      bracketed range.low range.lowInclusive high.render range.highInclusive
  | none =>
      if range.lowInclusive then
        range.low.render
      else
        bracketed range.low false "∞" false

instance : ToString VersionRange :=
  ⟨render⟩

end VersionRange

end ModuleWiring
