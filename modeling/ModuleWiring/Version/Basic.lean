/-!
# Versions

A version has three numbers and a qualifier. Numbers compare numerically,
qualifiers by code points, and the empty qualifier comes before all others.
-/

namespace ModuleWiring

/-- A `major.minor.micro.qualifier` version. -/
structure Version where
  major : UInt64
  minor : UInt64
  micro : UInt64
  qualifier : String
  deriving DecidableEq, Repr, Inhabited

namespace Version

def zero : Version :=
  ⟨0, 0, 0, ""⟩

/-- Compare the numbers from left to right, then the qualifiers. -/
def order (left right : Version) : Ordering :=
  (compare left.major right.major).then <|
    (compare left.minor right.minor).then <|
      (compare left.micro right.micro).then <|
        compare left.qualifier right.qualifier

instance : Ord Version :=
  ⟨order⟩

instance : LT Version :=
  ltOfOrd

instance : LE Version :=
  leOfOrd

def number (value : UInt64) : String :=
  value.toNat.repr

/-- The text of a version: three numbers always, a qualifier where there is
one. -/
def render (version : Version) : String :=
  number version.major ++ "." ++ number version.minor ++ "." ++
    number version.micro ++
      if version.qualifier = "" then "" else "." ++ version.qualifier

instance : ToString Version :=
  ⟨render⟩

end Version

end ModuleWiring
