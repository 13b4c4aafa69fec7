import ModuleWiring.Proofs.RangeGrammar
import ModuleWiring.Proofs.WrittenVersions

/-!
# Ranges as they are written

A range with an upper bound is written in brackets, one without as its lower bound
alone.  A lower bound that does not belong to the range has no such form; what is
written then names a bound that is no version.  Main statement: of the ranges that can
be made, exactly these are not read back from their text.
-/

namespace ModuleWiring

namespace VersionRange

variable {low high : Version} {lowInclusive highInclusive : Bool}
  {bound text : String} {range : VersionRange}

/-! ## Ranges that can be made -/

/-- The ranges that the constructors make and those that texts stand for. -/
inductive IsMade : VersionRange → Prop where
  | everything : IsMade everything
  | atLeast (low : Version) : IsMade (atLeast low)
  | exact (version : Version) : IsMade (exact version)
  | between {low : Version} {lowInclusive : Bool} {high : Option Version}
      {highInclusive : Bool} {range : VersionRange}
      (made : between low lowInclusive high highInclusive = .ok range) :
      IsMade range
  | parsed {text : String} {range : VersionRange}
      (read : parse text = .ok range) : IsMade range

theorem between_eq_ok_iff {high : Option Version} :
    between low lowInclusive high highInclusive = .ok range ↔
      (∀ top ∈ high, low ≤ top) ∧
        range = ⟨low, high, lowInclusive, highInclusive⟩ := by
  cases high with
  | none => simp [between, eq_comm]
  | some top =>
      simp only [between, compared_eq_ok_iff, Option.mem_some_iff,
        forall_eq']

/-- The bounds stand in their order, and nothing else is asked for. -/
theorem isMade_iff : range.IsMade ↔ ∀ high ∈ range.high, range.low ≤ high := by
  constructor
  · intro made
    cases made with
    | everything | atLeast => exact fun _ member => nomatch member
    | exact version =>
        rintro _ ⟨⟩
        exact Std.le_refl version
    | between made =>
        obtain ⟨ordered, rfl⟩ := between_eq_ok_iff.1 made
        exact ordered
    | parsed read =>
        cases parse_eq_ok_iff.1 read with
        | bare => exact fun _ member => nomatch member
        | enclosed _ _ _ ordered =>
            rintro _ ⟨⟩
            exact ordered
  · exact fun ordered => .between (between_eq_ok_iff.2 ⟨ordered, rfl⟩)

/-! ## Reading what is written -/

theorem toList_bracketed :
    (bracketed low lowInclusive bound highInclusive).toList =
      opening lowInclusive :: (low.render.toList ++ ',' :: bound.toList ++
        [closing highInclusive]) := by
  cases lowInclusive <;> cases highInclusive <;>
    simp [bracketed, opening, closing]

theorem trim_bracketed :
    Text.trim (bracketed low lowInclusive bound highInclusive).toList =
      (bracketed low lowInclusive bound highInclusive).toList := by
  rw [toList_bracketed]
  refine Text.trim_of_bare ⟨?_, ?_⟩
  · rintro _ ⟨⟩
    cases lowInclusive <;> rfl
  · rw [← List.cons_append, List.getLast?_concat]
    rintro _ ⟨⟩
    cases highInclusive <;> rfl

theorem parse_bracketed (plain : low.IsPlain) (free : ',' ∉ bound.toList) :
    parse (bracketed low lowInclusive bound highInclusive) =
      ofBounds (bracketed low lowInclusive bound highInclusive)
        lowInclusive highInclusive (low.render, bound) := by
  have brackets : Encloses lowInclusive highInclusive low.render.toList
      bound.toList (Text.trim
        (bracketed low lowInclusive bound highInclusive).toList) := by
    refine ⟨⟨plain.not_mem_render (by decide) (by decide), free⟩, ?_⟩
    rw [trim_bracketed, toList_bracketed]
  rw [brackets.parse_eq, String.ofList_toList, String.ofList_toList]

/-- A range with two bounds is read back as it is. -/
theorem parse_render_bounded (first : low.IsPlain) (second : high.IsPlain)
    (ordered : low ≤ high) :
    parse (render ⟨low, some high, lowInclusive, highInclusive⟩) =
      .ok ⟨low, some high, lowInclusive, highInclusive⟩ := by
  rw [render, parse_bracketed first
    (second.not_mem_render (by decide) (by decide)), ofBounds_eq_ok_iff]
  exact ⟨low, high, Version.parse_render_eq_ok_iff_isPlain.2 first,
    Version.parse_render_eq_ok_iff_isPlain.2 second, ordered, rfl⟩

/-- A lower bound alone is read back as the range that starts with it. -/
theorem parse_render_unbounded (plain : low.IsPlain) :
    parse (render ⟨low, none, true, highInclusive⟩) = .ok (atLeast low) := by
  have bare : Text.trim low.render.toList = low.render.toList :=
    Text.trim_of_bare (Text.isBare_of_forall (plain.forall_mem_render
      (by decide) fun _ qualifier => qualifier.not_blank))
  rw [render, parse_eq_ok_iff]
  dsimp only
  rw [if_pos rfl, bare]
  refine .bare ?_ (fun c first => ?_) ?_
  · simp [Version.toList_render, Version.numbers]
  · have member := List.mem_of_head? first
    constructor
    · rintro rfl
      exact plain.not_mem_render (by decide) (by decide) member
    · rintro rfl
      exact plain.not_mem_render (by decide) (by decide) member
  · rw [String.ofList_toList]
    exact Version.parse_render_eq_ok_iff_isPlain.2 plain

/-- The sign for the missing upper bound is no version. -/
theorem parse_render_open (plain : low.IsPlain) :
    parse (render ⟨low, none, false, highInclusive⟩) =
      .error (.invalidVersion "∞") := by
  have refused : Version.parse "∞" = .error (.invalidVersion "∞") := by
    decide +kernel
  rw [render]
  dsimp only
  rw [if_neg Bool.false_ne_true, parse_bracketed plain (by decide), ofBounds,
    bind_eq_error_iff]
  exact .inr ⟨low, Version.parse_render_eq_ok_iff_isPlain.2 plain,
    bind_eq_error_iff.2 (.inl refused)⟩

/-- Of the ranges between versions that have been read, exactly those with a lower bound
that does not belong to them and no upper bound are not read back from their text: the
sign for the missing bound is no version.  All others are read back as ranges that
include the same versions, and those that come from a text as they are. -/
theorem read_back_unless_open (range : VersionRange) (made : range.IsMade)
    (first : ∃ text, Version.parse text = .ok range.low)
    (second : ∀ high ∈ range.high, ∃ text, Version.parse text = .ok high) :
    ((∃ back, parse range.render = .ok back ∧
        ∀ version, back.includes version = range.includes version) ↔
      ¬(range.high = none ∧ range.lowInclusive = false)) ∧
    (range.high = none → range.lowInclusive = false →
      parse range.render = .error (.invalidVersion "∞")) ∧
    ∀ text, parse text = .ok range → parse range.render = .ok range := by
  obtain ⟨low, high, lowInclusive, highInclusive⟩ := range
  have plain := Version.exists_parse_eq_ok_iff.1 first
  cases high with
  | some high =>
      have read : parse (render ⟨low, some high, lowInclusive, highInclusive⟩) =
          .ok ⟨low, some high, lowInclusive, highInclusive⟩ :=
        parse_render_bounded plain
          (Version.exists_parse_eq_ok_iff.1 (second high rfl))
          (isMade_iff.1 made high rfl)
      exact ⟨iff_of_true ⟨_, read, fun _ => rfl⟩ nofun, nofun,
        fun _ _ => read⟩
  | none =>
      cases lowInclusive with
      | true =>
          have read : parse (render ⟨low, none, true, highInclusive⟩) =
              .ok (atLeast low) := parse_render_unbounded plain
          refine ⟨iff_of_true ⟨_, read, fun _ => rfl⟩ nofun, nofun,
            fun text spelt => ?_⟩
          cases parse_eq_ok_iff.1 spelt
          exact read
      | false =>
          have refused : parse (render ⟨low, none, false, highInclusive⟩) =
              .error (.invalidVersion "∞") := parse_render_open plain
          refine ⟨iff_of_false ?_ (not_not.2 ⟨rfl, rfl⟩), fun _ _ => refused,
            fun text spelt => ?_⟩
          · rintro ⟨back, read, -⟩
            rw [refused] at read
            cases read
          · cases parse_eq_ok_iff.1 spelt

end VersionRange

namespace Sample

/-- All versions after one. -/
def beyond : VersionRange :=
  ⟨⟨1, 0, 0, ""⟩, none, false, false⟩

/-- A range as it is read from a text. -/
def bounded : VersionRange :=
  ⟨⟨1, 0, 0, ""⟩, some ⟨2, 5, 1, "rc"⟩, false, true⟩

end Sample

theorem VersionRange.open_end_not_read_back :
    between ⟨1, 0, 0, ""⟩ false none false = .ok Sample.beyond ∧
      Sample.beyond.render = "(1.0.0,∞)" ∧
      parse Sample.beyond.render = .error (.invalidVersion "∞") ∧
      (¬∃ back, parse Sample.beyond.render = .ok back ∧
        ∀ version, back.includes version = Sample.beyond.includes version) ∧
      parse " (1.0, 2.5.1.rc ] " = .ok Sample.bounded ∧
      parse Sample.bounded.render = .ok Sample.bounded := by
  have made : between ⟨1, 0, 0, ""⟩ false none false = .ok Sample.beyond := rfl
  have read : parse " (1.0, 2.5.1.rc ] " = .ok Sample.bounded := by
    decide +kernel
  obtain ⟨kept, refused, -⟩ := read_back_unless_open Sample.beyond
    (.between made) ⟨"1.0", by decide +kernel⟩ nofun
  obtain ⟨-, -, again⟩ := read_back_unless_open Sample.bounded (.parsed read)
    ⟨"1.0", by decide +kernel⟩
    (by rintro _ ⟨⟩; exact ⟨"2.5.1.rc", by decide +kernel⟩)
  exact ⟨made, by decide +kernel, refused rfl rfl,
    fun found => kept.1 found ⟨rfl, rfl⟩, read, again _ read⟩

end ModuleWiring
