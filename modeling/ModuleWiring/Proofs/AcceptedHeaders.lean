import ModuleWiring.Manifest.Basic
import ModuleWiring.Proofs.HeaderGrammar

/-!
# What accepted headers look like

Every clause of an accepted header names a path, and the names of its parameters are
neither empty nor taken twice.  Empty elements are refused, but before quotes are
taken off: a pair of quotes with nothing between them becomes a path without a
character.  It is the only way to get one.
-/

namespace ModuleWiring

namespace Clause

/-- What every clause of an accepted header is like. -/
structure IsWellFormed (clause : Clause) : Prop where
  paths_ne_nil : clause.paths ≠ []
  named : ∀ isDirective, ∀ name ∈ (clause.table isDirective).keys,
    name ≠ "" ∧ ∀ c ∈ name.toList, Text.isBlank c = false
  distinct : ∀ isDirective, (clause.table isDirective).keys.Nodup

/-- An element of a header stands between two semicolons of one of its clauses. -/
def HasElement (value element : List Char) : Prop :=
  ∃ texts text elements, Text.IsCut ',' value texts ∧ text ∈ texts ∧
    Text.IsCut ';' text elements ∧ element ∈ elements

/-- An element of the header is a pair of quotes with nothing between them, but for
blanks around it. -/
def QuotesNothing (value : List Char) : Prop :=
  ∃ element, HasElement value element ∧
    Text.IsPadded (Text.inQuotes []) element

variable {clause : Clause} {clauses : List Clause} {paths : List String}
  {parameters : List Parameter} {text : List Char}
  {elements : List (List Char)} {header value : String}

theorem isPadded_quotes_iff {element : List Char} :
    Text.IsPadded (Text.inQuotes []) element ↔
      Text.trim element = Text.inQuotes [] := by
  rw [Text.trim_eq_iff, and_iff_left (by decide)]

/-- A path is empty where nothing stands between its quotes. -/
theorem Spelled.mem_empty_iff
    (spelled : Spelled elements paths parameters) :
    "" ∈ paths ↔
      ∃ element ∈ elements, Text.IsPadded (Text.inQuotes []) element := by
  induction spelled with
  | nil => simp
  | @path element rest paths parameters nonempty plain others
      inductionHypothesis =>
      have first : "" = String.ofList (Text.unquote (Text.trim element)) ↔
          Text.IsPadded (Text.inQuotes []) element := by
        rw [eq_comm, String.ofList_eq_empty_iff, Text.unquote_eq_nil_iff,
          or_iff_right nonempty, isPadded_quotes_iff]
      rw [List.mem_cons, first, inductionHypothesis, List.exists_mem_cons_iff]
  | @parameter element rest parameter parameters read others
      inductionHypothesis =>
      have first : ¬Text.IsPadded (Text.inQuotes []) element := by
        rw [isPadded_quotes_iff]
        rintro nothing
        obtain ⟨before, after, split, -⟩ := read
        rw [nothing] at split
        have sign : '=' ∈ Text.inQuotes [] :=
          split ▸ List.mem_append_right _ (List.mem_cons_self ..)
        exact absurd sign (by decide)
      rw [inductionHypothesis, List.exists_mem_cons_iff, or_iff_right first]

theorem Spelled.isName_of_mem
    (spelled : Spelled elements paths parameters) :
    ∀ parameter ∈ parameters, isName parameter.name.toList = true := by
  induction spelled with
  | nil => exact fun _ member => nomatch member
  | path _ _ _ inductionHypothesis => exact inductionHypothesis
  | parameter read others inductionHypothesis =>
      obtain ⟨_, _, -, -, -, named, -⟩ := read
      exact List.forall_mem_cons.2 ⟨named, inductionHypothesis⟩

theorem IsSpelledBy.isWellFormed (spelled : clause.IsSpelledBy text) :
    clause.IsWellFormed := by
  obtain ⟨elements, parameters, -, spelled, nonempty, whole⟩ := spelled
  refine ⟨nonempty, fun isDirective name member => ?_,
    fun isDirective => (clause.table isDirective).distinct⟩
  rw [Table.keys, whole.entries_eq, entries_empty, List.nil_append,
    Parameter.entries, List.map_map] at member
  obtain ⟨parameter, listed, rfl⟩ := List.mem_map.1 member
  obtain ⟨some, plain⟩ := isName_iff.1
    (spelled.isName_of_mem parameter (List.mem_filter.1 listed).1)
  exact ⟨fun nothing => some (String.toList_eq_nil_iff.2 nothing), plain⟩

/-- A clause has an empty path exactly if one of its elements quotes nothing. -/
theorem IsSpelledBy.mem_empty_iff (spelled : clause.IsSpelledBy text) :
    "" ∈ clause.paths ↔ ∃ elements, Text.IsCut ';' text elements ∧
      ∃ element ∈ elements, Text.IsPadded (Text.inQuotes []) element := by
  obtain ⟨elements, parameters, cut, spelled, -⟩ := spelled
  rw [spelled.mem_empty_iff]
  constructor
  · exact fun found => ⟨elements, cut, found⟩
  · rintro ⟨others, cut', found⟩
    exact cut'.unique (by decide) cut ▸ found

/-- A header has an empty path exactly if one of its elements quotes nothing. -/
theorem exists_empty_path_iff
    (accepted : parseHeader header value = .ok clauses) :
    (∃ clause ∈ clauses, "" ∈ clause.paths) ↔ QuotesNothing value.toList := by
  obtain ⟨blank, rfl⟩ | ⟨texts, cut, spelled⟩ :=
    parseHeader_eq_ok_iff.1 accepted
  · have bare : ¬QuotesNothing value.toList := by
      rintro ⟨element, ⟨texts, text, elements, cut, member, cut', member'⟩,
        front, back, -, -, rfl⟩
      have quote : '"' ∈ value.toList :=
        cut.mem_of_mem_part member <|
          cut'.mem_of_mem_part member' (by simp [Text.inQuotes])
      exact absurd (blank _ quote) (by decide)
    simpa using bare
  · rw [← exists_mem_iff_of_forall₂ spelled fun text clause spelled =>
      spelled.mem_empty_iff.symm]
    constructor
    · rintro ⟨text, member, elements, cut', element, member', padded⟩
      exact ⟨element, ⟨texts, text, elements, cut, member, cut', member'⟩,
        padded⟩
    · rintro ⟨element, ⟨others, text, elements, other, member, cut', member'⟩,
        padded⟩
      exact ⟨text, other.unique (by decide) cut ▸ member, elements, cut',
        element, member', padded⟩

theorem isWellFormed_of_parseHeader
    (accepted : parseHeader header value = .ok clauses) :
    ∀ clause ∈ clauses, clause.IsWellFormed := by
  obtain ⟨-, rfl⟩ | ⟨texts, -, spelled⟩ := parseHeader_eq_ok_iff.1 accepted
  · exact fun _ member => nomatch member
  · exact forall_mem_of_forall₂ spelled fun _ _ _ spelled =>
      spelled.isWellFormed

/-- Only a blank header has no clauses. -/
theorem eq_nil_iff_of_parseHeader
    (accepted : parseHeader header value = .ok clauses) :
    clauses = [] ↔ Text.AllBlank value.toList := by
  obtain ⟨blank, rfl⟩ | ⟨texts, cut, spelled⟩ :=
    parseHeader_eq_ok_iff.1 accepted
  · exact iff_of_true rfl blank
  · refine iff_of_false ?_ (not_allBlank_of_spelled cut spelled)
    rintro rfl
    exact cut.nonempty (List.forall₂_nil_right_iff.1 spelled)

end Clause

namespace Manifest

variable {headers : Table String String} {manifest : Manifest}

theorem identity_of_ofHeaders (made : ofHeaders headers = .ok manifest) :
    ∃ parameters, identity headers = .ok (manifest.symbolicName, parameters) := by
  unfold ofHeaders at made
  simp only [bind_eq_ok_iff] at made
  obtain ⟨⟨symbolicName, parameters⟩, identified, singleton, -, made⟩ := made
  refine ⟨parameters, ?_⟩
  -- What is read from the other headers leaves the name alone.
  split at made <;>
  · simp only [bind_eq_ok_iff] at made
    obtain ⟨version, -, attachment, -, exports, -, imports, -, requires, -,
      dynamicImports, -, made⟩ := made
    split at made <;>
    · rw [bind_eq_ok_iff] at made
      obtain ⟨host, -, made⟩ := made
      cases made
      exact identified

theorem header?_of_unlessBlank {name value : String}
    (found : (header? headers name).bind unlessBlank = some value) :
    header? headers name = some value := by
  obtain ⟨text, held, kept⟩ := Option.bind_eq_some_iff.1 found
  unfold unlessBlank at kept
  split at kept
  · cases kept
  · cases kept
    exact held

/-- The symbolic name is the one path of the one clause of its header. -/
theorem parseHeader_of_ofHeaders (made : ofHeaders headers = .ok manifest) :
    ∃ value parameters, header? headers nameHeader = some value ∧
      Clause.parseHeader nameHeader value =
        .ok [⟨[manifest.symbolicName], parameters⟩] := by
  obtain ⟨parameters, identified⟩ := identity_of_ofHeaders made
  unfold identity at identified
  split at identified
  · cases identified
  · rename_i value found
    rw [bind_eq_ok_iff] at identified
    obtain ⟨clauses, parsed, identified⟩ := identified
    split at identified
    · cases identified
      exact ⟨value, parameters, header?_of_unlessBlank found, parsed⟩
    · cases identified

theorem symbolicName_eq_empty_iff (made : ofHeaders headers = .ok manifest) :
    manifest.symbolicName = "" ↔
      ∃ value, header? headers nameHeader = some value ∧
        Clause.QuotesNothing value.toList := by
  obtain ⟨value, parameters, found, parsed⟩ := parseHeader_of_ofHeaders made
  have quoted := Clause.exists_empty_path_iff parsed
  simp only [List.mem_singleton, exists_eq_left] at quoted
  rw [found, eq_comm, quoted]
  simp

end Manifest

/-- The clauses of an accepted header are well formed but for empty paths, which
stand for quotes with nothing between them.  In particular a symbolic name is empty
exactly if it is such a pair of quotes. -/
theorem Clause.wellFormed_unless_quotes_nothing (header value : String)
    (headers : Table String String) :
    (∀ clauses, parseHeader header value = .ok clauses →
      (∀ clause ∈ clauses, clause.IsWellFormed) ∧
      (clauses = [] ↔ Text.AllBlank value.toList) ∧
      ((∃ clause ∈ clauses, "" ∈ clause.paths) ↔
        QuotesNothing value.toList)) ∧
    ∀ manifest, Manifest.ofHeaders headers = .ok manifest →
      (manifest.symbolicName = "" ↔
        ∃ value, Manifest.header? headers Manifest.nameHeader = some value ∧
          QuotesNothing value.toList) :=
  ⟨fun _ accepted => ⟨isWellFormed_of_parseHeader accepted,
      eq_nil_iff_of_parseHeader accepted, exists_empty_path_iff accepted⟩,
    fun _ => Manifest.symbolicName_eq_empty_iff⟩

/-- A pair of quotes is accepted as a path, and as a symbolic name. -/
theorem Clause.empty_quotes_accepted :
    parseHeader "Export-Package" "a, \"\"" =
      .ok [⟨["a"], Parameters.none⟩, ⟨[""], Parameters.none⟩] ∧
    QuotesNothing "a, \"\"".toList ∧
    Manifest.ofHeaders (.ofList [("Bundle-SymbolicName", "\"\"")]) =
      .ok (Manifest.of "" .zero) ∧
    QuotesNothing "\"\"".toList := by
  have parsed : parseHeader "Export-Package" "a, \"\"" =
      .ok [⟨["a"], Parameters.none⟩, ⟨[""], Parameters.none⟩] := by
    decide +kernel
  have made : Manifest.ofHeaders
      (.ofList [("Bundle-SymbolicName", "\"\"")]) =
      .ok (Manifest.of "" .zero) := by
    decide +kernel
  obtain ⟨accepted, named⟩ := wellFormed_unless_quotes_nothing
    "Export-Package" "a, \"\"" (.ofList [("Bundle-SymbolicName", "\"\"")])
  have empty := (accepted _ parsed).2.2.1
    ⟨⟨[""], Parameters.none⟩, by simp, by simp⟩
  obtain ⟨value, found, quoted⟩ := (named _ made).1 rfl
  have held : Manifest.header?
      (.ofList [("Bundle-SymbolicName", "\"\"")]) Manifest.nameHeader =
      some "\"\"" := by
    decide +kernel
  have same : value = "\"\"" := Option.some.inj (found.symm.trans held)
  exact ⟨parsed, empty, made, same ▸ quoted⟩

end ModuleWiring
