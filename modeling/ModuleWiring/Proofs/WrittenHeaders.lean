import ModuleWiring.Proofs.HeaderGrammar

/-!
# Headers as they are written

The text of a header is put together from clauses: the paths, then the parameters
with their values in quotes, joined by semicolons, and the clauses joined by commas,
with blanks wherever they do not count.  Main statement: reading such a text gives
back the clauses that were written.
-/

namespace ModuleWiring

/-- A path that can stand without quotes. -/
def IsPlainPath (path : String) : Prop :=
  path.toList ≠ [] ∧ Text.IsBare path.toList ∧
    ∀ c ∈ path.toList, c ∉ [',', ';', '=', '"']

/-- A name that can stand in front of a sign. -/
def IsPlainName (name : String) : Prop :=
  name.toList ≠ [] ∧ ∀ c ∈ name.toList,
    Text.isBlank c = false ∧ c ∉ [',', ';', '=', ':', '"']

instance (path : String) : Decidable (IsPlainPath path) :=
  @instDecidableAnd _ _ _ <| @instDecidableAnd _ _ _ (List.decidableBAll _ _)

instance (name : String) : Decidable (IsPlainName name) :=
  @instDecidableAnd _ _ _ (List.decidableBAll _ _)

/-- The sign between the name and the value of a parameter. -/
def Parameter.sign (parameter : Parameter) : List Char :=
  if parameter.isDirective then [':', '='] else ['=']

/-- A parameter is written as its name, its sign and its value in quotes, with
blanks before and after the sign. -/
def Parameter.IsWrittenAs (parameter : Parameter) (text : List Char) : Prop :=
  ∃ before after, Text.AllBlank before ∧ Text.AllBlank after ∧
    text = parameter.name.toList ++ before ++ parameter.sign ++ after ++
      Text.inQuotes parameter.value.toList

namespace Clause

/-- A clause that can be written: its paths and names need no quotes, and its values
have none in them. -/
structure IsPlain (clause : Clause) : Prop where
  paths_ne_nil : clause.paths ≠ []
  paths : ∀ path ∈ clause.paths, IsPlainPath path
  names : ∀ isDirective, ∀ name ∈ (clause.table isDirective).keys,
    IsPlainName name
  values : ∀ isDirective, ∀ value ∈ (clause.table isDirective).values,
    '"' ∉ value.toList

instance (clause : Clause) : Decidable clause.IsPlain :=
  decidable_of_iff
    (clause.paths ≠ [] ∧ (∀ path ∈ clause.paths, IsPlainPath path) ∧
      (∀ isDirective, ∀ name ∈ (clause.table isDirective).keys,
        IsPlainName name) ∧
      ∀ isDirective, ∀ value ∈ (clause.table isDirective).values,
        '"' ∉ value.toList)
    ⟨fun plain => ⟨plain.1, plain.2.1, plain.2.2.1, plain.2.2.2⟩,
      fun plain => ⟨plain.1, plain.2, plain.3, plain.4⟩⟩

/-- A clause is written as its paths and then its parameters, those of both kinds in
one order, with semicolons and blanks between them. -/
def IsWrittenAs (clause : Clause) (text : List Char) : Prop :=
  ∃ parameters pathTexts parameterTexts,
    (∀ isDirective, (clause.table isDirective).entries =
      Parameter.entries isDirective parameters) ∧
    List.Forall₂ (fun path text => Text.IsPadded path.toList text)
      clause.paths pathTexts ∧
    List.Forall₂ (fun parameter text =>
        ∃ core, parameter.IsWrittenAs core ∧ Text.IsPadded core text)
      parameters parameterTexts ∧
    text = [';'].intercalate (pathTexts ++ parameterTexts)

/-- Clauses are written one after the other, with commas between them. -/
def AreWrittenAs (clauses : List Clause) (text : List Char) : Prop :=
  ∃ texts, List.Forall₂ IsWrittenAs clauses texts ∧
    text = [','].intercalate texts

end Clause

/-! ## Sealed pieces -/

namespace Text

variable {c separator : Char} {core text : List Char}
  {parts : List (List Char)}

theorem isBlank_of_separator (separator : c ∈ [',', ';']) :
    isBlank c = false := by
  rcases List.mem_pair.1 separator with rfl | rfl <;> decide

theorem isSealed_of_allBlank (inked : isBlank c = false)
    (blank : AllBlank text) : IsSealed c text := by
  refine isSealed_of_not_mem (fun quote => ?_) fun member => ?_
  · exact absurd (blank _ quote) (by decide)
  · exact absurd (blank _ member) (by simp [inked])

theorem IsSealed.of_padded (inked : isBlank c = false)
    (closed : IsSealed c core) (padded : IsPadded core text) :
    IsSealed c text := by
  obtain ⟨front, back, before, after, rfl⟩ := padded
  exact ((isSealed_of_allBlank inked before).append closed).append
    (isSealed_of_allBlank inked after)

theorem isSealed_intercalate (plain : separator ≠ '"')
    (other : separator ≠ c) (closed : ∀ part ∈ parts, IsSealed c part) :
    IsSealed c ([separator].intercalate parts) := by
  induction parts with
  | nil => exact isSealed_nil c
  | cons part parts inductionHypothesis =>
      obtain ⟨first, others⟩ := List.forall_mem_cons.1 closed
      by_cases last : parts = []
      · rw [last, List.intercalate_singleton]
        exact first
      · have joint : IsSealed c [separator] :=
          isSealed_of_not_mem (by simpa using plain.symm)
            (by simpa using other.symm)
        rw [List.intercalate_cons_of_ne_nil last]
        exact (first.append joint).append (inductionHypothesis others)

theorem isBare_inQuotes (text : List Char) : IsBare (inQuotes text) := by
  constructor
  · rintro c ⟨⟩
    rfl
  · intro c last
    rw [inQuotes, ← List.cons_append, List.getLast?_concat] at last
    cases last
    rfl

theorem isBare_append {front back : List Char} (middle : List Char)
    (nonempty : front ≠ []) (nonempty' : back ≠ []) (first : IsBare front)
    (last : IsBare back) : IsBare (front ++ middle ++ back) := by
  constructor
  · rw [List.append_assoc, List.head?_append_of_ne_nil _ nonempty]
    exact first.1
  · rw [List.getLast?_append_of_ne_nil _ nonempty']
    exact last.2

end Text

theorem IsPlainPath.isSealed {path : String} {c : Char}
    (plain : IsPlainPath path) (special : c ∈ [',', ';', '=', '"']) :
    Text.IsSealed c path.toList :=
  Text.isSealed_of_not_mem
    (fun quote => plain.2.2 _ quote (by decide))
    fun member => plain.2.2 _ member special

theorem IsPlainName.isSealed {name : String} {c : Char}
    (plain : IsPlainName name) (special : c ∈ [',', ';', '=', ':', '"']) :
    Text.IsSealed c name.toList :=
  Text.isSealed_of_not_mem
    (fun quote => (plain.2 _ quote).2 (by decide))
    fun member => (plain.2 _ member).2 special

theorem IsPlainName.isBare {name : String} (plain : IsPlainName name) :
    Text.IsBare name.toList :=
  Text.isBare_of_forall fun c member => (plain.2 c member).1

namespace Parameter

variable {parameter : Parameter} {core text : List Char}

theorem isSealed_sign {c : Char} (separator : c ∈ [',', ';']) :
    Text.IsSealed c parameter.sign := by
  unfold sign
  split <;> rcases List.mem_pair.1 separator with rfl | rfl <;> decide

theorem IsWrittenAs.isSealed {c : Char} (separator : c ∈ [',', ';'])
    (plain : IsPlainName parameter.name)
    (free : '"' ∉ parameter.value.toList)
    (written : parameter.IsWrittenAs core) : Text.IsSealed c core := by
  obtain ⟨before, after, blank, blank', rfl⟩ := written
  have inked := Text.isBlank_of_separator separator
  have special : c ∈ [',', ';', '=', ':', '"'] := by
    rcases List.mem_pair.1 separator with rfl | rfl <;> decide
  exact ((((plain.isSealed special).append
    (Text.isSealed_of_allBlank inked blank)).append
    (isSealed_sign separator)).append
    (Text.isSealed_of_allBlank inked blank')).append
    (Text.isSealed_inQuotes free)

theorem IsWrittenAs.isBare (plain : IsPlainName parameter.name)
    (written : parameter.IsWrittenAs core) : Text.IsBare core := by
  obtain ⟨before, after, -, -, rfl⟩ := written
  have assoc : parameter.name.toList ++ before ++ parameter.sign ++ after ++
      Text.inQuotes parameter.value.toList =
      parameter.name.toList ++ (before ++ parameter.sign ++ after) ++
        Text.inQuotes parameter.value.toList := by
    simp only [List.append_assoc]
  rw [assoc]
  exact Text.isBare_append _ plain.1 (List.cons_ne_nil _ _) plain.isBare
    (Text.isBare_inQuotes _)

/-- Before the sign, blanks and a colon are taken off the name. -/
theorem parameterName_written {name before : List Char} (bare : Text.IsBare name)
    (free : ':' ∉ name) (blank : Text.AllBlank before) (isDirective : Bool) :
    Clause.parameterName
        (name ++ before ++ if isDirective then [':'] else []) =
      (name, isDirective) := by
  have trimmed : Text.trim (name ++ before) = name :=
    Text.trim_of_padded ⟨[], before, Text.allBlank_nil, blank, rfl⟩ bare
  unfold Clause.parameterName
  cases isDirective with
  | true =>
      rw [if_pos rfl, if_pos List.getLast?_concat, List.dropLast_concat, trimmed]
  | false =>
      have other : (name ++ before).getLast? ≠ some ':' := by
        intro last
        rcases List.mem_append.1 (List.mem_of_getLast? last) with named | padding
        · exact free named
        · exact absurd (blank _ padding) (by decide)
      rw [if_neg Bool.false_ne_true, List.append_nil, if_neg other, trimmed]

/-- A parameter is spelled by what it is written as. -/
theorem IsWrittenAs.isSpelledBy (plain : IsPlainName parameter.name)
    (written : parameter.IsWrittenAs core) : parameter.IsSpelledBy core := by
  obtain ⟨before, after, blank, blank', rfl⟩ := written
  refine ⟨parameter.name.toList ++ before ++
      if parameter.isDirective then [':'] else [],
    after ++ Text.inQuotes parameter.value.toList, ?_, ?_, ?_, ?_, ?_⟩
  · unfold sign
    split <;> simp
  · refine ((plain.isSealed (by decide)).append
      (Text.isSealed_of_allBlank (by decide) blank)).append ?_
    split <;> decide
  · exact parameterName_written plain.isBare
      (fun colon => (plain.2 _ colon).2 (by decide)) blank _
  · exact Clause.isName_iff.2 ⟨plain.1, fun c member => (plain.2 c member).1⟩
  · have trimmed : Text.trim (after ++ Text.inQuotes parameter.value.toList) =
        Text.inQuotes parameter.value.toList :=
      Text.trim_of_padded
        ⟨after, [], blank', Text.allBlank_nil, (List.append_nil _).symm⟩
        (Text.isBare_inQuotes _)
    rw [trimmed, Text.unquote_inQuotes, String.ofList_toList]

end Parameter

namespace Clause

variable {clause : Clause} {clauses : List Clause} {text : List Char}

theorem spelled_of_paths {paths : List String}
    {elements pathTexts : List (List Char)} {parameters : List Parameter}
    (plain : ∀ path ∈ paths, IsPlainPath path)
    (padded : List.Forall₂ (fun path text => Text.IsPadded path.toList text)
      paths pathTexts)
    (others : Spelled elements [] parameters) :
    Spelled (pathTexts ++ elements) paths parameters := by
  induction padded with
  | nil => exact others
  | @cons path text paths texts padded rest inductionHypothesis =>
      obtain ⟨first, later⟩ := List.forall_mem_cons.1 plain
      have trimmed : Text.trim text = path.toList :=
        Text.trim_of_padded padded first.2.1
      have bare : Text.unquote path.toList = path.toList :=
        Text.unquote_of_head? fun quote =>
          first.2.2 _ (List.mem_of_head? quote) (by decide)
      have spelled := Spelled.path (trimmed ▸ first.1)
        (trimmed ▸ (first.isSealed (by decide)).2)
        (inductionHypothesis later)
      rwa [trimmed, bare, String.ofList_toList] at spelled

theorem spelled_of_parameters {parameters : List Parameter}
    {texts : List (List Char)}
    (plain : ∀ parameter ∈ parameters, IsPlainName parameter.name)
    (written : List.Forall₂ (fun parameter text =>
        ∃ core, parameter.IsWrittenAs core ∧ Text.IsPadded core text)
      parameters texts) :
    Spelled texts [] parameters := by
  induction written with
  | nil => exact .nil
  | @cons parameter text _ _ written rest inductionHypothesis =>
      obtain ⟨first, later⟩ := List.forall_mem_cons.1 plain
      obtain ⟨core, written, padded⟩ := written
      refine .parameter ?_ (inductionHypothesis later)
      rw [Text.trim_of_padded padded (written.isBare first)]
      exact written.isSpelledBy first

theorem IsPlain.of_mem (plain : clause.IsPlain) {parameters : List Parameter}
    (entries : ∀ isDirective, (clause.table isDirective).entries =
      Parameter.entries isDirective parameters)
    {parameter : Parameter} (member : parameter ∈ parameters) :
    IsPlainName parameter.name ∧ '"' ∉ parameter.value.toList := by
  have listed : (parameter.name, parameter.value) ∈
      (clause.table parameter.isDirective).entries := by
    rw [entries]
    exact List.mem_map.2
      ⟨parameter, List.mem_filter.2 ⟨member, by simp⟩, rfl⟩
  exact ⟨plain.names _ _ (List.mem_map_of_mem listed),
    plain.values _ _ (List.mem_map_of_mem listed)⟩

/-- Each element of a written clause hides the separators that it has. -/
theorem IsPlain.isSealed_of_mem (plain : clause.IsPlain)
    {parameters : List Parameter}
    (entries : ∀ isDirective, (clause.table isDirective).entries =
      Parameter.entries isDirective parameters)
    {pathTexts parameterTexts : List (List Char)}
    (padded : List.Forall₂ (fun path text => Text.IsPadded path.toList text)
      clause.paths pathTexts)
    (written : List.Forall₂ (fun parameter text =>
        ∃ core, parameter.IsWrittenAs core ∧ Text.IsPadded core text)
      parameters parameterTexts)
    {c : Char} (separator : c ∈ [',', ';']) :
    ∀ element ∈ pathTexts ++ parameterTexts, Text.IsSealed c element := by
  have inked := Text.isBlank_of_separator separator
  have special : c ∈ [',', ';', '=', '"'] := by
    rcases List.mem_pair.1 separator with rfl | rfl <;> decide
  refine List.forall_mem_append.2
    ⟨forall_mem_of_forall₂ padded fun path member element padded => ?_,
      forall_mem_of_forall₂ written fun parameter member element written => ?_⟩
  · exact .of_padded inked ((plain.paths path member).isSealed special) padded
  · obtain ⟨core, written, padded⟩ := written
    obtain ⟨named, free⟩ := plain.of_mem entries member
    exact .of_padded inked (written.isSealed separator named free) padded

theorem IsWrittenAs.isSpelledBy (plain : clause.IsPlain)
    (written : clause.IsWrittenAs text) : clause.IsSpelledBy text := by
  obtain ⟨parameters, pathTexts, parameterTexts, entries, padded, written,
    joined⟩ := written
  refine ⟨pathTexts ++ parameterTexts, parameters, ⟨?_, joined, ?_⟩, ?_,
    plain.paths_ne_nil, ⟨rfl, fun isDirective => ?_⟩⟩
  · intro nothing
    obtain ⟨rfl, -⟩ := List.append_eq_nil_iff.1 nothing
    exact plain.paths_ne_nil (List.forall₂_nil_right_iff.1 padded)
  · exact plain.isSealed_of_mem entries padded written (by decide)
  · exact spelled_of_paths plain.paths padded
      (spelled_of_parameters
        (fun _ member => (plain.of_mem entries member).1) written)
  · rw [entries, entries_empty, List.nil_append]

theorem IsWrittenAs.isSealed (plain : clause.IsPlain)
    (written : clause.IsWrittenAs text) : Text.IsSealed ',' text := by
  obtain ⟨parameters, pathTexts, parameterTexts, entries, padded, written,
    rfl⟩ := written
  exact Text.isSealed_intercalate (by decide) (by decide)
    (plain.isSealed_of_mem entries padded written (by decide))

/-- A header is read back as it was written, wherever blanks were put. -/
theorem parseHeader_of_written (header : String) {text : String}
    (nonempty : clauses ≠ []) (plain : ∀ clause ∈ clauses, clause.IsPlain)
    (written : AreWrittenAs clauses text.toList) :
    parseHeader header text = .ok clauses := by
  obtain ⟨texts, written, joined⟩ := written
  have spelled : List.Forall₂ (fun text clause => IsSpelledBy clause text)
      texts clauses :=
    (((List.forall₂_and_left clauses texts).2 ⟨plain, written⟩).imp
      fun _ _ both => both.2.isSpelledBy both.1).flip
  refine parseHeader_eq_ok_iff.2 (.inr ⟨texts, ⟨?_, joined, ?_⟩, spelled⟩)
  · rintro rfl
    exact nonempty (List.forall₂_nil_right_iff.1 written)
  · exact forall_mem_of_forall₂ written fun clause member _ written =>
      written.isSealed (plain clause member)

end Clause

namespace Sample

/-- Two clauses whose values hold every character with a meaning but the quote. -/
def packed : List Clause :=
  [⟨["a b", "c:"], ⟨.ofList [("v", "[1,2);x=y:=z"), ("w", "")],
      .ofList [("v", " u ")]⟩⟩,
    ⟨["d"], Parameters.none⟩]

/-- The clauses with blanks in all places that may have some. -/
def packedText : String :=
  "a b ;c:;v\t= \"[1,2);x=y:=z\" ;v :=\" u \"; w=\"\" , d"

end Sample

theorem Clause.packed_read_back :
    Sample.packed ≠ [] ∧ (∀ clause ∈ Sample.packed, clause.IsPlain) ∧
    AreWrittenAs Sample.packed Sample.packedText.toList ∧
    parseHeader "Import-Package" Sample.packedText = .ok Sample.packed := by
  have nonempty : Sample.packed ≠ [] := List.cons_ne_nil _ _
  have plain : ∀ clause ∈ Sample.packed, clause.IsPlain := by
    decide +kernel
  have written : AreWrittenAs Sample.packed Sample.packedText.toList := by
    refine ⟨["a b ;c:;v\t= \"[1,2);x=y:=z\" ;v :=\" u \"; w=\"\" ".toList,
      " d".toList], .cons ?_ (.cons ?_ .nil), by decide +kernel⟩
    · refine ⟨[⟨false, "v", "[1,2);x=y:=z"⟩, ⟨true, "v", " u "⟩,
          ⟨false, "w", ""⟩], ["a b ".toList, "c:".toList],
        ["v\t= \"[1,2);x=y:=z\" ".toList, "v :=\" u \"".toList,
          " w=\"\" ".toList], by decide +kernel,
        .cons ⟨[], [' '], ?_⟩ (.cons ⟨[], [], ?_⟩ .nil),
        .cons ⟨"v\t= \"[1,2);x=y:=z\"".toList, ⟨['\t'], [' '], ?_⟩,
            [], [' '], ?_⟩
          (.cons ⟨"v :=\" u \"".toList, ⟨[' '], [], ?_⟩, [], [], ?_⟩
            (.cons ⟨"w=\"\"".toList, ⟨[], [], ?_⟩, [' '], [' '], ?_⟩ .nil)),
        ?_⟩ <;> decide +kernel
    · refine ⟨[], [" d".toList], [], by decide +kernel,
        .cons ⟨[' '], [], ?_⟩ .nil, .nil, ?_⟩ <;> decide +kernel
  exact ⟨nonempty, plain, written,
    parseHeader_of_written _ nonempty plain written⟩

end ModuleWiring
