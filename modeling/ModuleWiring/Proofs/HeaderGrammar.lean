import Mathlib.Data.List.Forall2
import ModuleWiring.Manifest.Clause
import ModuleWiring.Proofs.Blanks
import ModuleWiring.Proofs.Failing
import ModuleWiring.Proofs.Quotes
import ModuleWiring.Proofs.Tables

/-!
# The grammar of headers

Which clauses a text spells is said by a grammar: a text is cut at the commas
outside quotes, a clause at the semicolons, and an element without an equals sign
outside quotes is a path.  Main statement: reading accepts exactly what the grammar
allows, and returns the clauses that the text spells.
-/

namespace ModuleWiring

/-! ## Lists of partners -/

/-- What follows for each partner holds of all of them. -/
theorem forall_mem_of_forall₂ {α β : Type} {Rel : α → β → Prop}
    {Holds : β → Prop} {items : List α} {partners : List β}
    (related : List.Forall₂ Rel items partners)
    (follows : ∀ item ∈ items, ∀ partner, Rel item partner → Holds partner) :
    ∀ partner ∈ partners, Holds partner := by
  induction related with
  | nil => exact fun _ member => nomatch member
  | cons first rest inductionHypothesis =>
      obtain ⟨head, tail⟩ := List.forall_mem_cons.1 follows
      exact List.forall_mem_cons.2 ⟨head _ first, inductionHypothesis tail⟩

/-- Partners that are alike have the same members with what they have in common. -/
theorem exists_mem_iff_of_forall₂ {α β : Type} {Rel : α → β → Prop}
    {Holds : α → Prop} {Holds' : β → Prop} {items : List α}
    {partners : List β} (related : List.Forall₂ Rel items partners)
    (alike : ∀ item partner, Rel item partner →
      (Holds item ↔ Holds' partner)) :
    (∃ item ∈ items, Holds item) ↔ ∃ partner ∈ partners, Holds' partner := by
  induction related with
  | nil => simp
  | cons first rest inductionHypothesis =>
      rw [List.exists_mem_cons_iff, List.exists_mem_cons_iff,
        inductionHypothesis, alike _ _ first]

/-! ## Tables -/

theorem Table.eq_of_entries {κ α : Type} {table other : Table κ α}
    (same : table.entries = other.entries) : table = other := by
  cases table
  cases other
  cases same
  rfl

section Keys

variable {κ α : Type} [DecidableEq κ] {table larger : Table κ α} {key : κ}
  {value : α}

theorem Table.contains_eq_false_iff :
    table.contains key = false ↔ key ∉ table.entries.map Prod.fst :=
  Bool.eq_false_iff.trans (not_congr mem_keys_iff.symm)

/-- A new key comes last. -/
theorem Table.entries_insert (new : table.contains key = false) :
    (table.insert key value).entries = table.entries ++ [(key, value)] := by
  rw [insert, dif_neg (contains_eq_false_iff.1 new)]

/-- Only a new key makes a table longer. -/
theorem Table.contains_eq_false_of_entries {rest : List (κ × α)}
    (longer : larger.entries = table.entries ++ (key, value) :: rest) :
    table.contains key = false := by
  have distinct := larger.distinct
  rw [longer, List.map_append, List.nodup_append] at distinct
  exact contains_eq_false_iff.2 fun member =>
    distinct.2.2 key member key (List.mem_cons_self ..) rfl

end Keys

/-! ## Clauses and their parameters -/

/-- A parameter as it is written in a clause. -/
structure Parameter where
  isDirective : Bool
  name : String
  value : String
  deriving DecidableEq, Repr

/-- The entries that parameters make among those of one kind. -/
def Parameter.entries (isDirective : Bool) (parameters : List Parameter) :
    List (String × String) :=
  (parameters.filter (·.isDirective = isDirective)).map fun parameter =>
    (parameter.name, parameter.value)

/-- The parameter that an element spells.  Its name is what stands before the first
equals sign outside quotes, but for a colon right before the sign. -/
def Parameter.IsSpelledBy (parameter : Parameter) (element : List Char) :
    Prop :=
  ∃ before after, element = before ++ '=' :: after ∧
    Text.IsSealed '=' before ∧
    Clause.parameterName before =
      (parameter.name.toList, parameter.isDirective) ∧
    Clause.isName parameter.name.toList = true ∧
    parameter.value = String.ofList (Text.unquote (Text.trim after))

theorem Parameter.IsSpelledBy.ne_nil {parameter : Parameter}
    {element : List Char} (read : parameter.IsSpelledBy element) :
    element ≠ [] := by
  obtain ⟨before, after, rfl, -⟩ := read
  simp

namespace Clause

/-- The parameters of one kind. -/
def table (clause : Clause) : Bool → Table String String
  | false => clause.parameters.attributes
  | true => clause.parameters.directives

/-- Elements that spell paths and, after them, parameters.  Blanks around an
element do not count. -/
inductive Spelled :
    List (List Char) → List String → List Parameter → Prop
  | nil : Spelled [] [] []
  | path {element : List Char} {rest : List (List Char)}
      {paths : List String} {parameters : List Parameter}
      (nonempty : Text.trim element ≠ [])
      (plain : '=' ∉ Text.outside (Text.trim element))
      (others : Spelled rest paths parameters) :
      Spelled (element :: rest)
        (String.ofList (Text.unquote (Text.trim element)) :: paths) parameters
  | parameter {element : List Char} {rest : List (List Char)}
      {parameter : Parameter} {parameters : List Parameter}
      (read : parameter.IsSpelledBy (Text.trim element))
      (others : Spelled rest [] parameters) :
      Spelled (element :: rest) [] (parameter :: parameters)

/-- A clause with further paths and parameters. -/
structure Extends (clause : Clause) (paths : List String)
    (parameters : List Parameter) (larger : Clause) : Prop where
  paths_eq : larger.paths = clause.paths ++ paths
  entries_eq : ∀ isDirective, (larger.table isDirective).entries =
    (clause.table isDirective).entries ++
      Parameter.entries isDirective parameters

/-- The text of a clause: elements between semicolons, at least one of them a
path. -/
def IsSpelledBy (clause : Clause) (text : List Char) : Prop :=
  ∃ elements parameters, Text.IsCut ';' text elements ∧
    Spelled elements clause.paths parameters ∧ clause.paths ≠ [] ∧
    empty.Extends clause.paths parameters clause

variable {clause larger result : Clause} {paths : List String}
  {parameter : Parameter} {parameters : List Parameter}
  {element whole text : List Char} {elements : List (List Char)}

theorem isName_iff {name : List Char} :
    isName name = true ↔ name ≠ [] ∧ ∀ c ∈ name, Text.isBlank c = false := by
  simp [isName, List.isEmpty_eq_false_iff]

theorem eq_of_table {other : Clause} (paths : clause.paths = other.paths)
    (entries : ∀ isDirective, (clause.table isDirective).entries =
      (other.table isDirective).entries) : clause = other := by
  obtain ⟨_, _, _⟩ := clause
  obtain ⟨_, _, _⟩ := other
  cases paths
  cases Table.eq_of_entries (entries false)
  cases Table.eq_of_entries (entries true)
  rfl

theorem entries_empty (isDirective : Bool) :
    (empty.table isDirective).entries = [] := by
  cases isDirective <;> rfl

theorem hasParameter_eq_false_iff :
    clause.hasParameter = false ↔
      ∀ isDirective, (clause.table isDirective).entries = [] := by
  simp [hasParameter, Table.isEmpty, table]

/-! ## Adding one after the other -/

/-- The clause with a parameter under a name that is new. -/
def withParameter (clause : Clause) (parameter : Parameter) : Clause :=
  { clause with parameters :=
      if parameter.isDirective then
        clause.parameters.withDirective parameter.name parameter.value
      else
        clause.parameters.withAttribute parameter.name parameter.value }

theorem addParameter_eq (clause : Clause) (parameter : Parameter) :
    clause.addParameter parameter.name parameter.value parameter.isDirective =
      if (clause.table parameter.isDirective).contains parameter.name then
        .error (.repeatedParameter parameter.name)
      else .ok (clause.withParameter parameter) := by
  obtain ⟨isDirective, name, value⟩ := parameter
  cases isDirective <;> rfl

theorem table_withParameter (clause : Clause) (parameter : Parameter)
    (isDirective : Bool) :
    (clause.withParameter parameter).table isDirective =
      if parameter.isDirective = isDirective then
        (clause.table isDirective).insert parameter.name parameter.value
      else clause.table isDirective := by
  obtain ⟨kind, name, value⟩ := parameter
  cases kind <;> cases isDirective <;> rfl

theorem Extends.unique (first : clause.Extends paths parameters larger)
    (second : clause.Extends paths parameters result) : larger = result :=
  eq_of_table (first.paths_eq.trans second.paths_eq.symm) fun isDirective =>
    (first.entries_eq isDirective).trans (second.entries_eq isDirective).symm

theorem extends_refl (clause : Clause) : clause.Extends [] [] clause :=
  ⟨(List.append_nil _).symm, fun _ => (List.append_nil _).symm⟩

theorem extends_path (clause : Clause) (path : String) :
    clause.Extends [path] [] { clause with paths := clause.paths ++ [path] } :=
  ⟨rfl, fun isDirective => by
    cases isDirective <;> exact (List.append_nil _).symm⟩

theorem extends_withParameter
    (new : (clause.table parameter.isDirective).contains parameter.name =
      false) :
    clause.Extends [] [parameter] (clause.withParameter parameter) := by
  refine ⟨(List.append_nil _).symm, fun isDirective => ?_⟩
  rw [table_withParameter, Parameter.entries]
  split
  · rename_i same
    subst same
    rw [Table.entries_insert new, List.filter_cons_of_pos (by simp)]
    rfl
  · rename_i other
    rw [List.filter_cons_of_neg (by simpa using other)]
    exact (List.append_nil _).symm

theorem Extends.new_name (longer : clause.Extends [] (parameter :: parameters)
      result) :
    (clause.table parameter.isDirective).contains parameter.name = false := by
  have entries := longer.entries_eq parameter.isDirective
  rw [Parameter.entries, List.filter_cons_of_pos (by simp), List.map_cons]
    at entries
  exact Table.contains_eq_false_of_entries entries

/-- What is added after a first part is added to the clause with that part. -/
theorem Extends.append_iff {more : List String} {further : List Parameter}
    (first : clause.Extends paths parameters larger) :
    clause.Extends (paths ++ more) (parameters ++ further) result ↔
      larger.Extends more further result := by
  have entries (isDirective : Bool) :
      Parameter.entries isDirective (parameters ++ further) =
        Parameter.entries isDirective parameters ++
          Parameter.entries isDirective further := by
    rw [Parameter.entries, List.filter_append, List.map_append]
    rfl
  constructor
  · intro whole
    refine ⟨?_, fun isDirective => ?_⟩
    · rw [whole.paths_eq, first.paths_eq, List.append_assoc]
    · rw [whole.entries_eq, first.entries_eq, entries, List.append_assoc]
  · intro second
    refine ⟨?_, fun isDirective => ?_⟩
    · rw [second.paths_eq, first.paths_eq, List.append_assoc]
    · rw [second.entries_eq, first.entries_eq, entries, List.append_assoc]

/-! ## Reading -/

theorem addElement_path (plain : '=' ∉ Text.outside element)
    (free : clause.hasParameter = false) :
    clause.addElement element =
      .ok { clause with
        paths := clause.paths ++ [String.ofList (Text.unquote element)] } := by
  rw [addElement, Text.breakUnquoted?_eq_none_iff.2 plain, free]
  rfl

theorem addElement_parameter (read : parameter.IsSpelledBy element) :
    clause.addElement element =
      clause.addParameter parameter.name parameter.value
        parameter.isDirective := by
  obtain ⟨before, after, rfl, closed, name, named, value⟩ := read
  rw [addElement,
    (Text.breakUnquoted?_eq_some_iff (by decide)).2 ⟨rfl, closed⟩]
  simp only [name, if_pos named, String.ofList_toList, value]

theorem extends_of_addParameter
    (done : clause.addParameter parameter.name parameter.value
      parameter.isDirective = .ok larger) :
    clause.Extends [] [parameter] larger := by
  rw [addParameter_eq] at done
  split at done
  · cases done
  · rename_i new
    cases done
    exact extends_withParameter (Bool.eq_false_iff.2 new)

/-- An element is read as a path or as a parameter. -/
theorem extends_of_addElement (done : clause.addElement element = .ok larger) :
    '=' ∉ Text.outside element ∧ clause.hasParameter = false ∧
      clause.Extends [String.ofList (Text.unquote element)] [] larger ∨
    ∃ parameter, parameter.IsSpelledBy element ∧
      clause.Extends [] [parameter] larger := by
  unfold addElement at done
  split at done
  · rename_i missing
    split at done
    · cases done
    · rename_i free
      cases done
      exact .inl ⟨Text.breakUnquoted?_eq_none_iff.1 missing,
        Bool.eq_false_iff.2 free, clause.extends_path _⟩
  · rename_i before after found
    obtain ⟨rfl, closed⟩ :=
      (Text.breakUnquoted?_eq_some_iff (by decide)).1 found
    split at done
    rename_i name isDirective read
    split at done
    · rename_i named
      refine .inr ⟨⟨isDirective, String.ofList name,
        String.ofList (Text.unquote (Text.trim after))⟩,
        ⟨before, after, rfl, closed, ?_, ?_, rfl⟩,
        extends_of_addParameter done⟩
      · rw [read, String.toList_ofList]
      · rw [String.toList_ofList, named]
    · cases done

theorem addElements_cons (nonempty : Text.trim element ≠ []) :
    addElements whole (element :: elements) clause =
      clause.addElement (Text.trim element) >>=
        addElements whole elements := by
  rw [addElements]
  split
  · rename_i nothing
    exact absurd nothing nonempty
  · rename_i first rest trimmed
    rw [trimmed]

theorem addElements_blank (nothing : Text.trim element = []) :
    addElements whole (element :: elements) clause =
      .error (.emptyElement (String.ofList (Text.trim whole))) := by
  rw [addElements, nothing]

/-- Elements are read as the grammar says. -/
theorem spelled_of_addElements
    (done : addElements whole elements clause = .ok result) :
    ∃ paths parameters, Spelled elements paths parameters ∧
      (paths ≠ [] → clause.hasParameter = false) ∧
      clause.Extends paths parameters result := by
  induction elements generalizing clause with
  | nil =>
      cases done
      exact ⟨[], [], .nil, fun more => absurd rfl more, extends_refl _⟩
  | cons element rest inductionHypothesis =>
      by_cases nothing : Text.trim element = []
      · rw [addElements_blank nothing] at done
        cases done
      rw [addElements_cons nothing, bind_eq_ok_iff] at done
      obtain ⟨larger, added, done⟩ := done
      obtain ⟨paths, parameters, spelled, free, longer⟩ :=
        inductionHypothesis done
      obtain ⟨plain, bare, first⟩ | ⟨parameter, read, first⟩ :=
        extends_of_addElement added
      · exact ⟨_, _, .path nothing plain spelled, fun _ => bare,
          first.append_iff.2 longer⟩
      · -- A path cannot follow, since there is a parameter now.
        have last : paths = [] := by
          by_contra more
          have none := hasParameter_eq_false_iff.1 (free more)
            parameter.isDirective
          rw [first.entries_eq, Parameter.entries,
            List.filter_cons_of_pos (by simp)] at none
          simp at none
        subst last
        exact ⟨[], _, .parameter read spelled, fun more => absurd rfl more,
          first.append_iff.2 longer⟩

theorem addElements_of_spelled (spelled : Spelled elements paths parameters)
    (free : paths ≠ [] → clause.hasParameter = false)
    (longer : clause.Extends paths parameters result) :
    addElements whole elements clause = .ok result := by
  induction spelled generalizing clause with
  | nil => exact congrArg Except.ok ((extends_refl _).unique longer)
  | path nonempty plain others inductionHypothesis =>
      have bare := free (List.cons_ne_nil _ _)
      rw [addElements_cons nonempty, addElement_path plain bare]
      exact inductionHypothesis (fun _ => bare)
        ((extends_path _ _).append_iff.1 longer)
  | parameter read others inductionHypothesis =>
      have new := longer.new_name
      rw [addElements_cons read.ne_nil, addElement_parameter read,
        addParameter_eq, new]
      exact inductionHypothesis (fun more => absurd rfl more)
        ((extends_withParameter new).append_iff.1 longer)

/-- Reading a clause accepts what the grammar allows, and nothing else. -/
theorem read_eq_ok_iff :
    read text = .ok clause ↔ clause.IsSpelledBy text := by
  unfold read IsSpelledBy
  constructor
  · intro done
    split at done
    · cases done
    · rename_i elements cut
      rw [bind_eq_ok_iff] at done
      obtain ⟨result, added, done⟩ := done
      split at done
      · cases done
      · rename_i nonempty
        cases done
        obtain ⟨paths, parameters, spelled, -, longer⟩ :=
          spelled_of_addElements added
        have same : clause.paths = paths := longer.paths_eq
        subst same
        exact ⟨elements, parameters,
          (Text.splitUnquoted?_eq_some_iff (by decide)).1 cut, spelled,
          by simpa using nonempty, longer⟩
  · rintro ⟨elements, parameters, cut, spelled, nonempty, longer⟩
    rw [(Text.splitUnquoted?_eq_some_iff (by decide)).2 cut]
    refine bind_eq_ok_iff.2
      ⟨clause, addElements_of_spelled spelled (fun _ => rfl) longer, ?_⟩
    rw [if_neg (by simpa using nonempty)]
    rfl

theorem Spelled.exists_bare (spelled : Spelled elements paths parameters)
    (nonempty : paths ≠ []) :
    ∃ element ∈ elements, Text.trim element ≠ [] := by
  cases spelled with
  | nil => exact absurd rfl nonempty
  | path bare => exact ⟨_, List.mem_cons_self .., bare⟩
  | parameter => exact absurd rfl nonempty

theorem IsSpelledBy.not_allBlank (spelled : clause.IsSpelledBy text) :
    ¬Text.AllBlank text := by
  obtain ⟨elements, parameters, cut, spelled, nonempty, -⟩ := spelled
  obtain ⟨element, member, bare⟩ := spelled.exists_bare nonempty
  exact fun blank => bare (Text.trim_of_allBlank fun c occurs =>
    blank c (cut.mem_of_mem_part member occurs))

theorem not_allBlank_of_spelled {texts : List (List Char)}
    {clauses : List Clause} (cut : Text.IsCut ',' text texts)
    (spelled : List.Forall₂ (fun text clause => IsSpelledBy clause text)
      texts clauses) :
    ¬Text.AllBlank text := by
  cases spelled with
  | nil => exact absurd rfl cut.nonempty
  | cons first others =>
      exact fun blank => first.not_allBlank fun c occurs => blank c
        (cut.mem_of_mem_part (List.mem_cons_self ..) occurs)

/-- Reading a header accepts what the grammar allows, and nothing else. -/
theorem parseHeader_eq_ok_iff {header value : String}
    {clauses : List Clause} :
    parseHeader header value = .ok clauses ↔
      Text.AllBlank value.toList ∧ clauses = [] ∨
      ∃ texts, Text.IsCut ',' value.toList texts ∧
        List.Forall₂ (fun text clause => clause.IsSpelledBy text)
          texts clauses := by
  have empty : (Text.trim value.toList).isEmpty = true ↔
      Text.AllBlank value.toList :=
    List.isEmpty_iff.trans Text.trim_eq_nil_iff
  rw [parseHeader, mapError_eq_ok_iff, readAll]
  constructor
  · intro done
    split at done
    · rename_i blank
      cases done
      exact .inl ⟨empty.1 blank, rfl⟩
    · split at done
      · cases done
      · rename_i texts cut
        refine .inr ⟨texts, (Text.splitUnquoted?_eq_some_iff (by decide)).1 cut,
          (mapM_eq_ok_iff.1 done).imp fun _ _ => read_eq_ok_iff.1⟩
  · rintro (⟨blank, rfl⟩ | ⟨texts, cut, spelled⟩)
    · rw [if_pos (empty.2 blank)]
    · have inked : ¬(Text.trim value.toList).isEmpty = true :=
        mt empty.1 (not_allBlank_of_spelled cut spelled)
      rw [if_neg inked, (Text.splitUnquoted?_eq_some_iff (by decide)).2 cut]
      exact mapM_eq_ok_iff.2 (spelled.imp fun _ _ => read_eq_ok_iff.2)

end Clause

end ModuleWiring
