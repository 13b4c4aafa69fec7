import ModuleWiring.Proofs.ExitCode
import ModuleWiring.Proofs.Failing

/-!
# Universes that pass validation

A validation reads all manifests of a universe and counts the invalid ones.  A
universe is loaded up to the first entry that cannot be installed, be it for its
manifest or for its identity.  Main statement: what can be loaded passes, and what
passes can be loaded unless an identity is repeated.
-/

namespace ModuleWiring

/-- Whether the manifest of an entry can be read. -/
def BundleEntry.isValid (entry : BundleEntry) : Bool :=
  (Manifest.ofHeaders entry.headers).isOk

/-! ## What a validation counts -/

namespace Validation

variable {validation : Validation}

theorem errors_noteSingleton (bundle : Nat) (name : String) :
    (validation.noteSingleton bundle name).errors = validation.errors := by
  unfold noteSingleton
  dsimp only
  split
  · rfl
  · rfl

theorem errors_addEntry (quiet : Bool) (entry : BundleEntry) :
    (addEntry quiet validation entry).errors =
      validation.errors + if entry.isValid then 0 else 1 := by
  unfold addEntry BundleEntry.isValid
  cases Manifest.ofHeaders entry.headers with
  | error fault => rfl
  | ok manifest =>
      have noted : (if manifest.singleton then
          validation.noteSingleton entry.id.bundle manifest.symbolicName
        else validation).errors = validation.errors := by
        split
        · exact errors_noteSingleton _ _
        · rfl
      cases quiet with
      | true => exact noted
      | false => exact noted

theorem errors_foldl (quiet : Bool) (entries : List BundleEntry) :
    (entries.foldl (addEntry quiet) validation).errors =
      validation.errors + entries.countP (!·.isValid) := by
  induction entries generalizing validation with
  | nil => rfl
  | cons first rest inductionHypothesis =>
      rw [List.foldl_cons, inductionHypothesis, errors_addEntry,
        List.countP_cons, Nat.add_assoc, Nat.add_comm (List.countP _ rest)]
      cases first.isValid <;> rfl

/-- Invalid manifests are counted, wherever they stand. -/
theorem errors_ofEntries (quiet : Bool) (entries : List BundleEntry) :
    (ofEntries quiet entries).errors = entries.countP (!·.isValid) :=
  (errors_foldl quiet entries).trans (Nat.zero_add _)

theorem errors_close (quiet : Bool) (count : Nat) :
    (validation.close quiet count).errors = validation.errors := by
  unfold close
  split
  · split
    · rfl
    · rfl
  · rfl

end Validation

variable {request : ValidateRequest} {files : Files} {text : String}

theorem ValidateRequest.code_eq_zero_iff_valid
    (readable : files.text request.path = .content text) :
    (request.run files).code = 0 ↔
      ∃ entries, BundleEntry.parseAll? text = some entries ∧
        ∀ entry ∈ entries, entry.isValid = true := by
  unfold run
  rw [readable]
  dsimp only
  cases BundleEntry.parseAll? text with
  | none => simp [Transcript.invalid, Transcript.aborted]
  | some entries =>
      refine Transcript.codeOf_eq_zero_iff.trans ?_
      rw [Validation.errors_close, Validation.errors_ofEntries,
        decide_eq_true_iff, List.countP_eq_zero]
      simp

/-! ## What can be loaded -/

namespace Universe

variable {listed next : Universe} {entries : List BundleEntry}

/-- The identities of the generations that are there, and of those to come. -/
def identities (listed : Universe) (entries : List BundleEntry) :
    List GenerationId :=
  listed.generations.map Generation.id ++ entries.map BundleEntry.id

theorem identities_of_install
    {entry : BundleEntry} (done : listed.install entry = .ok next)
    (rest : List BundleEntry) :
    next.identities rest = listed.identities (entry :: rest) := by
  obtain ⟨_, manifest, rfl⟩ := eq_of_install done
  simp [identities, Store.install]

theorem isValid_of_install
    {entry : BundleEntry} (done : listed.install entry = .ok next) :
    entry.isValid = true := by
  unfold install at done
  unfold BundleEntry.isValid
  split at done
  · cases done
  · split at done
    · cases done
    · rename_i manifest read
      rw [read]
      rfl

/-- Entries that can be installed are valid, and no identity is repeated. -/
theorem valid_of_foldlM
    (installed : listed.IsInstalled)
    (done : entries.foldlM install listed = .ok next) :
    (∀ entry ∈ entries, entry.isValid = true) ∧
      (listed.identities entries).Nodup := by
  induction entries generalizing listed with
  | nil =>
      refine ⟨fun _ member => (by cases member), ?_⟩
      simpa [identities] using installed.distinct
  | cons first rest inductionHypothesis =>
      obtain ⟨middle, joined, later⟩ := bind_eq_ok_iff.1 done
      obtain ⟨valid, distinct⟩ :=
        inductionHypothesis (installed.install joined) later
      rw [identities_of_install joined] at distinct
      refine ⟨fun entry member => ?_, distinct⟩
      rcases List.mem_cons.1 member with rfl | inRest
      · exact isValid_of_install joined
      · exact valid entry inRest

/-- An entry that cannot be installed is invalid, or its identity has come up
before. -/
theorem refusal_of_install
    {entry : BundleEntry} {fault : UniverseError}
    (refused : listed.install entry = .error fault) :
    entry.isValid = false ∨ fault = .repeatedId entry.id ∧
      entry.id ∈ listed.generations.map Generation.id := by
  unfold install at refused
  unfold BundleEntry.isValid
  split at refused
  · rename_i known
    cases refused
    exact .inr ⟨rfl, by simpa using known⟩
  · split at refused
    · rename_i cause read
      rw [read]
      exact .inl rfl
    · cases refused

theorem refusal_of_foldlM
    {fault : UniverseError}
    (refused : entries.foldlM install listed = .error fault) :
    (∃ entry ∈ entries, entry.isValid = false) ∨
      ∃ id, fault = .repeatedId id ∧
        1 < (listed.identities entries).count id := by
  induction entries generalizing listed with
  | nil => cases refused
  | cons first rest inductionHypothesis =>
      rcases bind_eq_error_iff.1 refused with here | ⟨middle, joined, later⟩
      · rcases refusal_of_install here with invalid | ⟨rfl, known⟩
        · exact .inl ⟨first, List.mem_cons_self, invalid⟩
        · refine .inr ⟨first.id, rfl, ?_⟩
          have earlier := List.count_pos_iff.2 known
          have again : 0 < ((first :: rest).map BundleEntry.id).count
              first.id :=
            List.count_pos_iff.2 (List.mem_map_of_mem List.mem_cons_self)
          rw [identities, List.count_append]
          omega
      · rcases inductionHypothesis later with ⟨entry, member, invalid⟩ | twice
        · exact .inl ⟨entry, List.mem_cons_of_mem _ member, invalid⟩
        · rw [identities_of_install joined] at twice
          exact .inr twice

/-- Entries can be installed if and only if they are valid and no identity is
repeated. -/
theorem exists_ofEntries_iff :
    (∃ listed, ofEntries entries = .ok listed) ↔
      (∀ entry ∈ entries, entry.isValid = true) ∧
        (entries.map BundleEntry.id).Nodup := by
  constructor
  · rintro ⟨listed, done⟩
    exact valid_of_foldlM isInstalled_empty done
  · rintro ⟨valid, distinct⟩
    cases done : ofEntries entries with
    | ok listed => exact ⟨listed, rfl⟩
    | error fault =>
        rcases refusal_of_foldlM done with
          ⟨entry, member, invalid⟩ | ⟨id, _, twice⟩
        · rw [valid entry member] at invalid
          cases invalid
        · have once := List.nodup_iff_count_le_one.1 distinct id
          exact absurd twice (Nat.not_lt.2 once)

theorem exists_parse_iff :
    (∃ listed, parse text = .ok listed) ↔
      ∃ entries, BundleEntry.parseAll? text = some entries ∧
        (∀ entry ∈ entries, entry.isValid = true) ∧
          (entries.map BundleEntry.id).Nodup := by
  unfold parse
  cases BundleEntry.parseAll? text with
  | none => simp
  | some entries => simpa using exists_ofEntries_iff

end Universe

/-- A validation ends with zero if all manifests are valid.  The universe can be
loaded if, besides, no identity is repeated, and if it cannot although the
validation ends with zero, the error names an identity that is. -/
theorem ValidateRequest.loads_unless_repeated
    (readable : files.text request.path = .content text) :
    ((request.run files).code = 0 ↔
      ∃ entries, BundleEntry.parseAll? text = some entries ∧
        ∀ entry ∈ entries, entry.isValid = true) ∧
    ((∃ listed, Universe.parse text = .ok listed) ↔
      ∃ entries, BundleEntry.parseAll? text = some entries ∧
        (∀ entry ∈ entries, entry.isValid = true) ∧
          (entries.map BundleEntry.id).Nodup) ∧
    ∀ fault, (request.run files).code = 0 →
      Universe.parse text = .error fault →
        ∃ entries id, BundleEntry.parseAll? text = some entries ∧
          fault = .repeatedId id ∧
            1 < (entries.map BundleEntry.id).count id := by
  refine ⟨code_eq_zero_iff_valid readable, Universe.exists_parse_iff, ?_⟩
  intro fault passed refused
  obtain ⟨entries, parsed, valid⟩ := (code_eq_zero_iff_valid readable).1 passed
  simp only [Universe.parse, parsed] at refused
  rcases Universe.refusal_of_foldlM refused with
    ⟨entry, member, invalid⟩ | ⟨id, named, twice⟩
  · rw [valid entry member] at invalid
    cases invalid
  · exact ⟨entries, id, parsed, named, twice⟩

namespace Sample

/-- A universe of two bundles with one identity. -/
def clashing : String :=
  "\x7b\"bundles\": [" ++
  "\x7b\"id\": 1, \"headers\": \x7b\"Bundle-SymbolicName\": \"a\"\x7d\x7d, " ++
  "\x7b\"id\": 1, \"headers\": \x7b\"Bundle-SymbolicName\": \"b\"\x7d\x7d]\x7d"

def clashingRequest : ValidateRequest :=
  ⟨"universe.json", true⟩

def clashingFiles : Files :=
  (∅ : Files).insert "universe.json" (.content clashing)

end Sample

/-- The validation of that universe ends with zero, and it cannot be loaded since
an identity is repeated. -/
theorem ValidateRequest.clashing_passes :
    (Sample.clashingRequest.run Sample.clashingFiles).code = 0 ∧
      ∃ id, Universe.parse Sample.clashing = .error (.repeatedId id) := by
  have readable : Sample.clashingFiles.text Sample.clashingRequest.path =
      .content Sample.clashing := rfl
  have facts : (BundleEntry.parseAll? Sample.clashing).any (fun entries =>
      entries.all BundleEntry.isValid &&
        decide (¬ (entries.map BundleEntry.id).Nodup)) = true := by
    decide +kernel
  obtain ⟨entries, parsed, holds⟩ := Option.any_eq_true _ _ |>.1 facts
  obtain ⟨valid, repeated⟩ := Bool.and_eq_true_iff.1 holds
  obtain ⟨passes, loads, names⟩ :=
    ValidateRequest.loads_unless_repeated readable
  have passed := passes.2 ⟨entries, parsed, List.all_eq_true.1 valid⟩
  refine ⟨passed, ?_⟩
  cases loaded : Universe.parse Sample.clashing with
  | ok listed =>
      obtain ⟨others, same, -, distinct⟩ := loads.1 ⟨listed, loaded⟩
      cases parsed.symm.trans same
      exact absurd distinct (of_decide_eq_true repeated)
  | error fault =>
      obtain ⟨_, id, _, named, _⟩ := names fault passed loaded
      exact ⟨id, congrArg Except.error named⟩

end ModuleWiring
