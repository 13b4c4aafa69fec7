import ModuleWiring.CommandLine.Run
import ModuleWiring.Proofs.Partition
import ModuleWiring.Proofs.Singletons
import ModuleWiring.Proofs.UniverseWorld

/-!
# What the code of a run tells

The program resolves its targets one after the other and notes those that it has to
turn down.  A target that was turned down may still be resolved later on, as a member
of what resolves another target, and the note stays.  But for that, the code of the
run tells whether all targets have been resolved.
-/

namespace ModuleWiring

namespace Resolver

/-- A target is installed and cannot be resolved. -/
def TurnsDown (resolver : Resolver) (store : Store) (target : Generation) :
    Prop :=
  store.state target = .installed ∧
    ∃ error, resolver.resolve store target = .error error

/-- A target is installed, and what resolves it has a generation among its
members. -/
def Joins (resolver : Resolver) (store : Store)
    (target generation : Generation) : Prop :=
  store.state target = .installed ∧
    ∃ answer, resolver.resolve store target = .ok answer ∧
      ∃ solution ∈ answer, generation ∈ solution.members

end Resolver

namespace World

variable {world : World} {target generation : Generation}
  {answer : List Solution}

/-- All generations are there, and each of them is installed or resolved. -/
structure IsPlain (world : World) : Prop where
  reachable : world.Reachable
  held : ∀ generation ∈ world.made, world.store.holds generation = true
  placed : ∀ generation ∈ world.made,
    world.store.state generation = .installed ∨
      (world.store.state generation).isResolved = true

namespace IsPlain

theorem reachable_answered
    (plain : world.IsPlain) (made : target ∈ world.made)
    (solved : world.resolver.resolve world.store target = .ok answer) :
    (world.answered answer).Reachable :=
  (plain.reachable.step (.resolve made solved)).answered

/-- What an answer resolves are its members. -/
theorem isResolved_answered
    (plain : world.IsPlain) (made : target ∈ world.made)
    (solved : world.resolver.resolve world.store target = .ok answer)
    (known : generation ∈ world.made) :
    ((world.answered answer).store.state generation).isResolved = true ↔
      (world.store.state generation).isResolved = true ∨
        ∃ solution ∈ answer, generation ∈ solution.members := by
  have later := (plain.reachable_answered made solved).isConsistent
  have member : ∀ solution ∈ answer,
      generation.serial ∈ solution.members.map Generation.serial ↔
        generation ∈ solution.members := by
    intro solution answered
    refine ⟨fun listed => ?_, List.mem_map_of_mem⟩
    obtain ⟨other, among, same⟩ := List.mem_map.1 listed
    have proper := later.answers solution (List.mem_append_right _ answered)
    exact later.serials other (proper.members other among) generation known
      same ▸ among
  refine (Store.isResolved_applyAll (plain.held generation known)
    answer).trans (or_congr_right ?_)
  exact ⟨fun ⟨solution, answered, listed⟩ =>
      ⟨solution, answered, (member solution answered).1 listed⟩,
    fun ⟨solution, answered, listed⟩ =>
      ⟨solution, answered, (member solution answered).2 listed⟩⟩

theorem answered
    (plain : world.IsPlain) (made : target ∈ world.made)
    (solved : world.resolver.resolve world.store target = .ok answer) :
    (world.answered answer).IsPlain := by
  refine ⟨plain.reachable_answered made solved, ?_, ?_⟩
  · intro generation known
    exact (Store.holds_applyAll _ _ _).trans (plain.held generation known)
  · intro generation known
    by_cases resolved :
        ((world.answered answer).store.state generation).isResolved = true
    · exact .inr resolved
    · have apart := (not_or.1 ((Store.isResolved_applyAll
        (plain.held generation known) answer).not.1 resolved))
      have unchanged := Store.state_congr
        (Store.find?_applyAll_of_not_mem world.store fun solution answered
          listed => apart.2 ⟨solution, answered, listed⟩)
      exact .inl (unchanged.trans
        ((plain.placed generation known).resolve_right apart.1))

/-- What has been answered for a target resolves it. -/
theorem isResolved_target
    (plain : world.IsPlain) (made : target ∈ world.made)
    (solved : world.resolver.resolve world.store target = .ok answer) :
    ((world.answered answer).store.state target).isResolved = true := by
  obtain ⟨_, _, final, rfl, solves⟩ :=
    plain.reachable.isConsistent.exists_solves made solved
  exact (plain.isResolved_answered made solved made).2
    (.inr solves.exists_solution_of_target)

end IsPlain

/-- What the turn of a target makes of a world.  The target is resolved after that,
or it has been turned down. -/
structure Turn (world : World) (target : Generation) (next : World) :
    Prop where
  plain : next.IsPlain
  resolver : next.resolver = world.resolver
  made : next.made = world.made
  resolved : ∀ generation ∈ world.made,
    (next.store.state generation).isResolved = true ↔
      (world.store.state generation).isResolved = true ∨
        world.resolver.Joins world.store target generation
  own : (next.store.state target).isResolved = true ∨
    world.resolver.TurnsDown world.store target

end World

namespace Universe

open World

variable {world : World} {resolver : Resolver} {start : Store × Report}
  {targets : List Generation} {target generation : Generation}

/-- How far the loop over targets has come. -/
def progress (resolver : Resolver) (start : Store × Report)
    (targets : List Generation) : Store × Report :=
  targets.foldl (resolveTarget resolver) start

/-- A target has been turned down in its turn, and is among the members of what
resolves a later one. -/
def IsBelated (resolver : Resolver) (start : Store × Report)
    (targets : List Generation) (target : Generation) : Prop :=
  ∃ before between later after,
    targets = before ++ target :: between ++ later :: after ∧
      resolver.TurnsDown (progress resolver start before).1 target ∧
      resolver.Joins
        (progress resolver start (before ++ target :: between)).1 later
        target

/-- A target is passed over, resolved, or turned down. -/
theorem resolveTarget_cases
    (resolver : Resolver) (start : Store × Report) (target : Generation) :
    start.1.state target ≠ .installed ∧
        resolveTarget resolver start target = start ∨
      (∃ answer, start.1.state target = .installed ∧
        resolver.resolve start.1 target = .ok answer ∧
        resolveTarget resolver start target =
          (start.1.applyAll answer, start.2.succeed answer)) ∨
      ∃ error, start.1.state target = .installed ∧
        resolver.resolve start.1 target = .error error ∧
        resolveTarget resolver start target =
          (start.1, start.2.fail ⟨target, error⟩) := by
  obtain ⟨store, report⟩ := start
  by_cases installed : store.state target = .installed
  · cases solved : resolver.resolve store target with
    | ok answer =>
        refine .inr (.inl ⟨answer, installed, rfl, ?_⟩)
        simp [resolveTarget, installed, solved]
    | error error =>
        refine .inr (.inr ⟨error, installed, rfl, ?_⟩)
        simp [resolveTarget, installed, solved]
  · exact .inl ⟨installed, by simp [resolveTarget, installed]⟩

theorem exists_turn
    (plain : world.IsPlain) (made : target ∈ world.made) (report : Report) :
    ∃ (next : World) (later : Report), world.Turn target next ∧
      resolveTarget world.resolver (world.store, report) target =
        (next.store, later) := by
  rcases resolveTarget_cases world.resolver (world.store, report) target with
    ⟨busy, same⟩ | ⟨answer, installed, solved, same⟩ |
      ⟨error, installed, refused, same⟩
  · refine ⟨world, report, ⟨plain, rfl, rfl, ?_, ?_⟩, same⟩
    · intro generation _
      exact (or_iff_left fun joins => busy joins.1).symm
    · exact .inl ((plain.placed target made).resolve_left busy)
  · refine ⟨world.answered answer, _, ⟨plain.answered made solved, rfl, rfl,
      ?_, .inl (plain.isResolved_target made solved)⟩, same⟩
    intro generation known
    rw [plain.isResolved_answered made solved known]
    refine or_congr_right ⟨fun member => ⟨installed, answer, solved, member⟩,
      ?_⟩
    rintro ⟨_, other, solvedOther, member⟩
    cases solved.symm.trans solvedOther
    exact member
  · refine ⟨world, _, ⟨plain, rfl, rfl, ?_,
      .inr ⟨installed, error, refused⟩⟩, same⟩
    intro generation _
    refine (or_iff_left ?_).symm
    rintro ⟨_, answer, solved, _⟩
    cases refused.symm.trans solved

/-- Worlds stay plain from turn to turn, and what is resolved stays so. -/
theorem exists_progress
    (plain : world.IsPlain) (made : targets ⊆ world.made) (report : Report) :
    ∃ (next : World) (later : Report), next.IsPlain ∧
      next.resolver = world.resolver ∧ next.made = world.made ∧
      (∀ generation ∈ world.made,
        (world.store.state generation).isResolved = true →
          (next.store.state generation).isResolved = true) ∧
      progress world.resolver (world.store, report) targets =
        (next.store, later) := by
  induction targets generalizing world report with
  | nil => exact ⟨world, report, plain, rfl, rfl, fun _ _ kept => kept, rfl⟩
  | cons first rest inductionHypothesis =>
      obtain ⟨middle, noted, turn, same⟩ :=
        exists_turn plain (made List.mem_cons_self) report
      obtain ⟨next, later, nextPlain, resolver, known, kept, done⟩ :=
        inductionHypothesis turn.plain
          (turn.made ▸ List.subset_of_cons_subset made) noted
      refine ⟨next, later, nextPlain, resolver.trans turn.resolver,
        known.trans turn.made, ?_, ?_⟩
      · intro generation member resolved
        exact kept generation (turn.made ▸ member)
          ((turn.resolved generation member).2 (.inl resolved))
      · unfold progress at done ⊢
        rw [List.foldl_cons, same, ← turn.resolver]
        exact done

/-- Whoever gets resolved does so as a member of what resolves some target. -/
theorem exists_joins
    (plain : world.IsPlain) (made : targets ⊆ world.made) (report : Report)
    (known : generation ∈ world.made)
    (before : ¬ (world.store.state generation).isResolved = true)
    (resolved : ((progress world.resolver (world.store, report)
      targets).1.state generation).isResolved = true) :
    ∃ between later after, targets = between ++ later :: after ∧
      world.resolver.Joins
        (progress world.resolver (world.store, report) between).1 later
        generation := by
  induction targets generalizing world report with
  | nil => exact absurd resolved before
  | cons first rest inductionHypothesis =>
      obtain ⟨middle, noted, turn, same⟩ :=
        exists_turn plain (made List.mem_cons_self) report
      by_cases here : (middle.store.state generation).isResolved = true
      · exact ⟨[], first, rest, rfl,
          ((turn.resolved generation known).1 here).resolve_left before⟩
      · have onward : ∀ some, progress world.resolver (world.store, report)
            (first :: some) =
              progress middle.resolver (middle.store, noted) some := by
          intro some
          unfold progress
          rw [List.foldl_cons, same, turn.resolver]
        rw [onward] at resolved
        obtain ⟨between, later, after, split, joins⟩ :=
          inductionHypothesis turn.plain
            (turn.made ▸ List.subset_of_cons_subset made) noted
            (turn.made ▸ known) here resolved
        refine ⟨first :: between, later, after, by rw [split]; rfl, ?_⟩
        rw [onward, ← turn.resolver]
        exact joins

/-- A failure is noted for each target that is turned down in its turn. -/
theorem failed_progress_eq_nil_iff :
    (progress resolver start targets).2.failed = [] ↔
      start.2.failed = [] ∧
        ∀ before target after, targets = before ++ target :: after →
          ¬ resolver.TurnsDown (progress resolver start before).1
            target := by
  induction targets generalizing start with
  | nil => simp [progress]
  | cons first rest inductionHypothesis =>
      have noted : (resolveTarget resolver start first).2.failed = [] ↔
          start.2.failed = [] ∧ ¬ resolver.TurnsDown start.1 first := by
        rcases resolveTarget_cases resolver start first with
          ⟨busy, same⟩ | ⟨answer, installed, solved, same⟩ |
            ⟨error, installed, refused, same⟩
        · rw [same]
          exact (and_iff_left fun down => busy down.1).symm
        · rw [same]
          refine (and_iff_left ?_).symm
          rintro ⟨_, error, refused⟩
          cases solved.symm.trans refused
        · rw [same]
          exact iff_of_false (by simp [Report.fail])
            fun none => none.2 ⟨installed, error, refused⟩
      change (progress resolver (resolveTarget resolver start first)
        rest).2.failed = [] ↔ _
      rw [inductionHypothesis, noted, and_assoc]
      refine and_congr_right fun _ => ?_
      constructor
      · rintro ⟨own, others⟩ before target after split
        cases before with
        | nil =>
            cases split
            exact own
        | cons _ before =>
            cases split
            exact others before target after rfl
      · intro all
        exact ⟨all [] first rest rfl, fun before target after split =>
          all (first :: before) target after (by rw [split]; rfl)⟩

/-- The turn of a target takes place in a plain world, between the targets before
it and those after it. -/
theorem exists_turn_of_split
    (plain : world.IsPlain) {before after : List Generation}
    (made : before ++ target :: after ⊆ world.made) (report : Report) :
    ∃ (here next : World) (noted : Report),
      here.resolver = world.resolver ∧ here.made = world.made ∧
      (progress world.resolver (world.store, report) before).1 =
        here.store ∧
      here.Turn target next ∧
      ∀ others, progress world.resolver (world.store, report)
        (before ++ target :: others) =
          progress next.resolver (next.store, noted) others := by
  obtain ⟨here, written, herePlain, resolver, known, _, done⟩ :=
    exists_progress plain
      (List.Subset.trans (List.subset_append_left _ _) made) report
  have target_made : target ∈ here.made :=
    known ▸ made (List.mem_append_right _ List.mem_cons_self)
  obtain ⟨next, noted, turn, same⟩ :=
    exists_turn herePlain target_made written
  refine ⟨here, next, noted, resolver, known, congrArg Prod.fst done, turn,
    fun others => ?_⟩
  unfold progress at done ⊢
  rw [List.foldl_append, done, List.foldl_cons, turn.resolver, ← resolver,
    same]

/-- No failure is noted if and only if all targets are resolved in the end and none
of them is belated. -/
theorem failed_eq_nil_iff
    (plain : world.IsPlain) (made : targets ⊆ world.made) :
    (progress world.resolver (world.store, Report.empty)
        targets).2.failed = [] ↔
      (∀ target ∈ targets, ((progress world.resolver
        (world.store, Report.empty) targets).1.state target).isResolved) ∧
        ∀ target ∈ targets, ¬ IsBelated world.resolver
          (world.store, Report.empty) targets target := by
  rw [failed_progress_eq_nil_iff]
  constructor
  · rintro ⟨_, noneDown⟩
    refine ⟨fun target member => ?_, ?_⟩
    · obtain ⟨before, after, rfl⟩ := List.append_of_mem member
      obtain ⟨here, next, noted, resolver, known, reached, turn, onward⟩ :=
        exists_turn_of_split plain made Report.empty
      have resolved : (next.store.state target).isResolved = true := by
        refine turn.own.resolve_right ?_
        rw [resolver, ← reached]
        exact noneDown before target after rfl
      have nextMade : next.made = world.made := turn.made.trans known
      have rest : target :: after ⊆ next.made :=
        nextMade ▸ List.Subset.trans (List.subset_append_right _ _) made
      obtain ⟨_, _, _, _, _, kept, done⟩ := exists_progress turn.plain
        (List.subset_of_cons_subset rest) noted
      rw [onward, done]
      exact kept target (rest List.mem_cons_self) resolved
    · rintro target _ ⟨before, between, later, after, split, down, _⟩
      exact noneDown before target (between ++ later :: after)
        (by rw [split, List.append_assoc, List.cons_append]) down
  · rintro ⟨allResolved, noneBelated⟩
    refine ⟨rfl, fun before target after split down => ?_⟩
    subst split
    obtain ⟨here, next, noted, resolver, known, reached, turn, onward⟩ :=
      exists_turn_of_split plain made Report.empty
    rw [reached, ← resolver] at down
    have nextMade : next.made = world.made := turn.made.trans known
    have rest : target :: after ⊆ next.made :=
      nextMade ▸ List.Subset.trans (List.subset_append_right _ _) made
    have open_after : ¬ (next.store.state target).isResolved = true := by
      rw [turn.resolved target (turn.made ▸ rest List.mem_cons_self)]
      rintro (resolved | ⟨_, answer, solved, _⟩)
      · rw [down.1] at resolved
        cases resolved
      · obtain ⟨_, error, refused⟩ := down
        cases solved.symm.trans refused
    have member : target ∈ before ++ target :: after :=
      List.mem_append_right _ List.mem_cons_self
    have closed := allResolved target member
    rw [onward] at closed
    obtain ⟨between, later, others, split, joins⟩ := exists_joins turn.plain
      (List.subset_of_cons_subset rest) noted (rest List.mem_cons_self)
      open_after closed
    refine noneBelated target member
      ⟨before, between, later, others, by rw [split]; simp, ?_, ?_⟩
    · rw [reached, ← resolver]
      exact down
    · rw [onward, ← resolver, ← turn.resolver]
      exact joins

/-- The world of a universe is plain. -/
theorem IsInstalled.isPlain
    {listed : Universe} {framework : Framework}
    (installed : listed.IsInstalled)
    (session : (listed.world resolver).Session framework) :
    (listed.world resolver).IsPlain := by
  refine ⟨session.reachable, ?_, ?_⟩
  · intro generation made
    exact Option.isSome_iff_exists.2 ⟨_, installed.recorded generation made⟩
  · intro generation made
    refine .inl ?_
    change listed.store.state generation = .installed
    unfold Store.state
    rw [installed.recorded generation made]

end Universe

theorem Transcript.codeOf_eq_zero_iff {success : Bool} :
    codeOf success = 0 ↔ success = true := by
  cases success <;> decide

/-- The settings that a request is run under. -/
def ResolveRequest.settings
    (request : ResolveRequest) (files : Files) (environment : Environment) :
    Except SettingsError Settings :=
  Settings.build
    (request.settingsPath.map fun path => (path, files.text path))
    (if request.useEnvironment then environment else ∅)

theorem ResolveRequest.run_eq_ofReport
    {request : ResolveRequest} {files : Files} {environment : Environment}
    {settings : Settings} {text : String} {listed : Universe}
    {targets : List Generation} {resolver : Resolver}
    (configured : request.settings files environment = .ok settings)
    (readable : files.text request.path = .content text)
    (valid : Universe.parse text = .ok listed)
    (selected : listed.targets request.selectors = .ok targets)
    (started : listed.resolver settings = .ok resolver) :
    request.run files environment = .ofReport request.asJson
      (Universe.progress resolver (listed.store, Report.empty)
        targets).2 := by
  unfold ResolveRequest.settings at configured
  simp only [run, configured, readable, valid, runWithin, selected, started]
  rfl

/-- Where a universe can be read and the selectors choose targets, a run ends with
zero if and only if all targets have been resolved and none of them is belated. -/
theorem ResolveRequest.code_eq_zero_iff
    {request : ResolveRequest} {files : Files} {environment : Environment}
    {settings : Settings} {text : String} {listed : Universe}
    {targets : List Generation}
    (configured : request.settings files environment = .ok settings)
    (readable : files.text request.path = .content text)
    (valid : Universe.parse text = .ok listed)
    (selected : listed.targets request.selectors = .ok targets) :
    ∃ resolver, listed.resolver settings = .ok resolver ∧
      ((request.run files environment).code = 0 ↔
        (∀ target ∈ targets, ((Universe.progress resolver
          (listed.store, Report.empty) targets).1.state
            target).isResolved) ∧
          ∀ target ∈ targets, ¬ Universe.IsBelated resolver
            (listed.store, Report.empty) targets target) := by
  have installed := Universe.isInstalled_of_parse valid
  obtain ⟨resolver, started, session⟩ := installed.exists_resolver settings
  refine ⟨resolver, started, ?_⟩
  have verdict : (request.run files environment).code = 0 ↔
      (Universe.progress resolver (listed.store, Report.empty)
        targets).2.failed = [] := by
    rw [run_eq_ofReport configured readable valid selected started,
      ← List.isEmpty_iff]
    exact Transcript.codeOf_eq_zero_iff
  exact verdict.trans (Universe.failed_eq_nil_iff (installed.isPlain session)
    (Universe.targets_subset selected))

namespace Sample

/-- A universe of a host with two fragments, one of which imports what the other
exports.  The importing one comes first. -/
def sundered : String :=
  "\x7b\"bundles\": [" ++
  "\x7b\"id\": 1, \"headers\": \x7b\"Bundle-SymbolicName\": \"f\", " ++
  "\"Fragment-Host\": \"h\", \"Import-Package\": \"p\"\x7d\x7d, " ++
  "\x7b\"id\": 2, \"headers\": \x7b\"Bundle-SymbolicName\": \"h\"\x7d\x7d, " ++
  "\x7b\"id\": 3, \"headers\": \x7b\"Bundle-SymbolicName\": \"g\", " ++
  "\"Fragment-Host\": \"h\", \"Export-Package\": \"p\"\x7d\x7d]\x7d"

def sunderedRequest : ResolveRequest :=
  ⟨"universe.json", [], none, false, false⟩

def sunderedFiles : Files :=
  (∅ : Files).insert "universe.json" (.content sundered)

end Sample

/-- All targets are resolved, and the run still does not end with zero since the
first of them is belated. -/
theorem ResolveRequest.sundered_target_belated :
    ∃ listed resolver, Universe.parse Sample.sundered = .ok listed ∧
      listed.resolver Settings.standard = .ok resolver ∧
      (Sample.sunderedRequest.run Sample.sunderedFiles ∅).code ≠ 0 ∧
      (∀ target ∈ listed.generations, ((Universe.progress resolver
        (listed.store, Report.empty) listed.generations).1.state
          target).isResolved) ∧
      ∃ target ∈ listed.generations, Universe.IsBelated resolver
        (listed.store, Report.empty) listed.generations target := by
  have course : (Universe.parse Sample.sundered).toOption.any (fun listed =>
      (listed.resolver Settings.standard).toOption.any fun resolver =>
        let ending := Universe.progress resolver
          (listed.store, Report.empty) listed.generations
        listed.generations.all
          (fun target => (ending.1.state target).isResolved) &&
            !ending.2.failed.isEmpty) = true := by
    decide +kernel
  obtain ⟨listed, parsed, course⟩ := Option.any_eq_true _ _ |>.1 course
  obtain ⟨resolver, begun, course⟩ := Option.any_eq_true _ _ |>.1 course
  have valid := Search.eq_ok_of_toOption parsed
  have started := Search.eq_ok_of_toOption begun
  obtain ⟨resolved, failed⟩ := Bool.and_eq_true_iff.1 course
  replace resolved := List.all_eq_true.1 resolved
  have configured : Sample.sunderedRequest.settings Sample.sunderedFiles ∅ =
      .ok Settings.standard := rfl
  have readable : Sample.sunderedFiles.text Sample.sunderedRequest.path =
      .content Sample.sundered := rfl
  have nonzero :
      (Sample.sunderedRequest.run Sample.sunderedFiles ∅).code ≠ 0 := by
    rw [run_eq_ofReport configured readable valid rfl started]
    intro zero
    rw [Transcript.codeOf_eq_zero_iff.1 zero] at failed
    cases failed
  obtain ⟨_, startedAgain, code⟩ := ResolveRequest.code_eq_zero_iff
    configured readable valid rfl
  cases started.symm.trans startedAgain
  refine ⟨listed, resolver, valid, started, nonzero, resolved, ?_⟩
  by_contra none
  push Not at none
  exact nonzero (code.2 ⟨resolved, none⟩)

end ModuleWiring
