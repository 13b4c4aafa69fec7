import ModuleWiring.Proofs.Aftermath
import ModuleWiring.Proofs.Dependencies
import ModuleWiring.Proofs.Session

/-!
# Wires to superseded exports

Nobody should be wired to an export of a module that is wired for the package
itself.  A search sees to that among the wires that it chooses, but not
between them and those that earlier answers have left.
-/

namespace ModuleWiring

/-- Wires for different packages are all found again. -/
theorem Wirings.find?_ofList_of_mem
    {wires : List Wire} (distinct : (wires.map Wire.package).Nodup)
    {wire : Wire} (member : wire ∈ wires) :
    (Wirings.ofList wires).find? wire.package = some wire := by
  refine Table.find?_of_mem_entries ?_
  rw [Wirings.entries_ofList distinct]
  exact List.mem_map_of_mem member

namespace World

/-- An answer, and the world in which it was given. -/
structure Exchange where
  before : World
  answer : List Solution

/-- The calls of one who takes nothing back: generations are installed and added,
targets are resolved, bundles are given more wires, and every answer is applied as
a whole. -/
inductive Course : World → List Exchange → Prop where
  | start (policy : Policy) (framework : Framework) :
      Course (ofModules policy framework []) []
  | install {world : World} {exchanges : List Exchange}
      (id : GenerationId) (manifest : Manifest) :
      Course world exchanges →
      Course (world.installed id manifest) exchanges
  | add {world : World} {exchanges : List Exchange}
      {generation : Generation} {resolver : Resolver} :
      Course world exchanges → generation ∈ world.made →
      world.resolver.add generation = .ok resolver →
      Course { world with resolver := resolver } exchanges
  | resolve {world : World} {exchanges : List Exchange}
      {target : Generation} {answer : List Solution} :
      Course world exchanges → target ∈ world.made →
      world.resolver.resolve world.store target = .ok answer →
      Course (world.answered answer) (exchanges ++ [⟨world, answer⟩])
  | resolveDynamic {world : World} {exchanges : List Exchange}
      {target : Generation} {wanted : Import} {answer : List Solution} :
      Course world exchanges → target ∈ world.made →
      target.isFragment = false →
      world.resolver.resolveDynamic world.store target wanted = .ok answer →
      Course (world.answered answer) (exchanges ++ [⟨world, answer⟩])

/-- The bundles that were ever installed. -/
def modules (world : World) : List Generation :=
  world.made.filter fun generation => !generation.isFragment

/-- No module is wired to an export of one that is wired for the package itself. -/
def Unsuperseded (world : World) : Prop :=
  ∀ module ∈ world.modules, (world.store.state module).isResolved = true →
    ∀ wire ∈ world.store.wires module,
      ∀ theirs ∈ world.store.wires wire.exporter,
        theirs.package ≠ wire.package

/-- The wires of a solution that its host has not had before. -/
def newWires (world : World) (solution : Solution) : List Wire :=
  solution.wires.filter (· ∉ world.store.wires solution.host)

namespace Exchange

/-- No new wire leads to an export that had been superseded before, and none
supersedes an export that a module had been wired to. -/
structure IsClean (exchange : Exchange) : Prop where
  chosen : ∀ solution ∈ exchange.answer,
    ∀ wire ∈ exchange.before.newWires solution,
      ∀ theirs ∈ exchange.before.store.wires wire.exporter,
        theirs.package ≠ wire.package
  spared : ∀ solution ∈ exchange.answer,
    ∀ wire ∈ exchange.before.newWires solution,
      ∀ module ∈ exchange.before.modules,
        (exchange.before.store.state module).isResolved = true →
          ∀ theirs ∈ exchange.before.store.wires module,
            theirs.exporter = solution.host →
              theirs.package ≠ wire.package

end Exchange

variable {world : World} {answer : List Solution} {module : Generation}

theorem mem_modules :
    module ∈ world.modules ↔
      module ∈ world.made ∧ module.isFragment = false := by
  simp [modules]

theorem Accepts.host_mem_modules
    (accepts : world.Accepts answer) {solution : Solution}
    (answered : solution ∈ answer) : solution.host ∈ world.modules :=
  mem_modules.2 ⟨(accepts.proper solution answered).members _
    List.mem_cons_self, accepts.bundles solution answered⟩

/-- Who takes nothing back works within one framework. -/
theorem Course.exists_session
    {exchanges : List Exchange} (course : world.Course exchanges) :
    ∃ framework, world.Session framework := by
  induction course with
  | start policy framework => exact ⟨framework, .start policy⟩
  | install id manifest _ inductionHypothesis =>
      exact inductionHypothesis.imp fun _ session => .install id manifest session
  | add _ made added inductionHypothesis =>
      exact inductionHypothesis.imp fun _ session => .add session made added
  | resolve _ made solved inductionHypothesis =>
      exact inductionHypothesis.imp fun _ session =>
        .resolve session made solved
  | resolveDynamic _ made _ solved inductionHypothesis =>
      exact inductionHypothesis.imp fun _ session =>
        .resolveDynamic session made solved

theorem Course.reachable
    {exchanges : List Exchange} (course : world.Course exchanges) :
    world.Reachable := by
  obtain ⟨_, session⟩ := course.exists_session
  exact session.reachable

/-! ## Worlds of which nothing is taken back -/

/-- What holds of a world while nothing is taken back. -/
structure IsSettled (world : World) : Prop where
  consistent : world.IsConsistent
  held : ∀ generation ∈ world.made, world.store.holds generation = true
  mentioned : ∀ solution ∈ world.answers,
    ∀ generation ∈ solution.mentioned, generation ∈ world.made
  fresh : ∀ module ∈ world.modules,
    (world.store.state module).isResolved = false →
      world.store.wires module = []
  keyed : ∀ module ∈ world.modules,
    ((world.store.wires module).map Wire.package).Nodup
  served : ∀ module ∈ world.modules, ∀ wire ∈ world.store.wires module,
    wire.exporter.isFragment = false ∧
      (world.store.state wire.exporter).isResolved = true

/-- An answer for a settled world. -/
structure Settles (world : World) (answer : List Solution) : Prop where
  accepts : world.Accepts answer
  mentioned : ∀ solution ∈ answer,
    ∀ generation ∈ solution.mentioned, generation ∈ world.made
  keyed : ∀ solution ∈ answer, (solution.wires.map Wire.package).Nodup
  kept : ∀ solution ∈ answer,
    world.store.wires solution.host ⊆ solution.wires
  served : ∀ solution ∈ answer, ∀ wire ∈ world.newWires solution,
    wire.exporter.isFragment = false ∧
      ((world.store.state wire.exporter).isResolved = true ∨
        wire.exporter ∈ answer.map Solution.host)
  agreed : ∀ solution ∈ answer, ∀ other ∈ answer,
    ∀ wire ∈ solution.wires, ∀ theirs ∈ other.wires,
      theirs.package = wire.package →
        theirs.exporter.id = wire.exporter.id

namespace IsSettled

/-- The solutions that are recorded have been answered. -/
theorem mem_answers
    (settled : world.IsSettled) {solution : Solution}
    (recorded : solution ∈ world.store.solutions) :
    solution ∈ world.answers := by
  obtain ⟨record, listed, wiring⟩ := List.mem_filterMap.1 recorded
  obtain ⟨serial, found⟩ := Table.exists_of_mem_values listed
  exact (settled.consistent.recorded found wiring).1

/-- The wirings of a settled world lead to what was made. -/
theorem leadsTo (settled : world.IsSettled) :
    world.store.LeadsTo (· ∈ world.made) :=
  Store.leadsTo_of_wiring? fun wired =>
    Store.forall_mentioned (fun solution recorded =>
      settled.mentioned solution (settled.mem_answers recorded)) wired

theorem resolved_of_wired
    (settled : world.IsSettled) (listed : module ∈ world.modules)
    {wire : Wire} (member : wire ∈ world.store.wires module) :
    (world.store.state module).isResolved = true := by
  apply Bool.of_not_eq_false
  intro unresolved
  rw [settled.fresh module listed unresolved] at member
  cases member

theorem exporter_mem_modules
    (settled : world.IsSettled) (listed : module ∈ world.modules)
    {wire : Wire} (member : wire ∈ world.store.wires module) :
    wire.exporter ∈ world.modules :=
  mem_modules.2 ⟨settled.leadsTo.wires member,
    (settled.served module listed wire member).1⟩

end IsSettled

theorem Settles.of_run
    {target : Generation} {framework : Framework} {start : Node}
    {final : Draft} (settled : world.IsSettled)
    (made : target ∈ world.made)
    (run : world.resolver.Run world.store target framework start final)
    (hosts : Search.Everywhere Search.IsHost start) :
    world.Settles final.solutions := by
  have consistent := settled.consistent
  have accepts := run.accepts consistent made hosts
  have mentioned : ∀ solution ∈ final.solutions,
      ∀ generation ∈ solution.mentioned, generation ∈ world.made :=
    fun solution answered => run.known_of_mentioned consistent.sound
      settled.leadsTo made (fun _ tracked => consistent.tracked tracked)
      answered
  have rooted := (run.isRooted consistent.sound made
    fun _ tracked => consistent.tracked tracked).2
  have keeps := Search.keepsOwn_of_line run.line run.scheduled
    fun _ _ found => (run.begins.given found).2
  have finalHosts := Search.everywhere_of_line run.line run.scheduled hosts
    fun _ evolution isHost => Search.isHost_of_evolution evolution isHost
  refine ⟨accepts, mentioned, ?_, ?_, ?_, ?_⟩
  · intro solution answered
    obtain ⟨bound, found, rfl⟩ := Draft.candidate?_of_mem_solutions answered
    exact (rooted found).keyed.nodup_packages
  · intro solution answered wire member
    have isHost := accepts.host_mem_modules answered
    obtain ⟨bound, found, rfl⟩ := Draft.candidate?_of_mem_solutions answered
    change bound.host ∈ world.modules at isHost
    change wire ∈ world.store.wires bound.host at member
    have resolved := settled.resolved_of_wired isHost member
    have carried : (world.store.carriedWirings bound.host).find?
        wire.package = some wire := by
      unfold Store.carriedWirings
      rw [if_pos resolved]
      exact Wirings.find?_ofList_of_mem (settled.keyed _ isHost) member
    have kept : Search.KeepsOwn world.store bound := keeps found
    exact Table.mem_values_of_find? (kept.carried carried)
  · intro solution answered wire member
    obtain ⟨listed, isNew⟩ := List.mem_filter.1 member
    obtain ⟨bound, found, rfl⟩ := Draft.candidate?_of_mem_solutions answered
    obtain ⟨package, held⟩ := Table.exists_of_mem_values listed
    rcases run.wiresTakePart found held with old | takesPart
    · exact absurd old (of_decide_eq_true isNew)
    · refine ⟨?_, run.resolved_or_solved takesPart⟩
      obtain ⟨candidate, exporterFound, isExporter⟩ :=
        Option.map_eq_some_iff.1 takesPart.1
      have isHost := finalHosts exporterFound
      rw [← isExporter]
      cases candidate with
      | unresolved installed =>
          exact absurd exporterFound (takesPart.2 installed)
      | resolved wired => exact isHost
      | bound module => exact isHost
  · intro solution answered other otherAnswered wire listed theirs
      theirListed same
    exact run.exporter_eq answered otherAnswered listed theirListed same

/-- The host of a solution is resolved with it when the answer is applied. -/
theorem Settles.applied
    (settles : world.Settles answer) (settled : world.IsSettled)
    {solution : Solution} (answered : solution ∈ answer) :
    (world.answered answer).store.wires solution.host = solution.wires ∧
      ((world.answered answer).store.state
        solution.host).isResolved = true := by
  obtain ⟨wired, resolved⟩ :=
    settles.accepts.applied_host settled.consistent answered
      fun generation member => settled.held generation
        (settles.mentioned solution answered generation member)
  refine ⟨?_, resolved⟩
  unfold Store.wires World.answered
  rw [wired]

/-- What an answer makes of a module: it is resolved with its solution, if there is
one, and else stays as it was. -/
theorem Settles.cases
    (settles : world.Settles answer) (settled : world.IsSettled)
    (listed : module ∈ world.modules) :
    (∃ solution ∈ answer, solution.host = module ∧
      (world.answered answer).store.wires module = solution.wires ∧
      ((world.answered answer).store.state module).isResolved = true) ∨
    (module ∉ answer.map Solution.host ∧
      (world.answered answer).store.wires module =
        world.store.wires module ∧
      (world.answered answer).store.state module =
        world.store.state module) := by
  by_cases isHost : module ∈ answer.map Solution.host
  · left
    obtain ⟨solution, answered, rfl⟩ := List.mem_map.1 isHost
    exact ⟨solution, answered, rfl, settles.applied settled answered⟩
  · right
    obtain ⟨made, isBundle⟩ := mem_modules.1 listed
    obtain ⟨wired, state⟩ := settles.accepts.applied_other
      settled.consistent made isBundle isHost
    refine ⟨isHost, ?_, state⟩
    unfold Store.wires World.answered
    rw [wired]

namespace Settles

variable (settles : world.Settles answer) (settled : world.IsSettled)

include settles settled

/-- Wires stay, and modules stay resolved. -/
theorem wires_subset (listed : module ∈ world.modules) :
    world.store.wires module ⊆
      (world.answered answer).store.wires module := by
  rcases settles.cases settled listed with
    ⟨solution, answered, rfl, wires, _⟩ | ⟨_, wires, _⟩
  · rw [wires]
    exact settles.kept solution answered
  · rw [wires]
    exact List.Subset.refl _

theorem isResolved_answered
    (listed : module ∈ world.modules)
    (resolved : (world.store.state module).isResolved = true) :
    ((world.answered answer).store.state module).isResolved = true := by
  rcases settles.cases settled listed with
    ⟨_, _, _, _, isResolved⟩ | ⟨_, _, state⟩
  · exact isResolved
  · rw [state]
    exact resolved

/-- A wire that a module has after an answer is an old one, or a new one of its
solution. -/
theorem wire_origin
    (listed : module ∈ world.modules) {wire : Wire}
    (member : wire ∈ (world.answered answer).store.wires module) :
    wire ∈ world.store.wires module ∨
      ∃ solution ∈ answer, solution.host = module ∧
        wire ∈ world.newWires solution := by
  rcases settles.cases settled listed with
    ⟨solution, answered, rfl, wires, _⟩ | ⟨_, wires, _⟩
  · rw [wires] at member
    by_cases old : wire ∈ world.store.wires solution.host
    · exact .inl old
    · exact .inr ⟨solution, answered, rfl,
        List.mem_filter.2 ⟨member, decide_eq_true old⟩⟩
  · rw [wires] at member
    exact .inl member

/-- Conversely, all new wires of a solution are there. -/
theorem mem_wires_of_new
    {solution : Solution} (answered : solution ∈ answer) {wire : Wire}
    (isNew : wire ∈ world.newWires solution) :
    wire ∈ (world.answered answer).store.wires solution.host := by
  rw [(settles.applied settled answered).1]
  exact (List.mem_filter.1 isNew).1

/-- A new wire leads to a module that is resolved then. -/
theorem served_answered
    {solution : Solution} (answered : solution ∈ answer) {wire : Wire}
    (isNew : wire ∈ world.newWires solution) :
    wire.exporter ∈ world.modules ∧
      ((world.answered answer).store.state
        wire.exporter).isResolved = true := by
  obtain ⟨isBundle, resolved⟩ := settles.served solution answered wire isNew
  have made : wire.exporter ∈ world.made := by
    refine settles.mentioned solution answered _ (List.mem_append_left _ ?_)
    exact List.mem_append_right _
      (List.mem_map_of_mem (List.mem_filter.1 isNew).1)
  have listed := mem_modules.2 ⟨made, isBundle⟩
  refine ⟨listed, ?_⟩
  rcases resolved with before | isHost
  · exact settles.isResolved_answered settled listed before
  · obtain ⟨other, otherAnswered, isExporter⟩ := List.mem_map.1 isHost
    rw [← isExporter]
    exact (settles.applied settled otherAnswered).2

theorem isSettled_answered
    (consistent : (world.answered answer).IsConsistent) :
    (world.answered answer).IsSettled := by
  refine ⟨consistent, ?_, ?_, ?_, ?_, ?_⟩
  · intro generation made
    exact (Store.holds_applyAll _ _ _).trans (settled.held generation made)
  · intro solution listed
    rcases List.mem_append.1 listed with old | new
    · exact settled.mentioned solution old
    · exact settles.mentioned solution new
  · intro module listed unresolved
    rcases settles.cases settled listed with
      ⟨_, _, _, _, resolved⟩ | ⟨_, wires, state⟩
    · rw [resolved] at unresolved
      cases unresolved
    · rw [state] at unresolved
      exact wires.trans (settled.fresh module listed unresolved)
  · intro module listed
    rcases settles.cases settled listed with
      ⟨solution, answered, _, wires, _⟩ | ⟨_, wires, _⟩
    · rw [wires]
      exact settles.keyed solution answered
    · rw [wires]
      exact settled.keyed module listed
  · intro module listed wire member
    rcases settles.wire_origin settled listed member with
      old | ⟨solution, answered, _, isNew⟩
    · obtain ⟨isBundle, resolved⟩ :=
        settled.served module listed wire old
      exact ⟨isBundle, settles.isResolved_answered settled
        (settled.exporter_mem_modules listed old) resolved⟩
    · exact ⟨(settles.served solution answered wire isNew).1,
        (settles.served_answered settled answered isNew).2⟩

/-! ## What one answer does to the law -/

/-- The law holds after an answer exactly if it held before and the exchange is
clean. -/
theorem unsuperseded_answered :
    (world.answered answer).Unsuperseded ↔
      world.Unsuperseded ∧ Exchange.IsClean ⟨world, answer⟩ := by
  constructor
  · intro law
    refine ⟨?_, ?_, ?_⟩
    · intro module listed resolved wire member theirs theirMember
      have exporter := settled.exporter_mem_modules listed member
      exact law module listed
        (settles.isResolved_answered settled listed resolved) wire
        (settles.wires_subset settled listed member) theirs
        (settles.wires_subset settled exporter theirMember)
    · intro solution answered wire isNew theirs theirMember
      have exporter := (settles.served_answered settled answered isNew).1
      exact law solution.host (settles.accepts.host_mem_modules answered)
        (settles.applied settled answered).2 wire
        (settles.mem_wires_of_new settled answered isNew) theirs
        (settles.wires_subset settled exporter theirMember)
    · intro solution answered wire isNew module listed resolved theirs
        theirMember isHost same
      have member := settles.mem_wires_of_new settled answered isNew
      rw [← isHost] at member
      exact law module listed
        (settles.isResolved_answered settled listed resolved) theirs
        (settles.wires_subset settled listed theirMember) wire member
        same.symm
  · rintro ⟨law, clean⟩ module listed _ wire member theirs theirMember same
    rcases settles.wire_origin settled listed member with
      old | ⟨solution, answered, _, isNew⟩
    · have resolved := settled.resolved_of_wired listed old
      have exporter := settled.exporter_mem_modules listed old
      rcases settles.wire_origin settled exporter theirMember with
        theirOld | ⟨other, otherAnswered, isExporter, theirNew⟩
      · exact law module listed resolved wire old theirs theirOld same
      · exact clean.spared other otherAnswered theirs theirNew module listed
          resolved wire old isExporter.symm same.symm
    · have exporter := (settles.served_answered settled answered isNew).1
      rcases settles.wire_origin settled exporter theirMember with
        theirOld | ⟨other, otherAnswered, isExporter, theirNew⟩
      · exact clean.chosen solution answered wire isNew theirs theirOld same
      · -- Both wires are new, and so they lead to one exporter.
        have proper := settles.accepts.proper other otherAnswered
        have listedWire := (List.mem_filter.1 theirNew).1
        have agreed := settles.agreed solution answered other otherAnswered
          wire (List.mem_filter.1 isNew).1 theirs listedWire same
        refine proper.foreign (settles.accepts.bundles other otherAnswered)
          theirs listedWire ?_
        rw [agreed, isExporter]

end Settles

/-! ## Generations that are installed -/

namespace IsSettled

variable (settled : world.IsSettled) (id : GenerationId)
  (manifest : Manifest)

include settled

theorem held_installed {generation : Generation}
    (made : generation ∈ (world.installed id manifest).made) :
    (world.installed id manifest).store.holds generation = true := by
  change (Table.find? (Table.insert world.store.records
    world.store.nextSerial ⟨.installed, none⟩)
      generation.serial).isSome = true
  rw [Table.find?_insert]
  split
  · rfl
  · rename_i older
    rcases List.mem_append.1 made with old | new
    · exact settled.held generation old
    · rw [List.mem_singleton.1 new] at older
      exact absurd rfl older

/-- Whatever was there stays as it was. -/
theorem installed_other {generation : Generation}
    (made : generation ∈ world.made) :
    (world.installed id manifest).store.wires generation =
        world.store.wires generation ∧
      (world.installed id manifest).store.state generation =
        world.store.state generation := by
  have record :
      (world.installed id manifest).store.records.find? generation.serial =
        world.store.records.find? generation.serial :=
    (Table.find?_insert _ _ _ _).trans
      (if_neg (Nat.ne_of_gt (settled.consistent.below generation made)))
  obtain ⟨own, found⟩ :=
    Option.isSome_iff_exists.1 (settled.held generation made)
  have known : ∀ solution, own.wiring = some solution →
      ∀ other ∈ solution.mentioned, other ∈ world.made :=
    fun solution wiring => settled.mentioned solution
      (settled.consistent.recorded found wiring).1
  refine ⟨?_, Store.state_congr record⟩
  unfold Store.wires
  rw [Store.wiring?_of_held found fun solution wiring other member =>
      settled.held other (known solution wiring other member),
    Store.wiring?_of_held (record.trans found)
      fun solution wiring other member => settled.held_installed id manifest
        (List.mem_append_left _ (known solution wiring other member))]

/-- A module of the larger world is an old one, or has no wires. -/
theorem installed_cases
    (listed : module ∈ (world.installed id manifest).modules) :
    (module ∈ world.modules ∧
      (world.installed id manifest).store.wires module =
        world.store.wires module ∧
      (world.installed id manifest).store.state module =
        world.store.state module) ∨
    (world.installed id manifest).store.wires module = [] := by
  obtain ⟨made, isBundle⟩ := mem_modules.1 listed
  rcases List.mem_append.1 made with old | new
  · exact .inl ⟨mem_modules.2 ⟨old, isBundle⟩,
      settled.installed_other id manifest old⟩
  · right
    have record :
        (world.installed id manifest).store.records.find? module.serial =
          some ⟨.installed, none⟩ := by
      rw [List.mem_singleton.1 new]
      exact (Table.find?_insert _ _ _ _).trans (if_pos rfl)
    unfold Store.wires
    rw [Store.wiring?_of_held record fun _ isNone => nomatch isNone]

theorem isSettled_installed :
    (world.installed id manifest).IsSettled := by
  refine ⟨settled.consistent.install id manifest,
    fun _ => settled.held_installed id manifest, ?_, ?_, ?_, ?_⟩
  · intro solution answered generation member
    exact List.mem_append_left _
      (settled.mentioned solution answered generation member)
  · intro module listed unresolved
    rcases settled.installed_cases id manifest listed with
      ⟨old, wires, state⟩ | none
    · rw [state] at unresolved
      exact wires.trans (settled.fresh module old unresolved)
    · exact none
  · intro module listed
    rcases settled.installed_cases id manifest listed with
      ⟨old, wires, _⟩ | none
    · exact wires ▸ settled.keyed module old
    · rw [none]
      exact List.nodup_nil
  · intro module listed wire member
    rcases settled.installed_cases id manifest listed with
      ⟨old, wires, _⟩ | none
    · rw [wires] at member
      have exporter :=
        (mem_modules.1 (settled.exporter_mem_modules old member)).1
      rw [(settled.installed_other id manifest exporter).2]
      exact settled.served module old wire member
    · rw [none] at member
      cases member

/-- To install a generation neither breaks the law nor mends it. -/
theorem unsuperseded_installed :
    (world.installed id manifest).Unsuperseded ↔ world.Unsuperseded := by
  constructor
  · intro law module listed resolved wire member
    obtain ⟨made, isBundle⟩ := mem_modules.1 listed
    obtain ⟨wires, state⟩ := settled.installed_other id manifest made
    have theirs := (settled.installed_other id manifest (mem_modules.1
      (settled.exporter_mem_modules listed member)).1).1
    rw [← theirs]
    exact law module (mem_modules.2 ⟨List.mem_append_left _ made, isBundle⟩)
      (state ▸ resolved) wire (wires ▸ member)
  · intro law module listed resolved wire member
    rcases settled.installed_cases id manifest listed with
      ⟨old, wires, state⟩ | none
    · rw [wires] at member
      rw [state] at resolved
      rw [(settled.installed_other id manifest (mem_modules.1
        (settled.exporter_mem_modules old member)).1).1]
      exact law module old resolved wire member
    · rw [none] at member
      cases member

end IsSettled

/-! ## Whole courses -/

theorem isSettled_start (policy : Policy) (framework : Framework) :
    (ofModules policy framework []).IsSettled := by
  have consistent :=
    (reachable_ofModules policy framework [] List.nodup_nil).isConsistent
  have none : ∀ module, module ∉ (ofModules policy framework []).modules :=
    fun _ => List.not_mem_nil
  exact ⟨consistent, fun _ made => absurd made List.not_mem_nil,
    fun _ answered => absurd answered List.not_mem_nil,
    fun _ listed => absurd listed (none _),
    fun _ listed => absurd listed (none _),
    fun _ listed => absurd listed (none _)⟩

theorem IsSettled.settles_resolve
    {target : Generation} (settled : world.IsSettled)
    (made : target ∈ world.made)
    (solved : world.resolver.resolve world.store target = .ok answer) :
    world.Settles answer := by
  obtain ⟨final, result, rfl⟩ := Resolver.exists_of_solutions solved
  obtain ⟨_, _, _, begun, run⟩ := Resolver.exists_run_of_attempt result
  exact Settles.of_run settled made run
    fun _ _ found => Draft.isHost_of_initial begun found

theorem IsSettled.settles_resolveDynamic
    {target : Generation} {wanted : Import} (settled : world.IsSettled)
    (made : target ∈ world.made) (isBundle : target.isFragment = false)
    (solved : world.resolver.resolveDynamic world.store target wanted =
      .ok answer) :
    world.Settles answer := by
  obtain ⟨final, result, rfl⟩ := Resolver.exists_of_solutions solved
  obtain ⟨_, _, _, begun, run⟩ :=
    Resolver.exists_run_of_attemptDynamic result
  have tracked := settled.consistent.target_tracked made run.tracks
  have alone : ∀ generation ∈ world.resolver.canonical world.store,
      generation.id = target.id → generation = target :=
    fun generation listed same =>
      List.inj_on_of_nodup_map settled.consistent.resolver.distinct
        (List.mem_filter.1 listed).1 tracked same
  exact Settles.of_run settled made run
    fun _ _ found => Draft.isHost_of_forDynamicImport isBundle alone begun found

namespace Course

variable {exchanges : List Exchange}

theorem isSettled (course : world.Course exchanges) :
    world.IsSettled := by
  induction course with
  | start policy framework => exact isSettled_start policy framework
  | install id manifest _ inductionHypothesis =>
      exact inductionHypothesis.isSettled_installed id manifest
  | add _ made added inductionHypothesis =>
      exact ⟨inductionHypothesis.consistent.step (.add made added),
        inductionHypothesis.held, inductionHypothesis.mentioned,
        inductionHypothesis.fresh, inductionHypothesis.keyed,
        inductionHypothesis.served⟩
  | resolve course made solved inductionHypothesis =>
      have settles := inductionHypothesis.settles_resolve made solved
      exact settles.isSettled_answered inductionHypothesis
        (course.resolve made solved).reachable.isConsistent
  | resolveDynamic course made isBundle solved inductionHypothesis =>
      have settles :=
        inductionHypothesis.settles_resolveDynamic made isBundle solved
      exact settles.isSettled_answered inductionHypothesis
        (course.resolveDynamic made isBundle solved).reachable.isConsistent

/-- The law holds after a course exactly if all its exchanges were clean. -/
theorem unsuperseded_iff (course : world.Course exchanges) :
    world.Unsuperseded ↔ ∀ exchange ∈ exchanges, exchange.IsClean := by
  induction course with
  | start policy framework =>
      constructor
      · intro _ exchange listed
        cases listed
      · intro _ module listed
        cases listed
  | install id manifest course inductionHypothesis =>
      exact (course.isSettled.unsuperseded_installed id manifest).trans
        inductionHypothesis
  | add _ _ _ inductionHypothesis => exact inductionHypothesis
  | resolve course made solved inductionHypothesis =>
      have settled := course.isSettled
      have settles := settled.settles_resolve made solved
      rw [settles.unsuperseded_answered settled, inductionHypothesis,
        List.forall_mem_append, List.forall_mem_singleton]
  | resolveDynamic course made isBundle solved inductionHypothesis =>
      have settled := course.isSettled
      have settles := settled.settles_resolveDynamic made isBundle solved
      rw [settles.unsuperseded_answered settled, inductionHypothesis,
        List.forall_mem_append, List.forall_mem_singleton]

/-- A module can be installed and added under a new identity. -/
theorem installing
    {module : GenerationId × Manifest} (course : world.Course exchanges)
    (started : world.resolver.framework.isSome = true)
    (new : ∀ generation ∈ world.resolver.tracked,
      generation.id ≠ module.1) :
    (world.installing module).Course exchanges :=
  (course.install module.1 module.2).add
    (List.mem_append_right _ List.mem_cons_self) (add_installed started new)

end Course

end World

namespace Sample

theorem course_world (modules : List Manifest) :
    (world modules).Course [] :=
  @World.ofModules_induction (World.Course · []) _ _ _ (nodup_ids modules)
    (.start _ _) fun _ _ course => course.installing

/-- A bundle that imports the version that is superseded. -/
def staleImporter : Manifest :=
  bundle "m" [] [wish "p" 1]

/-- The world in which it comes after the others have been resolved. -/
def staleWorld : World :=
  (substituted.answered [substitution, substitute]).installing
    (id 2, staleImporter)

/-- How it is resolved nevertheless. -/
def staleWiring : Solution where
  host := generation 2 staleImporter
  fragments := []
  wires := [⟨"p", offer "p" 1, generation 0 substitutable⟩]
  required := []

/-- The exporter of a later version. -/
def renewed : Manifest :=
  bundle "z" [offer "p" 2] []

/-- The world of an importer, its exporter and that of the later version. -/
def renewable : World :=
  world [importer, exporter, renewed]

/-- How the importer and its exporter are resolved. -/
def supply : List Solution :=
  [⟨generation 0 importer, [],
      [⟨"p", offer "p" 1, generation 1 exporter⟩], []⟩,
    ⟨generation 1 exporter, [], [], []⟩]

/-- The world in which they are. -/
def supplied : World :=
  renewable.answered supply

/-- How the exporter is wired to the later version. -/
def renewal : List Solution :=
  [⟨generation 1 exporter, [],
      [⟨"p", offer "p" 2, generation 2 renewed⟩], []⟩,
    ⟨generation 2 renewed, [], [], []⟩]

end Sample

/-- A bundle is wired to an export that had been superseded before, and an export
that a bundle had been wired to is superseded by a dynamic import. -/
theorem World.superseded_before_and_after :
    ((Sample.staleWorld.answered [Sample.staleWiring]).Course
        [⟨Sample.substituted, [Sample.substitution, Sample.substitute]⟩,
          ⟨Sample.staleWorld, [Sample.staleWiring]⟩] ∧
      ¬ (Sample.staleWorld.answered [Sample.staleWiring]).Unsuperseded) ∧
    (Sample.supplied.answered Sample.renewal).Course
        [⟨Sample.renewable, Sample.supply⟩,
          ⟨Sample.supplied, Sample.renewal⟩] ∧
      ¬ (Sample.supplied.answered Sample.renewal).Unsuperseded := by
  constructor
  · have later : Sample.staleWorld.resolver.resolve Sample.staleWorld.store
        (Sample.generation 2 Sample.staleImporter) =
          .ok [Sample.staleWiring] :=
      Search.eq_ok_of_toOption (by decide +kernel)
    have earlier : Sample.substituted.Course [] := Sample.course_world _
    have extended : Sample.staleWorld.Course
        [⟨Sample.substituted, [Sample.substitution, Sample.substitute]⟩] :=
      (earlier.resolve (by decide +kernel)
        Sample.resolve_substituted).installing
        (by decide +kernel) (by decide +kernel)
    have course := extended.resolve (by decide +kernel) later
    refine ⟨course, fun law => ?_⟩
    have clean := course.unsuperseded_iff.1 law
      ⟨Sample.staleWorld, [Sample.staleWiring]⟩ List.mem_concat_self
    have reaches : ¬ ∀ wire ∈ Sample.staleWorld.newWires Sample.staleWiring,
        ∀ theirs ∈ Sample.staleWorld.store.wires wire.exporter,
          theirs.package ≠ wire.package := by decide +kernel
    exact reaches (clean.chosen Sample.staleWiring List.mem_cons_self)
  · have solved : Sample.renewable.resolver.resolve Sample.renewable.store
        (Sample.generation 0 Sample.importer) = .ok Sample.supply :=
      Search.eq_ok_of_toOption (by decide +kernel)
    have renews : Sample.supplied.resolver.resolveDynamic
        Sample.supplied.store (Sample.generation 1 Sample.exporter)
          (Sample.wish "p" 2) = .ok Sample.renewal :=
      Search.eq_ok_of_toOption (by decide +kernel)
    have earlier : Sample.renewable.Course [] := Sample.course_world _
    have resolved : Sample.supplied.Course
        [⟨Sample.renewable, Sample.supply⟩] :=
      earlier.resolve (by decide +kernel) solved
    have course := resolved.resolveDynamic (by decide +kernel) rfl renews
    refine ⟨course, fun law => ?_⟩
    have clean := course.unsuperseded_iff.1 law
      ⟨Sample.supplied, Sample.renewal⟩ List.mem_concat_self
    have supersedes : ¬ ∀ solution ∈ Sample.renewal,
        ∀ wire ∈ Sample.supplied.newWires solution,
          ∀ module ∈ Sample.supplied.modules,
            (Sample.supplied.store.state module).isResolved = true →
              ∀ theirs ∈ Sample.supplied.store.wires module,
                theirs.exporter = solution.host →
                  theirs.package ≠ wire.package := by decide +kernel
    exact supersedes clean.spared

end ModuleWiring
