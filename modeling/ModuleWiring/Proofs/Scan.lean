import Mathlib.Algebra.BigOperators.Group.List.Basic
import Mathlib.Data.List.Perm.Basic
import ModuleWiring.Proofs.Preference
import ModuleWiring.Proofs.Providers
import ModuleWiring.Proofs.WellFormed

/-!
# All providers of an import

Only candidates that the index names for a package, or that have fragments, are
looked at when a provider is sought.  Wherever a search gets to, nobody is missed by
that: the choices are what a look at all offers of all candidates would give, group
by group, and each group in the order of preference.
-/

namespace ModuleWiring

namespace ExporterGroup

/-- The candidates that make up a group of exporters. -/
def includes (draft : Draft) : ExporterGroup → Candidate → Bool
  | .settled, .resolved wired => draft.used.contains wired.generation.id
  | .settled, .bound binding => draft.isSettled binding.host.id
  | .idle, .resolved wired => draft.unused.contains wired.generation.id
  | .unresolved, .unresolved installed =>
      !installed.isFragment && draft.unused.contains installed.id
  | .inProgress, .bound binding => !draft.isSettled binding.host.id
  | _, _ => false

end ExporterGroup

namespace Draft

/-- A candidate that is resolved, bound, or no fragment and free to be bound. -/
def mayProvide (draft : Draft) : Candidate → Bool
  | .resolved _ => true
  | .bound _ => true
  | .unresolved installed =>
      !installed.isFragment && draft.unused.contains installed.id

/-- Look at all offers of all candidates that are asked, except for the one in
charge. -/
def scan (draft : Draft) (requirement : PackageImport)
    (asked : Candidate → Bool) : List WireChoice :=
  (draft.candidates.members.filter fun candidate =>
    draft.resolving ≠ some candidate.id && asked candidate).flatMap
      (Search.choicesOf requirement)

end Draft

namespace WireChoice

/-- One choice has the better version, or the same version and no younger
exporter. -/
def GoesBefore (policy : Policy) (left right : WireChoice) : Prop :=
  (if policy.preferLowest then
      left.declared.version < right.declared.version
    else right.declared.version < left.declared.version) ∨
    left.declared.version = right.declared.version ∧
      ¬ right.exporter.id < left.exporter.id

end WireChoice

/-! ## The order of choices -/

instance : Std.LawfulEqOrd Version where
  eq_of_compare := by
    intro left right same
    change Version.order left right = .eq at same
    simp only [Version.order, Ordering.then_eq_eq,
      Std.LawfulEqCmp.compare_eq_iff_eq] at same
    obtain ⟨major, minor, micro, qualifier⟩ := same
    cases left
    cases right
    simp_all

theorem GenerationId.not_lt_of_isLE_compare
    {left right : GenerationId} (le : (compare left right).isLE = true) :
    ¬ right < left := by
  have parts := Ordering.isLE_then_iff_or.1 le
  rw [Nat.compare_eq_lt, Nat.compare_eq_eq, Nat.isLE_compare] at parts
  rw [GenerationId.lt_def]
  omega

theorem WireChoice.goesBefore_of_precedes
    {policy : Policy} {left right : WireChoice}
    (precedes : policy.Precedes WireChoice.preference left right) :
    left.GoesBefore policy right := by
  obtain ⟨preferLowest⟩ := policy
  rcases Ordering.isLE_then_iff_or.1 precedes with better | ⟨same, older⟩
  · cases preferLowest with
    | true => exact .inl better
    | false => exact .inl better
  · refine .inr ⟨?_, GenerationId.not_lt_of_isLE_compare older⟩
    cases preferLowest with
    | true =>
        have equal : compare left.declared.version
            right.declared.version = .eq := same
        exact Std.LawfulEqCmp.eq_of_compare equal
    | false =>
        have equal : compare right.declared.version
            left.declared.version = .eq := same
        exact (Std.LawfulEqCmp.eq_of_compare equal).symm

/-! ## What is left out makes no difference -/

theorem flatMap_filter_and
    {α β : Type} {items : List α} {parts : α → List β} {keep also : α → Bool}
    (needless : ∀ item ∈ items, parts item ≠ [] → also item = true) :
    (items.filter fun item => keep item && also item).flatMap parts =
      (items.filter keep).flatMap parts := by
  induction items with
  | nil => rfl
  | cons first rest inductionHypothesis =>
      have later := inductionHypothesis fun item member =>
        needless item (List.mem_cons_of_mem _ member)
      cases allowed : also first with
      | true =>
          rw [List.filter_cons, List.filter_cons, allowed, Bool.and_true]
          split
          · rw [List.flatMap_cons, List.flatMap_cons, later]
          · exact later
      | false =>
          have empty : parts first = [] := by
            by_contra some
            rw [needless first List.mem_cons_self some] at allowed
            cases allowed
          rw [List.filter_cons, List.filter_cons, allowed, Bool.and_false,
            if_neg Bool.false_ne_true, later]
          split
          · rw [List.flatMap_cons, empty, List.nil_append]
          · rfl

/-- What is in some group is listed once if the groups are listed one after the
other. -/
theorem perm_flatMap_groups
    {α : Type} (group? : α → Option ExporterGroup) (items : List α) :
    ([.settled, .idle, .unresolved, .inProgress].flatMap fun group =>
      items.filter fun item => group? item = some group).Perm
        (items.filter fun item => (group? item).isSome) := by
  classical
  simp only [List.flatMap_cons, List.flatMap_nil, List.append_nil]
  induction items with
  | nil => exact .refl _
  | cons first rest inductionHypothesis =>
      rw [List.perm_iff_count] at inductionHypothesis ⊢
      intro item
      have before := inductionHypothesis item
      simp only [List.count_append] at before ⊢
      cases belongs : group? first with
      | none => simpa [List.filter_cons, belongs] using before
      | some group =>
          cases group <;>
            simp [belongs, List.count_cons] <;> omega

namespace Search

variable {search : Search} {draft : Draft} {candidate : Candidate}
  {requirement : PackageImport} {known : Generation → Prop}

/-- A candidate other than the one in charge is in the groups that include it. -/
theorem group?_eq_some_iff
    (wellFormed : draft.IsWellFormed)
    (present : candidate ∈ draft.candidates.members)
    {group : ExporterGroup} :
    group? draft candidate = some group ↔
      draft.resolving ≠ some candidate.id ∧
        group.includes draft candidate = true := by
  have found := Roster.find?_of_mem present
  unfold group?
  by_cases inCharge : draft.resolving = some candidate.id
  · simp [inCharge]
  · rw [if_neg inCharge, and_iff_right inCharge]
    cases candidate with
    | resolved wired =>
        have settled : draft.used.contains wired.generation.id =
            !draft.unused.contains wired.generation.id :=
          wellFormed.resolved _ wired found
        cases isUnused : draft.unused.contains wired.generation.id <;>
          cases group <;>
            simp [ExporterGroup.includes, Candidate.id,
              Candidate.generation, settled, isUnused]
    | bound binding =>
        cases isSettled : draft.isSettled binding.host.id <;>
          cases group <;>
            simp [ExporterGroup.includes, Candidate.id,
              Candidate.generation, isSettled]
    | unresolved installed =>
        cases isFragment : installed.isFragment <;>
          cases isUnused : draft.unused.contains installed.id <;>
            cases group <;>
              simp [ExporterGroup.includes, Candidate.id,
                Candidate.generation, isFragment, isUnused]

/-- It is in some group if it may provide anything. -/
theorem isSome_group?_iff :
    (group? draft candidate).isSome = true ↔
      draft.resolving ≠ some candidate.id ∧
        draft.mayProvide candidate = true := by
  unfold group?
  by_cases inCharge : draft.resolving = some candidate.id
  · simp [inCharge]
  · rw [if_neg inCharge, and_iff_right inCharge]
    cases candidate with
    | resolved wired =>
        dsimp only
        split <;> exact iff_of_true rfl rfl
    | bound binding =>
        dsimp only
        split <;> exact iff_of_true rfl rfl
    | unresolved installed =>
        cases isFragment : installed.isFragment <;>
          cases isUnused : draft.unused.contains installed.id <;>
            simp [Draft.mayProvide, Candidate.id, Candidate.generation,
              isFragment, isUnused]

/-- Who has something to offer for an import is looked at. -/
theorem mayExport_of_choicesOf
    (rooted : candidate.IsRooted known)
    (indexed : ∀ package ∈
      candidate.generation.manifest.exports.flatMap Export.packages,
        candidate.id ∈ search.index.exporters package)
    (some : choicesOf requirement candidate ≠ []) :
    search.mayExport candidate requirement.package = true := by
  obtain ⟨choice, member⟩ := List.exists_mem_of_ne_nil _ some
  obtain ⟨offer, offered, _⟩ := List.mem_map.1 member
  obtain ⟨listed, fits⟩ := List.mem_filter.1 offered
  simp only [Bool.and_eq_true, Option.isNone_iff_eq_none,
    decide_eq_true_eq] at fits
  obtain ⟨⟨own, package⟩, _⟩ := fits
  obtain ⟨⟨member, among, exported⟩, exports⟩ := rooted.offers offer listed own
  unfold mayExport
  cases fragments : candidate.fragments with
  | cons first rest => rfl
  | nil =>
      rw [fragments, List.mem_singleton] at among
      subst among
      have named := indexed requirement.package
        (List.mem_flatMap.2 ⟨offer.declared, exported, package ▸ exports⟩)
      simpa using named

/-- A group lists what a look at all of its candidates gives. -/
theorem groupChoices_perm
    (wellFormed : draft.IsWellFormed)
    (looked : ∀ candidate ∈ draft.candidates.members,
      choicesOf requirement candidate ≠ [] →
        search.mayExport candidate requirement.package = true)
    (group : ExporterGroup) :
    (search.groupChoices draft requirement group).Perm
      (draft.scan requirement (group.includes draft)) := by
  unfold groupChoices Draft.scan
  refine (search.policy.perm_sort _ _).trans (.of_eq ?_)
  rw [flatMap_filter_and looked]
  refine congrArg (List.flatMap _) (List.filter_congr ?_)
  intro candidate present
  rw [Bool.eq_iff_iff]
  simpa using group?_eq_some_iff wellFormed present

theorem pairwise_groupChoices (group : ExporterGroup) :
    (search.groupChoices draft requirement group).Pairwise
      (·.GoesBefore search.policy ·) :=
  (Policy.pairwise_sort _).imp WireChoice.goesBefore_of_precedes

/-- The choices are what a look at everything gives. -/
theorem wireChoices_perm
    (looked : ∀ candidate ∈ draft.candidates.members,
      choicesOf requirement candidate ≠ [] →
        search.mayExport candidate requirement.package = true) :
    (search.wireChoices draft requirement).Perm
      (draft.scan requirement draft.mayProvide) := by
  have grouped : ∀ group ∈
      [ExporterGroup.settled, .idle, .unresolved, .inProgress],
        (search.groupChoices draft requirement group).Perm
          ((draft.candidates.members.filter fun candidate =>
            group? draft candidate = some group).flatMap
              (choicesOf requirement)) := by
    intro group _
    refine (search.policy.perm_sort _ _).trans (.of_eq ?_)
    exact flatMap_filter_and looked
  refine (List.Perm.flatMap_left _ grouped).trans ?_
  rw [← List.flatMap_assoc]
  refine ((perm_flatMap_groups (group? draft) _).flatMap_right _).trans
    (.of_eq ?_)
  refine congrArg (List.flatMap _) (List.filter_congr ?_)
  intro candidate _
  rw [Bool.eq_iff_iff, isSome_group?_iff]
  simp

end Search

/-! ## What a look at all candidates finds -/

section Counted

variable {draft : Draft} {candidate : Candidate} {requirement : PackageImport}

/-- A candidate gives a choice as often as it offers the package with that export
itself. -/
theorem Search.count_choicesOf (choice : WireChoice) :
    (choicesOf requirement candidate).count choice =
      if candidate.generation = choice.exporter ∧
          requirement.accepts choice.declared choice.exporter = true then
        candidate.offers.count ⟨requirement.package, choice.declared, none⟩
      else
        0 := by
  obtain ⟨exporter, declared⟩ := choice
  simp only [choicesOf, List.count_eq_countP, List.countP_map,
    List.countP_filter, Function.comp_apply]
  split
  · rename_i fits
    obtain ⟨rfl, accepted⟩ := fits
    refine List.countP_congr ?_
    rintro ⟨package, exported, source⟩ _
    simp only [Bool.and_eq_true, beq_iff_eq, decide_eq_true_eq,
      Option.isNone_iff_eq_none]
    grind
  · rename_i unfit
    refine List.countP_eq_zero.2 ?_
    rintro ⟨package, exported, source⟩ _
    simp only [Bool.and_eq_true, beq_iff_eq, decide_eq_true_eq,
      Option.isNone_iff_eq_none]
    grind

theorem Roster.nodup_members
    {α : Type} {key : α → GenerationId} (roster : Roster key) :
    roster.members.Nodup :=
  List.Nodup.of_map key (roster.ascending.imp GenerationId.ne_of_lt)

/-- A choice is found if its exporter is asked, is not the one in charge and offers
the package with the export of the choice itself, and as often as it does. -/
theorem Draft.count_scan (asked : Candidate → Bool) (choice : WireChoice) :
    (draft.scan requirement asked).count choice =
      (draft.candidate? choice.exporter.id).elim 0 fun candidate =>
        if draft.resolving ≠ some candidate.id ∧ asked candidate = true ∧
            candidate.generation = choice.exporter ∧
              requirement.accepts choice.declared choice.exporter = true then
          candidate.offers.count ⟨requirement.package, choice.declared, none⟩
        else
          0 := by
  classical
  have known : ∀ other ∈ draft.candidates.members,
      other.id = choice.exporter.id →
        draft.candidate? choice.exporter.id = some other := by
    intro other present same
    rw [← same]
    exact Roster.find?_of_mem present
  have others : ∀ other : Candidate, other.id ≠ choice.exporter.id →
      (Search.choicesOf requirement other).count choice = 0 := by
    intro other different
    rw [Search.count_choicesOf, if_neg]
    rintro ⟨same, _⟩
    exact different (congrArg Generation.id same)
  unfold scan
  rw [List.count_flatMap]
  cases found : draft.candidate? choice.exporter.id with
  | none =>
      refine List.sum_eq_zero fun count listed => ?_
      obtain ⟨other, member, rfl⟩ := List.mem_map.1 listed
      refine others other fun same => ?_
      have hit := known other (List.mem_filter.1 member).1 same
      rw [found] at hit
      cases hit
  | some candidate =>
      have present := Draft.mem_of_candidate? found
      have single : ∀ other, other ≠ candidate →
          other ∈ draft.candidates.members.filter (fun candidate =>
            draft.resolving ≠ some candidate.id && asked candidate) →
            (List.count choice ∘ Search.choicesOf requirement) other = 0 := by
        intro other different member
        refine others other fun same => different ?_
        have hit := known other (List.mem_filter.1 member).1 same
        exact Option.some.inj (hit.symm.trans found)
      rw [List.sum_map_eq_nsmul_single candidate _ single]
      have once : draft.candidates.members.count candidate = 1 :=
        List.count_eq_one_of_mem draft.candidates.nodup_members present
      by_cases asks :
          draft.resolving ≠ some candidate.id ∧ asked candidate = true
      · rw [List.count_filter (by simpa using asks), once, one_nsmul]
        simp [Search.count_choicesOf, asks]
      · rw [List.count_eq_zero_of_not_mem, zero_nsmul]
        · grind
        · intro member
          exact asks (by simpa using (List.mem_filter.1 member).2)

theorem Draft.mem_scan {asked : Candidate → Bool} {choice : WireChoice} :
    choice ∈ draft.scan requirement asked ↔
      ∃ candidate, draft.candidate? choice.exporter.id = some candidate ∧
        candidate.generation = choice.exporter ∧
        draft.resolving ≠ some choice.exporter.id ∧
        asked candidate = true ∧
        requirement.accepts choice.declared choice.exporter = true ∧
        ⟨requirement.package, choice.declared, none⟩ ∈ candidate.offers := by
  rw [← List.count_pos_iff, count_scan]
  cases found : draft.candidate? choice.exporter.id with
  | none => simp
  | some candidate =>
      have same : candidate.id = choice.exporter.id :=
        Draft.id_of_candidate? found
      rw [← same]
      simp only [Option.elim_some, Option.some.injEq, exists_eq_left']
      split
      · rename_i fits
        rw [List.count_pos_iff]
        simp [fits]
      · grind

end Counted

namespace Resolver

/-- A call for a target starts a search that may get to a position. -/
inductive Reaches (resolver : Resolver) (store : Store)
    (target : Generation) : Search → Node → Prop where
  | resolve {search : Search} {draft : Draft} {node : Node} :
      resolver.initialDraft store target = .ok (search, draft) →
      search.problem.Line ⟨.start, draft⟩ node →
      Reaches resolver store target search node
  | dynamic {wanted : Import} {search : Search} {draft : Draft}
      {node : Node} :
      resolver.dynamicDraft store target wanted = .ok (search, draft) →
      search.problem.Line ⟨.requires, draft⟩ node →
      Reaches resolver store target search node

variable {resolver : Resolver} {store : Store} {target : Generation}
  {search : Search} {node : Node}

/-- Either search begins in good order. -/
theorem Reaches.exists_start
    (reaches : resolver.Reaches store target search node) :
    ∃ framework start, search = resolver.search framework ∧
      resolver.tracks target = true ∧
      start.draft.Begins store (resolver.canonical store) target ∧
      Search.IsOrderly start ∧ search.problem.Line start node := by
  cases reaches with
  | resolve prepared line =>
      obtain ⟨framework, same, _, tracks, installed, begun⟩ :=
        exists_of_initialDraft prepared
      have begins := Draft.begins_of_initial (by rw [installed]; rfl) begun
      exact ⟨framework, _, same, tracks, begins.1,
        Search.isOrderly_of_initial begun, line⟩
  | dynamic prepared line =>
      obtain ⟨framework, same, _, tracks, resolved, begun⟩ :=
        exists_of_dynamicDraft prepared
      have begins := Draft.begins_of_forDynamicImport resolved begun
      exact ⟨framework, _, same, tracks, begins.1,
        Search.isOrderly_of_forDynamicImport begun, line⟩

end Resolver

namespace World

variable {world : World} {target : Generation} {search : Search} {node : Node}

/-- Wherever a search gets to, the choices for an import are exactly the offers that
meet it, of all that may provide it.  They come in groups, each of them complete and
in the order of preference. -/
theorem Reachable.wireChoices_exact
    (reachable : world.Reachable) (made : target ∈ world.made)
    (reaches : world.resolver.Reaches world.store target search node)
    (requirement : PackageImport) :
    (search.wireChoices node.draft requirement).Perm
        (node.draft.scan requirement node.draft.mayProvide) ∧
      ∃ choices : ExporterGroup → List WireChoice,
        search.wireChoices node.draft requirement =
            choices .settled ++ choices .idle ++ choices .unresolved ++
              choices .inProgress ∧
          ∀ group,
            (choices group).Perm
                (node.draft.scan requirement (group.includes node.draft)) ∧
              (choices group).Pairwise (·.GoesBefore search.policy ·) := by
  have consistent := reachable.isConsistent
  obtain ⟨framework, start, same, tracks, begins, orderly, line⟩ :=
    reaches.exists_start
  have rooted := Search.isRooted_of_line line orderly.scheduled
    (Resolver.isRooted_of_begins begins consistent.sound made
      consistent.tracked)
  have tracked : Search.Everywhere (fun candidate =>
      candidate.generation ∈ world.resolver.tracked) node := by
    refine Search.everywhere_of_line line orderly.scheduled ?_ ?_
    · intro id candidate found
      rcases (begins.given found).1 with listed | isTarget
      · exact (tracked_of_canonical listed).1
      · exact isTarget ▸ consistent.target_tracked made tracks
    · intro _ _ _ _ _ evolution listed
      rw [evolution.generation]
      exact listed
  have looked : ∀ candidate ∈ node.draft.candidates.members,
      Search.choicesOf requirement candidate ≠ [] →
        search.mayExport candidate requirement.package = true := by
    intro candidate present some
    have found := Roster.find?_of_mem present
    refine Search.mayExport_of_choicesOf (rooted found) ?_ some
    rw [same]
    exact consistent.resolver.indexed _ (tracked found)
  have wellFormed := (Search.path_of_line orderly line).2.isWellFormed
  refine ⟨Search.wireChoices_perm looked,
    search.groupChoices node.draft requirement, ?_, fun group =>
      ⟨Search.groupChoices_perm wellFormed looked group,
        Search.pairwise_groupChoices group⟩⟩
  simp [Search.wireChoices]

end World

namespace Sample

/-- A bundle that exports nothing but by its fragment. -/
def archive : Manifest :=
  bundle "x" [] []

def supplement : Manifest :=
  fragment "f" "x" [offer "p" 1] []

/-- A bundle that exports two later versions of the package. -/
def shelf : Manifest :=
  bundle "y" [offer "p" 2, offer "p" 3] []

/-- A bundle that imports the package, whatever its version. -/
def reader : Manifest :=
  bundle "a" [] [Import.of ["p"]]

/-- The world in which the first of them has been resolved with its fragment. -/
def stocked : World :=
  (world [archive, supplement, shelf, reader]).applying
    (generation 0 archive) fun _ => true

end Sample

/-- The package of the fragment comes first, since its host is resolved, and then
the others by version. -/
theorem World.stocked_choices_exact :
    ∃ search draft,
      Sample.stocked.resolver.initialDraft Sample.stocked.store
          (Sample.generation 3 Sample.reader) = .ok (search, draft) ∧
        search.index.exporters "p" = [Sample.id 1, Sample.id 2] ∧
        search.wireChoices draft ⟨"p", Import.of ["p"]⟩ =
          [⟨Sample.generation 0 Sample.archive, Sample.offer "p" 1⟩,
            ⟨Sample.generation 2 Sample.shelf, Sample.offer "p" 3⟩,
            ⟨Sample.generation 2 Sample.shelf, Sample.offer "p" 2⟩] ∧
        (search.wireChoices draft ⟨"p", Import.of ["p"]⟩).Perm
          (draft.scan ⟨"p", Import.of ["p"]⟩ draft.mayProvide) := by
  have facts : (Sample.stocked.resolver.initialDraft Sample.stocked.store
      (Sample.generation 3 Sample.reader)).toOption.any (fun begun =>
        begun.1.index.exporters "p" = [Sample.id 1, Sample.id 2] ∧
        begun.1.wireChoices begun.2 ⟨"p", Import.of ["p"]⟩ =
          [⟨Sample.generation 0 Sample.archive, Sample.offer "p" 1⟩,
            ⟨Sample.generation 2 Sample.shelf, Sample.offer "p" 3⟩,
            ⟨Sample.generation 2 Sample.shelf, Sample.offer "p" 2⟩]) =
              true := by
    decide +kernel
  obtain ⟨⟨search, draft⟩, made, holds⟩ := Option.any_eq_true _ _ |>.1 facts
  obtain ⟨indexed, listed⟩ := of_decide_eq_true holds
  have prepared := Search.eq_ok_of_toOption made
  have reachable : Sample.stocked.Reachable :=
    (Sample.reachable_world _).applying (by decide +kernel) _
  have exactly := reachable.wireChoices_exact (by decide +kernel)
    (.resolve prepared .refl) ⟨"p", Import.of ["p"]⟩
  exact ⟨search, draft, prepared, indexed, listed, exactly.1⟩

end ModuleWiring
