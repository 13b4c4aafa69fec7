import Mathlib.Data.List.Basic
import ModuleWiring.Proofs.Bystander
import ModuleWiring.Proofs.Preference
import ModuleWiring.Proofs.Subsets
import ModuleWiring.Proofs.Pruning
import ModuleWiring.Proofs.WellFormed

/-!
# Searches with and without a bystander

A search that has one generation less to choose from offers the same moves in the
same order, up to those that involve the generation, and each of them leads to
the same position.  Main statement: `prunes`.
-/

namespace ModuleWiring

/-- What is not kept of a flattened list can be left out before, part by part. -/
theorem filter_flatMap_of
    {α β : Type} {items : List α} {parts : α → List β}
    (keep : α → Bool) (keepPart : β → Bool)
    (same : ∀ item ∈ items, ∀ part ∈ parts item, keepPart part = keep item) :
    (items.flatMap parts).filter keepPart =
      (items.filter keep).flatMap parts := by
  induction items with
  | nil => rfl
  | cons item rest inductionHypothesis =>
      have later := inductionHypothesis fun other member =>
        same other (List.mem_cons_of_mem _ member)
      have here := same item List.mem_cons_self
      rw [List.flatMap_cons, List.filter_append, later, List.filter_cons]
      cases kept : keep item with
      | true =>
          rw [if_pos rfl, List.flatMap_cons, List.filter_eq_self.2]
          exact fun part member => (here part member).trans kept
      | false =>
          rw [if_neg Bool.false_ne_true, List.filter_eq_nil_iff.2,
            List.nil_append]
          intro part member
          rw [here part member, kept]
          exact Bool.false_ne_true

/-- Whether a move does without a generation. -/
def Move.avoids (id : GenerationId) : Move → Bool
  | .attach fragment host => fragment ≠ id && host ≠ id
  | .bind host fragments => host ≠ id && fragments.all (· ≠ id)
  | .provide provider => provider.id ≠ id
  | .wire choice => choice.exporter.id ≠ id
  | .toRequires | .leaveRequire | .toImports | .leaveImport | .settle => true

namespace Search

/-- A search that one generation is taken out of. -/
structure Without (id : GenerationId) (search less : Search) : Prop where
  framework : less.framework = search.framework
  policy : less.policy = search.policy
  exporters : ∀ package other, other ≠ id →
    (less.index.exporters package).contains other =
      (search.index.exporters package).contains other

variable {id : GenerationId} {search less : Search} {full rest : Draft}

/-! ## The same choices -/

theorem members_eq (without : full.Without id rest) :
    rest.candidates.members =
      full.candidates.members.filter (·.id ≠ id) := by
  rw [without.candidates]
  rfl

theorem group?_eq
    (without : full.Without id rest) {candidate : Candidate}
    (different : candidate.id ≠ id) :
    group? rest candidate = group? full candidate := by
  unfold group? Draft.isSettled
  rw [without.resolving, without.used, without.settled,
    without.contains_unused_eq different]

theorem groupChoices_eq
    (omits : search.Without id less) (without : full.Without id rest)
    (requirement : PackageImport) (group : ExporterGroup) :
    less.groupChoices rest requirement group =
      (search.groupChoices full requirement group).filter
        (·.exporter.id ≠ id) := by
  unfold groupChoices
  rw [omits.policy, ← Policy.sort_filter, filter_flatMap_of (·.id ≠ id),
    members_eq without,
    List.filter_comm fun candidate : Candidate => decide (candidate.id ≠ id)]
  · refine congrArg _ (congrArg (List.flatMap _) ?_)
    refine List.filter_congr fun candidate member => ?_
    have different : candidate.id ≠ id := by
      simpa using (List.mem_filter.1 member).2
    unfold mayExport
    rw [group?_eq without different, omits.exporters _ _ different]
  · intro candidate _ choice member
    obtain ⟨offer, _, rfl⟩ := List.mem_map.1 member
    rfl

theorem wireChoices_eq
    (omits : search.Without id less) (without : full.Without id rest)
    (requirement : PackageImport) :
    less.wireChoices rest requirement =
      (search.wireChoices full requirement).filter (·.exporter.id ≠ id) := by
  unfold wireChoices
  rw [List.filter_flatMap]
  exact List.flatMap_congr fun group _ =>
    groupChoices_eq omits without requirement group

theorem providersAmong_eq
    (omits : search.Without id less) (without : full.Without id rest)
    (require : Require) (ids : IdSet) :
    less.providersAmong rest require (ids.erase id) =
      (search.providersAmong full require ids).filter (·.id ≠ id) := by
  have among : (ids.erase id).members.filterMap rest.generation? =
      (ids.members.filterMap full.generation?).filter (·.id ≠ id) := by
    change (ids.members.filter (· ≠ id)).filterMap rest.generation? = _
    rw [List.filterMap_filter, List.filter_filterMap]
    refine List.filterMap_congr fun other _ => ?_
    have keyed : ∀ generation ∈ full.generation? other,
        generation.id = other := by
      intro generation found
      obtain ⟨candidate, hit, rfl⟩ := Option.map_eq_some_iff.1 found
      exact Draft.id_of_candidate? hit
    by_cases same : other = id
    · subst same
      rw [if_neg (by simp), eq_comm, Option.filter_eq_none_iff]
      intro generation found
      simp [keyed generation found]
    · rw [if_pos (by simpa using same), without.generation?_eq same]
      cases found : full.generation? other with
      | none => rfl
      | some generation =>
          rw [Option.filter_some, if_pos]
          simpa [keyed generation found] using same
  unfold providersAmong
  rw [omits.policy, ← Policy.sort_filter, among, List.filter_comm,
    without.resolving]

theorem requireChoices_eq
    (omits : search.Without id less) (without : full.Without id rest)
    (idle : full.used.contains id = false) (require : Require) :
    less.requireChoices rest require =
      (search.requireChoices full require).filter (·.id ≠ id) := by
  unfold requireChoices
  rw [List.filter_append, without.used, without.unused,
    ← providersAmong_eq omits without, ← providersAmong_eq omits without,
    Roster.erase_of_not_contains idle]

/-- The generations of candidates at one stage. -/
theorem generations_eq
    (without : full.Without id rest) {stage restStage : Candidate → Bool}
    (same : ∀ candidate, candidate.id ≠ id →
      restStage candidate = stage candidate) :
    (rest.candidates.members.filter restStage).map Candidate.generation =
      ((full.candidates.members.filter stage).map
        Candidate.generation).filter (·.id ≠ id) := by
  rw [members_eq without, List.filter_map, List.filter_comm _ stage]
  refine congrArg (List.map _) ?_
  refine List.filter_congr fun candidate member => ?_
  exact same candidate (by simpa using (List.mem_filter.1 member).2)

theorem hostChoices_eq
    (omits : search.Without id less) (without : full.Without id rest)
    (fragment : Generation) :
    less.hostChoices rest fragment =
      (search.hostChoices full fragment).filter (·.id ≠ id) := by
  unfold hostChoices
  rw [List.filter_flatMap]
  refine List.flatMap_congr fun stage _ => ?_
  unfold hostsAmong
  rw [omits.policy, omits.framework, ← Policy.sort_filter, List.filter_comm,
    generations_eq without fun _ _ => rfl]

theorem fragmentChoices_eq
    (omits : search.Without id less) (without : full.Without id rest)
    (host : Generation) :
    less.fragmentChoices rest host =
      (search.fragmentChoices full host).filter (·.id ≠ id) := by
  have free : ∀ candidate : Candidate, candidate.id ≠ id →
      isFreeFragment rest candidate = isFreeFragment full candidate := by
    intro candidate different
    unfold isFreeFragment
    rw [without.contains_unused_eq different, without.attached]
  unfold fragmentChoices
  rw [omits.policy, omits.framework, ← Policy.sort_filter, List.filter_comm,
    generations_eq without free]

/-! ## The same moves -/

theorem startMoves_eq
    (omits : search.Without id less) (without : full.Without id rest)
    (busy : full.resolving ≠ some id) :
    (less.startMoves rest).toList =
      (search.startMoves full).toList.filter (Move.avoids id) := by
  unfold startMoves
  rw [without.resolving]
  cases resolving : full.resolving with
  | none => rfl
  | some current =>
      have different : current ≠ id := by
        rintro rfl
        exact busy resolving
      dsimp only
      rw [without.candidate?_eq different]
      cases full.candidate? current with
      | none => rfl
      | some candidate =>
          dsimp only
          rw [without.attached]
          split
          · split
            · rw [Alternatives.toList_ofList, Alternatives.toList_ofList,
                hostChoices_eq omits without, List.filter_map]
              simp [Function.comp_def, Move.avoids, different]
            · rfl
          · have fragments : ((search.fragmentChoices full
                candidate.generation).filter (·.id ≠ id)).map
                  Generation.id =
                    ((search.fragmentChoices full candidate.generation).map
                      Generation.id).filter (· ≠ id) := by
              rw [List.filter_map]
              rfl
            rw [Alternatives.toList_map, Alternatives.toList_map,
              fragmentChoices_eq omits without, fragments,
              toList_subsets_filter, List.filter_map]
            simp [Function.comp_def, Move.avoids, different]

theorem requireMoves_eq
    (omits : search.Without id less) (without : full.Without id rest)
    (busy : full.resolving ≠ some id)
    (idle : full.used.contains id = false) :
    less.requireMoves rest =
      (search.requireMoves full).filter (Move.avoids id) := by
  unfold requireMoves Draft.nextRequire?
  rw [without.resolving, without.resolvingBound?_eq busy]
  split
  · rfl
  · split
    · rfl
    · rw [List.filter_append, requireChoices_eq omits without idle,
        List.filter_map]
      refine congrArg₂ _ rfl ?_
      split <;> rfl

theorem importMoves_eq
    (omits : search.Without id less) (without : full.Without id rest)
    (busy : full.resolving ≠ some id) :
    less.importMoves rest =
      (search.importMoves full).filter (Move.avoids id) := by
  unfold importMoves
  rw [without.resolvingBound?_eq busy]
  split
  · rfl
  · split
    · rfl
    · unfold importChoices
      rw [omits.framework]
      split
      · split <;> rfl
      · split
        · rfl
        · rw [List.filter_append, wireChoices_eq omits without,
            List.filter_map]
          refine congrArg₂ _ rfl ?_
          split <;> rfl

/-! ## The same positions -/

/-- The search is at a position with and without a bystander, which has been left
alone so far. -/
structure Beside (bystander : Generation) (node other : Node) : Prop where
  phase : other.phase = node.phase
  without : node.draft.Without bystander.id other.draft
  avoids : other.draft.Avoids bystander.id
  orderly : IsOrderly node
  otherOrderly : IsOrderly other
  found : node.draft.candidate? bystander.id = some (.unresolved bystander)

namespace Beside

variable {bystander : Generation} {node other : Node}

/-- A bystander is not in charge. -/
theorem busy (beside : Beside bystander node other) :
    node.draft.resolving ≠ some bystander.id := by
  intro resolving
  rw [← beside.without.resolving] at resolving
  obtain ⟨candidate, found, _⟩ :=
    beside.otherOrderly.scheduled.exists_of_resolving resolving
  exact beside.without.ne_of_candidate? found rfl

/-- A bystander does not take part. -/
theorem idle (beside : Beside bystander node other) :
    node.draft.used.contains bystander.id = false := by
  refine Bool.eq_false_iff.2 fun isUsed => ?_
  rw [← beside.without.used] at isUsed
  obtain ⟨candidate, found, _⟩ := beside.otherOrderly.balanced.used isUsed
  exact beside.without.ne_of_candidate? found rfl

theorem moves_eq
    (beside : Beside bystander node other)
    (omits : search.Without bystander.id less) :
    (less.moves other).toList =
      (search.moves node).toList.filter (Move.avoids bystander.id) := by
  unfold moves
  rw [beside.phase]
  cases node.phase with
  | start => exact startMoves_eq omits beside.without beside.busy
  | requires =>
      rw [Alternatives.toList_ofList, Alternatives.toList_ofList]
      exact requireMoves_eq omits beside.without beside.busy beside.idle
  | imports =>
      rw [Alternatives.toList_ofList, Alternatives.toList_ofList]
      exact importMoves_eq omits beside.without beside.busy
  | finished => rfl

end Beside

section Plays

variable (without : full.Without id rest) (avoids : rest.Avoids id)
  (busy : full.resolving ≠ some id) (idle : full.used.contains id = false)

include without avoids idle in
theorem isWireConsistent_eq
    {bound : BoundModule} (current : rest.resolvingBound? = some bound)
    (package : String) {choice : WireChoice}
    (different : choice.exporter.id ≠ id) :
    isWireConsistent rest bound package choice =
      isWireConsistent full bound package choice := by
  have leads := avoids.leads (Draft.candidate?_of_resolvingBound? current)
  unfold isWireConsistent
  rw [without.implied_eq avoids different,
    without.accepted_eq avoids leads.wires, without.agrees_eq idle]

include without avoids busy idle in
theorem isRequireConsistent_eq
    {provider : Generation} (different : provider.id ≠ id) :
    isRequireConsistent rest provider = isRequireConsistent full provider := by
  have visible : (rest.visible provider).flatMap rest.implied =
      (full.visible provider).flatMap full.implied := by
    rw [← without.visible_eq avoids different]
    refine List.flatMap_congr fun wire member =>
      without.implied_eq avoids ?_
    exact Draft.known_of_mem_visible avoids.stored avoids.leads different
      wire member
  unfold isRequireConsistent
  rw [← without.resolvingBound?_eq busy, visible, without.agrees_eq idle]
  cases current : rest.resolvingBound? with
  | none => rfl
  | some bound =>
      have leads := avoids.leads (Draft.candidate?_of_resolvingBound? current)
      dsimp only
      rw [without.accepted_eq avoids leads.wires]

include without avoids in
/-- A provider that is engaged meets the next require in the same way. -/
theorem acceptRequire_without
    {provider : GenerationId} (different : provider ≠ id)
    {after restAfter : Draft} (engaged : full.Engaged provider after)
    (restEngaged : rest.Engaged provider restAfter)
    (middle : after.Without id restAfter)
    (stillBusy : after.resolving ≠ some id) :
    (after.acceptRequire provider).Without id
      (restAfter.acceptRequire provider) := by
  refine middle.acceptRequire stillBusy different ?_
  intro generation found
  have sameId : generation.id = provider := by
    obtain ⟨candidate, hit, rfl⟩ := Option.map_eq_some_iff.1 found
    exact Draft.id_of_candidate? hit
  rw [engaged.visible, restEngaged.visible]
  exact without.visible_eq avoids (sameId ▸ different)

include without avoids busy idle in
theorem provide?_without
    {provider : Generation} (different : provider.id ≠ id) :
    Option.Rel (Draft.Without id) (provide? full provider)
      (provide? rest provider) := by
  unfold provide?
  rw [isRequireConsistent_eq without avoids busy idle different]
  split
  · rw [without.candidate?_eq different]
    split
    · rename_i wired found
      have restFound := (without.candidate?_eq different).trans found
      refine .some ?_
      unfold Draft.requireResolved
      rw [without.contains_unused_eq different]
      split
      · exact acceptRequire_without without avoids different
          (.use (by simp [found])) (.use (by simp [restFound]))
          (without.use provider.id) busy
      · exact acceptRequire_without without avoids different
          (.already (by simp [found])) (.already (by simp [restFound]))
          without busy
    · rename_i binding found
      have restFound := (without.candidate?_eq different).trans found
      exact .some (acceptRequire_without without avoids different
        (.already (by simp [found])) (.already (by simp [restFound]))
        without busy)
    · rename_i installed found
      have restFound := (without.candidate?_eq different).trans found
      have both := without.enlist different
      unfold Draft.requireUnresolved
      cases enlisted : full.enlist provider.id with
      | error conflict =>
          cases restEnlisted : rest.enlist provider.id with
          | error other => exact .none
          | ok middle =>
              rw [enlisted, restEnlisted] at both
              cases both
      | ok fullMiddle =>
          cases restEnlisted : rest.enlist provider.id with
          | error other =>
              rw [enlisted, restEnlisted] at both
              cases both
          | ok middle =>
              rw [enlisted, restEnlisted] at both
              cases both with
              | some kept =>
              have engaged := Draft.engaged_of_enlist found enlisted
              refine .some (acceptRequire_without without avoids different
                engaged (Draft.engaged_of_enlist restFound restEnlisted)
                kept ?_)
              rw [engaged.resolving]
              exact busy
    · exact .none
  · exact .none

include without avoids busy idle in
theorem wire?_without
    {choice : WireChoice} (different : choice.exporter.id ≠ id) :
    Option.Rel (Draft.Without id) (wire? full choice) (wire? rest choice) := by
  unfold wire?
  rw [← without.resolvingBound?_eq busy]
  cases current : rest.resolvingBound? with
  | none => exact .none
  | some bound =>
      dsimp only
      split
      · exact .none
      · rw [isWireConsistent_eq without avoids idle current _ different]
        split
        · exact without.wire busy different choice.declared
        · exact .none

include without busy in
theorem settle_without :
    (settle rest).phase = (settle full).phase ∧
      (settle full).draft.Without id (settle rest).draft := by
  have completed := without.completeResolving busy
  unfold settle Draft.startNext?
  rw [completed.queue]
  cases full.completeResolving.queue with
  | nil => exact ⟨rfl, completed⟩
  | cons next later =>
      exact ⟨rfl, { completed with
        resolving := rfl
        queue := rfl }⟩

include without in
theorem bind?_without
    {host : GenerationId} (different : host ≠ id)
    {fragments : List GenerationId} (others : ∀ other ∈ fragments, other ≠ id) :
    Option.Rel (Draft.Without id) (bind? full host fragments)
      (bind? rest host fragments) := by
  unfold bind?
  split
  · exact .some without
  · exact without.bindFragments different others

end Plays

/-- A move that does without the bystander leads to positions that differ in
nothing else. -/
theorem Beside.play?
    {bystander : Generation} {node other : Node} {move : Move}
    (beside : Beside bystander node other)
    (kept : move.avoids bystander.id = true) :
    Option.Rel
      (fun result reached => reached.phase = result.phase ∧
        result.draft.Without bystander.id reached.draft)
      (Search.play? node move) (Search.play? other move) := by
  have without := beside.without
  have avoids := beside.avoids
  have busy := beside.busy
  have idle := beside.idle
  have mapped : ∀ {left right : Option Draft} (phase : Phase),
      Option.Rel (Draft.Without bystander.id) left right →
        Option.Rel (fun result reached : Node =>
            reached.phase = result.phase ∧
              result.draft.Without bystander.id reached.draft)
          (left.map (⟨phase, ·⟩)) (right.map (⟨phase, ·⟩)) := by
    intro left right phase related
    cases related with
    | none => exact .none
    | some drafts => exact .some ⟨rfl, drafts⟩
  cases move with
  | attach fragment host =>
      simp only [Move.avoids, Bool.and_eq_true, decide_eq_true_eq] at kept
      exact mapped .requires (without.attachFragment kept.1 kept.2)
  | bind host fragments =>
      simp only [Move.avoids, Bool.and_eq_true, decide_eq_true_eq,
        List.all_eq_true] at kept
      exact mapped .requires (bind?_without without kept.1 kept.2)
  | toRequires => exact .some ⟨rfl, without⟩
  | provide provider =>
      exact mapped .requires (provide?_without without avoids busy idle
        (of_decide_eq_true kept))
  | leaveRequire =>
      exact .some ⟨rfl, without.changeResolving busy fun _ => rfl⟩
  | toImports => exact .some ⟨rfl, without⟩
  | wire choice =>
      exact mapped .imports (wire?_without without avoids busy idle
        (of_decide_eq_true kept))
  | leaveImport =>
      exact .some ⟨rfl, without.changeResolving busy fun _ => rfl⟩
  | settle => exact .some (settle_without without busy)

/-! ## The same answers -/

namespace Beside

variable {bystander : Generation} {node other result reached : Node}

/-- The bystander stays aside if the next positions differ in nothing else. -/
theorem next
    (beside : Beside bystander node other)
    (step : search.problem.Step node result)
    (otherStep : less.problem.Step other reached)
    (phase : reached.phase = result.phase)
    (without : result.draft.Without bystander.id reached.draft) :
    Beside bystander result reached := by
  have decision := decision_of_step step
  have otherDecision := decision_of_step otherStep
  have scheduled := beside.orderly.scheduled
  have otherScheduled := beside.otherOrderly.scheduled
  have avoids := beside.avoids
  have orderly := isOrderly_of_decision beside.orderly decision
  have otherOrderly := isOrderly_of_decision beside.otherOrderly otherDecision
  refine ⟨phase, without, ⟨?_, ?_⟩, orderly, otherOrderly, ?_⟩
  · rw [store_of_decision otherScheduled otherDecision]
    exact avoids.stored
  · intro id candidate found
    exact leadsTo_of_decision otherScheduled otherDecision avoids.stored
      (fun _ _ hit => avoids.leads hit) found
  · obtain ⟨later, found, evolution⟩ :=
      exists_later_candidate scheduled decision beside.found
    cases evolution with
    | keep => exact found
    | opening _ _ _ _ _ =>
        have isUsed := orderly.scheduled.used found
        rw [← without.used] at isUsed
        obtain ⟨candidate, hit, _⟩ := otherOrderly.balanced.used isUsed
        exact absurd rfl (without.ne_of_candidate? hit)

/-- Completed drafts that differ in a bystander only have the same solutions. -/
theorem solutions_eq
    (beside : Beside bystander node other) :
    other.draft.solutions = node.draft.solutions := by
  have without := beside.without
  have avoids := beside.avoids
  have settled : ∀ id ∈ other.draft.settled, ∃ bound,
      other.draft.candidate? id = some (.bound bound) := by
    intro id member
    obtain ⟨bound, found, _⟩ :=
      beside.otherOrderly.scheduled.settled id member
    exact ⟨bound, found⟩
  have bounds : other.draft.settled.filterMap other.draft.bound? =
      node.draft.settled.filterMap node.draft.bound? := by
    rw [← without.settled]
    refine List.filterMap_congr fun id member => ?_
    obtain ⟨bound, found⟩ := settled id member
    exact without.bound?_eq (without.ne_of_candidate? found)
  unfold Draft.solutions
  rw [← bounds]
  refine List.map_congr_left fun bound listed => ?_
  obtain ⟨id, _, isBound⟩ := List.mem_filterMap.1 listed
  have leads := avoids.leads (Draft.candidate?_of_bound? isBound)
  have required : bound.required.map (fun provision => RequiredWire.mk
      provision.require provision.provider provision.require.isReexport
        (other.draft.visible provision.provider)) =
      bound.required.map (fun provision => RequiredWire.mk
        provision.require provision.provider provision.require.isReexport
          (node.draft.visible provision.provider)) := by
    refine List.map_congr_left fun provision member => ?_
    rw [without.visible_eq avoids (leads.required provision member)]
  rw [required]

end Beside

/-- Taking a bystander out of a search leaves out the moves that involve it, and
nothing else. -/
theorem prunes
    {bystander : Generation} (omits : search.Without bystander.id less) :
    search.problem.Prunes less.problem (Move.avoids bystander.id)
      (Beside bystander) fun draft rest =>
        rest.solutions = draft.solutions where
  goals := by
    intro node other beside
    change Option.Rel _ (goal? node) (goal? other)
    unfold goal?
    rw [beside.phase]
    cases node.phase with
    | start => exact .none
    | requires => exact .none
    | imports => exact .none
    | finished => exact .some beside.solutions_eq
  moves := fun beside => beside.moves_eq omits
  plays := by
    intro node other move beside member kept
    have offered : move ∈ (less.moves other).toList := by
      rw [beside.moves_eq omits]
      exact List.mem_filter.2 ⟨member, kept⟩
    have alike := beside.play? kept
    change Option.Rel _ (Search.play? node move) (Search.play? other move)
    cases played : Search.play? node move with
    | none =>
        rw [played] at alike
        cases otherPlayed : Search.play? other move with
        | none => exact .none
        | some reached =>
            rw [otherPlayed] at alike
            cases alike
    | some result =>
        rw [played] at alike
        cases otherPlayed : Search.play? other move with
        | none =>
            rw [otherPlayed] at alike
            cases alike
        | some reached =>
            rw [otherPlayed] at alike
            cases alike with
            | some related =>
            have step : search.problem.Step node result :=
              ⟨move, member, played⟩
            have otherStep : less.problem.Step other reached :=
              ⟨move, offered, otherPlayed⟩
            exact .some (beside.next step otherStep related.1 related.2)

end Search

end ModuleWiring
