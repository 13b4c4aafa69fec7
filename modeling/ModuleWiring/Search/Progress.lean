import ModuleWiring.Draft.Work
import ModuleWiring.Search.Node

/-!
# Progress of a search

Every move that a position offers lowers its rank: a new phase takes less work
or is a later one. Main statement: `rank_lt_of_play?`.
-/

namespace ModuleWiring

/-- How many phases a candidate can still go through. -/
def Phase.rank : Phase → Nat
  | .start => 3
  | .requires => 2
  | .imports => 1
  | .finished => 0

/-- The rank of a position: the work of its draft, and then its phase. -/
def Node.rank (node : Node) : Nat :=
  4 * node.draft.work + node.phase.rank

namespace Search

theorem mem_wireChoices {search : Search} {draft : Draft}
    {requirement : PackageImport} {choice : WireChoice}
    (member : choice ∈ search.wireChoices draft requirement) :
    ∃ candidate ∈ draft.candidates.members,
      choice.exporter = candidate.generation ∧
        (group? draft candidate).isSome = true := by
  obtain ⟨group, _, grouped⟩ := List.mem_flatMap.1 member
  obtain ⟨candidate, listed, chosen⟩ :=
    List.mem_flatMap.1 (Policy.mem_sort.1 grouped)
  obtain ⟨present, allowed⟩ := List.mem_filter.1 listed
  obtain ⟨offer, _, rfl⟩ := List.mem_map.1 chosen
  simp only [Bool.and_eq_true, decide_eq_true_eq] at allowed
  exact ⟨candidate, present, rfl, by simp [allowed.1]⟩

theorem ne_of_group? {draft : Draft} {candidate : Candidate}
    (grouped : (group? draft candidate).isSome = true) :
    draft.resolving ≠ some candidate.id := by
  intro resolving
  simp [group?, resolving] at grouped

theorem notFragment_of_group? {draft : Draft} {installed : Generation}
    (grouped : (group? draft (.unresolved installed)).isSome = true) :
    installed.isFragment = false := by
  cases isFragment : installed.isFragment with
  | false => rfl
  | true =>
      unfold group? at grouped
      split at grouped <;> simp [isFragment] at grouped

theorem work_wire? {search : Search} {draft result : Draft}
    {requirement : PackageImport} {choice : WireChoice}
    (member : choice ∈ search.wireChoices draft requirement)
    (played : wire? draft choice = some result) :
    result.work < draft.work := by
  obtain ⟨candidate, present, exporter, grouped⟩ := mem_wireChoices member
  have id : choice.exporter.id = candidate.id := by
    rw [exporter]
    rfl
  have found : draft.candidate? choice.exporter.id = some candidate := by
    rw [id]
    exact Roster.find?_of_mem present
  unfold wire? at played
  split at played
  · cases played
  · rename_i bound resolving
    split at played
    · cases played
    · rename_i first rest imports
      split at played
      · cases wired : draft.wire choice.exporter choice.declared with
        | error conflict => simp [wired, Except.toOption] at played
        | ok next =>
            simp only [wired, Except.toOption, Option.some.injEq] at played
            subst played
            refine Draft.work_wire ?_ ?_ resolving (by simp [imports]) wired
            · intro installed same
              rw [found] at same
              cases same
              exact notFragment_of_group? grouped
            · rw [id]
              exact ne_of_group? grouped
      · cases played

theorem mem_requireChoices {search : Search} {draft : Draft}
    {require : Require} {provider : Generation}
    (member : provider ∈ search.requireChoices draft require) :
    draft.generation? provider.id = some provider ∧
      draft.resolving ≠ some provider.id ∧
        provides require provider = true := by
  have among : ∀ ids : IdSet,
      provider ∈ search.providersAmong draft require ids →
        draft.generation? provider.id = some provider ∧
          draft.resolving ≠ some provider.id ∧
            provides require provider = true := by
    intro ids listed
    obtain ⟨known, allowed⟩ := List.mem_filter.1 (Policy.mem_sort.1 listed)
    obtain ⟨id, _, found⟩ := List.mem_filterMap.1 known
    simp only [Bool.and_eq_true, decide_eq_true_eq] at allowed
    obtain ⟨candidate, hit, same⟩ := Option.map_eq_some_iff.1 found
    have sameId : provider.id = id := by
      rw [← same]
      exact Draft.id_of_candidate? hit
    exact ⟨sameId ▸ found, allowed⟩
  exact (List.mem_append.1 member).elim (among _) (among _)

theorem work_provide? {search : Search} {draft result : Draft}
    {require : Require} {provider : Generation}
    (next : draft.nextRequire? = some require)
    (member : provider ∈ search.requireChoices draft require)
    (played : provide? draft provider = some result) :
    result.work < draft.work := by
  obtain ⟨known, other, provided⟩ := mem_requireChoices member
  unfold provide? at played
  split at played
  · split at played
    · rename_i wired found
      cases played
      unfold Draft.requireResolved
      split
      · exact Draft.work_acceptRequire
          (show (draft.use provider.id).candidate? provider.id = _ from found)
          (show (draft.use provider.id).nextRequire? = _ from next)
      · exact Draft.work_acceptRequire found next
    · rename_i binding found
      cases played
      exact Draft.work_acceptRequire found next
    · rename_i installed found
      have same : installed = provider := by
        simpa [Draft.generation?, found, Candidate.generation] using known
      have notFragment : installed.isFragment = false := by
        unfold provides at provided
        simp only [Bool.and_eq_true, Bool.not_eq_true'] at provided
        rw [same]
        exact provided.1.1
      simp only [Draft.requireUnresolved, bind, Except.bind, pure,
        Except.pure] at played
      cases enlisted : draft.enlist provider.id with
      | error conflict => simp [enlisted, Except.toOption] at played
      | ok middle =>
          simp only [enlisted, Except.toOption, Option.some.injEq] at played
          subst played
          have less := Draft.work_enlist found notFragment enlisted
          obtain ⟨candidates, _, _, _⟩ := Draft.enlist_eq found enlisted
          have bound : middle.candidate? provider.id =
              some (.bound (BoundModule.of installed)) := by
            unfold Draft.candidate?
            rw [candidates, Roster.find?_insert, if_pos]
            rw [← same]
            rfl
          have kept := Draft.resolvingBound?_enlist found enlisted other
          have nextKept : middle.nextRequire? = some require := by
            unfold Draft.nextRequire?
            rw [kept]
            exact next
          exact Nat.lt_trans
            (Draft.work_acceptRequire bound nextKept) less
    · cases played
  · cases played

theorem mem_fragmentChoices {search : Search} {draft : Draft}
    {host fragment : Generation}
    (member : fragment ∈ search.fragmentChoices draft host) :
    draft.IsFree fragment.id := by
  obtain ⟨listed, _⟩ := List.mem_filter.1 (Policy.mem_sort.1 member)
  obtain ⟨candidate, free, rfl⟩ := List.mem_map.1 listed
  obtain ⟨present, allowed⟩ := List.mem_filter.1 free
  simp only [isFreeFragment, Bool.and_eq_true, Bool.not_eq_true'] at allowed
  obtain ⟨⟨⟨untouched, isFragment⟩, _⟩, unclaimed⟩ := allowed
  cases candidate with
  | unresolved installed =>
      exact ⟨installed, Roster.find?_of_mem present, isFragment, unclaimed⟩
  | resolved wired => simp [isUnresolved] at untouched
  | bound binding => simp [isUnresolved] at untouched

theorem nodup_fragmentChoices (search : Search) (draft : Draft)
    (host : Generation) :
    ((search.fragmentChoices draft host).map Generation.id).Nodup := by
  have perm := (Policy.perm_sort search.policy Generation.preference
    (((draft.candidates.members.filter (isFreeFragment draft)).map
      Candidate.generation).filter fun fragment =>
        search.framework.isHostOf fragment host)).map Generation.id
  refine perm.nodup_iff.2 ?_
  have kept := List.filter_sublist
    (p := fun fragment => search.framework.isHostOf fragment host)
    (l := (draft.candidates.members.filter (isFreeFragment draft)).map
      Candidate.generation)
  refine List.Nodup.sublist (kept.map Generation.id) ?_
  rw [List.map_map]
  refine List.Nodup.sublist (List.filter_sublist.map _) ?_
  exact draft.candidates.ascending.imp GenerationId.ne_of_lt

theorem work_bind? {search : Search} {draft result : Draft}
    {host : Generation} {id : GenerationId} {fragments : List GenerationId}
    (member : fragments ∈
      (subsets ((search.fragmentChoices draft host).map
        Generation.id)).toList)
    (played : bind? draft id fragments = some result) :
    result.work ≤ draft.work := by
  have chosen := sublist_of_mem_subsets member
  unfold bind? at played
  split at played
  · cases played
    exact Nat.le_refl _
  · cases bound : draft.bindFragments id fragments with
    | error conflict => simp [bound, Except.toOption] at played
    | ok next =>
        simp only [bound, Except.toOption, Option.some.injEq] at played
        subst played
        refine Draft.work_bindFragments ?_
          (chosen.nodup (nodup_fragmentChoices search draft host)) bound
        intro fragment listed
        obtain ⟨generation, offered, rfl⟩ :=
          List.mem_map.1 (chosen.subset listed)
        exact mem_fragmentChoices offered

theorem mem_hostChoices {search : Search} {draft : Draft}
    {fragment host : Generation}
    (member : host ∈ search.hostChoices draft fragment) :
    ∃ candidate, draft.candidate? host.id = some candidate ∧
      candidate.generation.isFragment = false := by
  obtain ⟨stage, _, staged⟩ := List.mem_flatMap.1 member
  obtain ⟨listed, wanted⟩ := List.mem_filter.1 (Policy.mem_sort.1 staged)
  obtain ⟨candidate, kept, rfl⟩ := List.mem_map.1 listed
  refine ⟨candidate, Roster.find?_of_mem (List.mem_filter.1 kept).1, ?_⟩
  unfold Framework.isHostOf at wanted
  split at wanted
  · cases wanted
  · simp only [Bool.and_eq_true, Bool.not_eq_true'] at wanted
    exact wanted.1.1.1

theorem rank_startMoves {search : Search} {draft : Draft} {move : Move}
    {result : Node} (member : move ∈ (search.startMoves draft).toList)
    (played : play? ⟨.start, draft⟩ move = some result) :
    result.rank < Node.rank ⟨.start, draft⟩ := by
  have later : ∀ {next : Draft}, next.work ≤ draft.work →
      Node.rank ⟨.requires, next⟩ < Node.rank ⟨.start, draft⟩ := by
    intro next less
    simp only [Node.rank, Phase.rank]
    omega
  unfold startMoves at member
  split at member
  · cases List.mem_singleton.1 member
    cases played
    exact later (Nat.le_refl _)
  · rename_i id resolving
    split at member
    · cases member
    · rename_i candidate found
      split at member
      · rename_i isFragment
        split at member
        · rename_i free
          simp only [Bool.and_eq_true, Bool.not_eq_true'] at free
          rw [Alternatives.toList_ofList] at member
          obtain ⟨host, offered, rfl⟩ := List.mem_map.1 member
          obtain ⟨hostCandidate, hostFound, notFragment⟩ :=
            mem_hostChoices offered
          cases candidate with
          | unresolved installed =>
              obtain ⟨next, attached, rfl⟩ := Option.map_eq_some_iff.1 played
              cases done : draft.attachFragment id host.id with
              | error conflict => simp [done, Except.toOption] at attached
              | ok after =>
                  simp only [done, Except.toOption,
                    Option.some.injEq] at attached
                  subst attached
                  exact later (Draft.work_attachFragment resolving found
                    isFragment free.2 hostFound notFragment done)
          | resolved wired => simp [isUnresolved] at free
          | bound binding => simp [isUnresolved] at free
        · cases member
      · rw [Alternatives.toList_map] at member
        obtain ⟨fragments, chosen, rfl⟩ := List.mem_map.1 member
        obtain ⟨next, bound, rfl⟩ := Option.map_eq_some_iff.1 played
        exact later (work_bind? chosen bound)

theorem rank_settle (draft : Draft) (phase : Phase)
    (undecided : 0 < phase.rank) :
    (settle draft).rank < Node.rank ⟨phase, draft⟩ := by
  unfold settle
  split
  · have less := draft.work_completeResolving_le
    have last : Phase.rank .finished = 0 := rfl
    simp only [Node.rank]
    omega
  · rename_i next started
    have less := Draft.work_startNext? started
    have first : Phase.rank .start = 3 := rfl
    simp only [Node.rank]
    omega

theorem rank_requireMoves {search : Search} {draft : Draft} {move : Move}
    {result : Node} (member : move ∈ search.requireMoves draft)
    (played : play? ⟨.requires, draft⟩ move = some result) :
    result.rank < Node.rank ⟨.requires, draft⟩ := by
  have same : ∀ {next : Draft}, next.work < draft.work →
      Node.rank ⟨.requires, next⟩ < Node.rank ⟨.requires, draft⟩ := by
    intro next less
    simp only [Node.rank]
    omega
  unfold requireMoves at member
  split at member
  · cases List.mem_singleton.1 member
    cases played
    exact rank_settle draft .requires (by decide)
  · split at member
    · cases List.mem_singleton.1 member
      cases played
      simp only [Node.rank, Phase.rank]
      omega
    · rename_i require next
      rcases List.mem_append.1 member with provided | left
      · obtain ⟨provider, offered, rfl⟩ := List.mem_map.1 provided
        obtain ⟨after, done, rfl⟩ := Option.map_eq_some_iff.1 played
        exact same (work_provide? next offered done)
      · split at left
        · cases List.mem_singleton.1 left
          cases played
          exact same (Draft.work_skipRequire next)
        · cases left

theorem rank_importMoves {search : Search} {draft : Draft} {move : Move}
    {result : Node} (member : move ∈ search.importMoves draft)
    (played : play? ⟨.imports, draft⟩ move = some result) :
    result.rank < Node.rank ⟨.imports, draft⟩ := by
  have same : ∀ {next : Draft}, next.work < draft.work →
      Node.rank ⟨.imports, next⟩ < Node.rank ⟨.imports, draft⟩ := by
    intro next less
    simp only [Node.rank]
    omega
  unfold importMoves at member
  split at member
  · cases List.mem_singleton.1 member
    cases played
    exact rank_settle draft .imports (by decide)
  · rename_i bound resolving
    split at member
    · cases List.mem_singleton.1 member
      cases played
      exact rank_settle draft .imports (by decide)
    · rename_i requirement rest imports
      have left : play? ⟨.imports, draft⟩ .leaveImport = some result →
          result.rank < Node.rank ⟨.imports, draft⟩ := by
        intro done
        cases done
        exact same (Draft.work_skipImport resolving (by simp [imports]))
      unfold importChoices at member
      split at member
      · split at member
        · cases List.mem_singleton.1 member
          exact left played
        · cases member
      · split at member
        · cases List.mem_singleton.1 member
          exact left played
        · rcases List.mem_append.1 member with wired | skipped
          · obtain ⟨choice, offered, rfl⟩ := List.mem_map.1 wired
            obtain ⟨after, done, rfl⟩ := Option.map_eq_some_iff.1 played
            exact same (work_wire? offered done)
          · split at skipped
            · cases List.mem_singleton.1 skipped
              exact left played
            · cases skipped

/-- Every move that a position offers lowers its rank. -/
theorem rank_lt_of_play? {search : Search} {node result : Node} {move : Move}
    (member : move ∈ (search.moves node).toList)
    (played : play? node move = some result) :
    result.rank < node.rank := by
  obtain ⟨phase, draft⟩ := node
  cases phase with
  | start => exact rank_startMoves member played
  | requires =>
      simp only [moves, Alternatives.toList_ofList] at member
      exact rank_requireMoves member played
  | imports =>
      simp only [moves, Alternatives.toList_ofList] at member
      exact rank_importMoves member played
  | finished => cases member

end Search

end ModuleWiring
