import ModuleWiring.Proofs.Imports

/-!
# Where offers and wires come from

What a candidate offers as its own is exported by its manifest or by that of one
of its fragments, and its wires lead to others.  All wires that a search has
chosen for one package lead to one exporter.
-/

namespace ModuleWiring

theorem Generation.mem_offers
    {generation : Generation} {offer : Offer}
    (member : offer ∈ generation.offers) :
    offer.declared ∈ generation.manifest.exports ∧
      offer.package ∈ offer.declared.packages ∧ offer.source = none := by
  obtain ⟨declared, listed, made⟩ := List.mem_flatMap.1 member
  obtain ⟨package, packageMember, rfl⟩ := List.mem_map.1 made
  exact ⟨listed, packageMember, rfl⟩

theorem BoundModule.source_of_mem_ownOffers
    {bound : BoundModule} {offer : Offer} (member : offer ∈ bound.ownOffers) :
    offer.source = none := by
  obtain ⟨generation, _, offered⟩ := List.mem_flatMap.1 member
  exact (Generation.mem_offers offered).2.2

theorem mem_reexport
    {offers : List Offer} {visible : List Wire} {offer : Offer}
    (member : offer ∈ reexport offers visible) :
    offer ∈ offers ∨ ∃ wire ∈ visible,
      offer = ⟨wire.package, wire.declared, some wire.exporter⟩ := by
  obtain ⟨added, same, listed⟩ := exists_reexport_eq offers visible
  rw [same] at member
  exact (List.mem_append.1 member).imp id (listed offer)

theorem BoundModule.mem_offers_addProvision
    {bound : BoundModule} {provision : Provision} {visible : List Wire}
    {offer : Offer}
    (member : offer ∈ (bound.addProvision provision visible).offers) :
    offer ∈ bound.offers ∨ ∃ wire ∈ visible,
      offer = ⟨wire.package, wire.declared, some wire.exporter⟩ := by
  obtain ⟨added, same, listed⟩ :=
    bound.exists_offers_addProvision provision visible
  rw [same] at member
  exact (List.mem_append.1 member).imp id fun copied =>
    (listed offer copied).2

/-- The wirings in a store speak of known generations, list only fragments as
fragments and wire no host to itself. -/
structure Store.IsSound (store : Store) (known : Generation → Prop) :
    Prop where
  fragments : ∀ generation, known generation →
    ∀ fragment ∈ store.fragments generation,
      known fragment ∧ fragment.isFragment = true
  foreign : ∀ generation, known generation →
    generation.isFragment = false →
      ∀ wire ∈ store.wires generation, wire.exporter.id ≠ generation.id

namespace Candidate

/-- An export of a candidate or of one of its fragments. -/
def Declares (candidate : Candidate) (declared : Export) : Prop :=
  ∃ member ∈ candidate.generation :: candidate.fragments,
    declared ∈ member.manifest.exports

/-- A candidate of known generations, with offers and wires of known
provenance. -/
structure IsRooted (known : Generation → Prop) (candidate : Candidate) :
    Prop where
  isKnown : known candidate.generation
  fragments : ∀ fragment ∈ candidate.fragments,
    known fragment ∧ fragment.isFragment = true
  offers : ∀ offer ∈ candidate.offers, offer.source = none →
    candidate.Declares offer.declared ∧
      offer.package ∈ offer.declared.packages
  keyed : candidate.wirings.IsKeyed
  foreign : candidate.generation.isFragment = false →
    ∀ ⦃package wire⦄, candidate.wirings.find? package = some wire →
      wire.exporter.id ≠ candidate.id

variable {known : Generation → Prop} {store : Store}

theorem declares_of_mem_offers
    {candidate : Candidate} {member : Generation} {offer : Offer}
    (listed : member ∈ candidate.generation :: candidate.fragments)
    (offered : offer ∈ member.offers) :
    candidate.Declares offer.declared ∧
      offer.package ∈ offer.declared.packages := by
  obtain ⟨exported, package, _⟩ := Generation.mem_offers offered
  exact ⟨⟨member, listed, exported⟩, package⟩

theorem isRooted_of_fresh
    {candidate : Candidate} (isKnown : known candidate.generation)
    (fragments : candidate.fragments = [])
    (offers : candidate.offers = candidate.generation.offers)
    (wirings : candidate.wirings = ∅) :
    candidate.IsRooted known := by
  refine ⟨isKnown, by simp [fragments], ?_, ?_, ?_⟩
  · intro offer member _
    rw [offers] at member
    exact declares_of_mem_offers List.mem_cons_self member
  · rw [wirings]
    exact Wirings.isKeyed_empty
  · intro _ package wire found
    rw [wirings] at found
    cases found

/-- Re-exported packages are no offers of a module's own. -/
theorem mem_offers_of_source
    {generation : Generation} {offer : Offer}
    (member : offer ∈ (ResolvedModule.of store generation).offers)
    (own : offer.source = none) :
    ∃ other ∈ generation :: store.fragments generation,
      offer ∈ other.offers := by
  have folded : ∀ (required : List RequiredWire) (offers : List Offer),
      offer ∈ required.foldl
        (fun offers wire => reexport offers wire.wires) offers →
      offer ∈ offers := by
    intro required
    induction required with
    | nil => exact fun offers member => member
    | cons wire rest inductionHypothesis =>
        intro offers member
        rcases mem_reexport (inductionHypothesis _ member) with
          here | ⟨_, _, rfl⟩
        · exact here
        · cases own
  rcases List.mem_append.1 (folded _ _ member) with mine | attached
  · exact ⟨generation, List.mem_cons_self, mine⟩
  · obtain ⟨fragment, listed, offered⟩ := List.mem_flatMap.1 attached
    exact ⟨fragment, List.mem_cons_of_mem _ listed, offered⟩

theorem isRooted_of_resolved
    {candidate : Candidate} {generation : Generation}
    (sound : store.IsSound known) (isKnown : known generation)
    (sameGeneration : candidate.generation = generation)
    (fragments : candidate.fragments = store.fragments generation)
    (offers : candidate.offers =
      (ResolvedModule.of store generation).offers)
    (wirings : candidate.wirings =
      Wirings.ofList (store.wires generation)) :
    candidate.IsRooted known := by
  refine ⟨sameGeneration ▸ isKnown, ?_, ?_, ?_, ?_⟩
  · rw [fragments]
    exact sound.fragments generation isKnown
  · intro offer member own
    rw [offers] at member
    obtain ⟨other, listed, offered⟩ := mem_offers_of_source member own
    refine declares_of_mem_offers ?_ offered
    rw [sameGeneration, fragments]
    exact listed
  · rw [wirings]
    exact Wirings.isKeyed_ofList _
  · intro notFragment package wire found
    rw [wirings] at found
    rw [sameGeneration] at notFragment
    change wire.exporter.id ≠ candidate.generation.id
    rw [sameGeneration]
    exact sound.foreign generation isKnown notFragment wire
      (Wirings.mem_of_find?_ofList found)

theorem isRooted_of_isGiven
    {candidate : Candidate} (sound : store.IsSound known)
    (isKnown : known candidate.generation)
    (given : candidate.IsGiven store) :
    candidate.IsRooted known := by
  cases given with
  | unresolved _ => exact isRooted_of_fresh isKnown rfl rfl rfl
  | resolved _ _ => exact isRooted_of_resolved sound isKnown rfl rfl rfl rfl
  | target _ _ => exact isRooted_of_fresh isKnown rfl rfl rfl
  | reopened _ _ => exact isRooted_of_resolved sound isKnown rfl rfl rfl rfl

/-- What is known of a candidate stays so if only pending requirements change
and offers are dropped. -/
theorem IsRooted.mono
    {candidate result : Candidate} (rooted : candidate.IsRooted known)
    (sameGeneration : result.generation = candidate.generation)
    (fragments : result.fragments = candidate.fragments)
    (offers : ∀ offer ∈ result.offers, offer.source = none →
      offer ∈ candidate.offers)
    (wirings : result.wirings = candidate.wirings) :
    result.IsRooted known := by
  refine ⟨sameGeneration ▸ rooted.isKnown, fragments ▸ rooted.fragments,
    ?_, wirings ▸ rooted.keyed, ?_⟩
  · intro offer member own
    unfold Declares
    rw [sameGeneration, fragments]
    exact rooted.offers offer (offers offer member own) own
  · rw [sameGeneration, wirings]
    unfold Candidate.id
    rw [sameGeneration]
    exact rooted.foreign

theorem IsRooted.opened
    {candidate : Candidate} {base : BoundModule}
    (rooted : candidate.IsRooted known) (opens : candidate.Opens base) :
    (Candidate.bound base).IsRooted known := by
  cases opens with
  | reopen wired => exact rooted.mono rfl rfl (fun _ member _ => member) rfl
  | fresh installed =>
      exact rooted.mono rfl rfl (fun _ member _ => member) rfl
  | queued installed => exact rooted

theorem IsRooted.takesOn
    {base new : BoundModule} {joined : List Generation}
    (rooted : (Candidate.bound base).IsRooted known)
    (taken : base.TakesOn joined new)
    (fragments : ∀ fragment ∈ joined,
      known fragment ∧ fragment.isFragment = true) :
    (Candidate.bound new).IsRooted known := by
  have host : new.host = base.host := taken.host
  have members : new.fragments = base.fragments ++ joined := taken.fragments
  refine ⟨?_, ?_, ?_, ?_, ?_⟩
  · change known new.host
    rw [host]
    exact rooted.isKnown
  · intro fragment member
    change fragment ∈ new.fragments at member
    rw [members] at member
    exact (List.mem_append.1 member).elim (rooted.fragments fragment)
      (fragments fragment)
  · intro offer member own
    change offer ∈ new.offers at member
    rw [taken.offers] at member
    unfold Declares
    change (∃ member ∈ new.host :: new.fragments, _) ∧ _
    rw [host, members, ← List.cons_append]
    rcases List.mem_append.1 member with old | added
    · obtain ⟨⟨holder, listed, exported⟩, package⟩ :=
        rooted.offers offer old own
      exact ⟨⟨holder, List.mem_append_left _ listed, exported⟩, package⟩
    · obtain ⟨fragment, listed, offered⟩ := List.mem_flatMap.1 added
      obtain ⟨exported, package, _⟩ := Generation.mem_offers offered
      exact ⟨⟨fragment, List.mem_append_right _ listed, exported⟩, package⟩
  · change new.wirings.IsKeyed
    rw [taken.wirings]
    exact rooted.keyed
  · change new.host.isFragment = false →
      ∀ ⦃package wire⦄, new.wirings.find? package = some wire →
        wire.exporter.id ≠ new.host.id
    rw [host, taken.wirings]
    exact rooted.foreign

end Candidate

namespace Search

variable {search : Search} {known : Generation → Prop} {store : Store}

theorem isRooted_of_deciding
    {draft after : Draft} {bound new : BoundModule}
    (step : Deciding search draft after bound new)
    (rooted : (Candidate.bound bound).IsRooted known) :
    (Candidate.bound new).IsRooted known := by
  cases step with
  | leaveRequire _ _ _ =>
      exact rooted.mono rfl rfl (fun _ member _ => member) rfl
  | leaveImport _ _ _ =>
      exact rooted.mono rfl rfl (fun _ member _ => member) rfl
  | provide _ _ _ _ _ _ =>
      refine rooted.mono rfl rfl ?_ rfl
      intro offer member own
      rcases BoundModule.mem_offers_addProvision member with
        here | ⟨_, _, rfl⟩
      · exact here
      · cases own
  | @wire _ requirement rest choice resolving _ _ _ offered _ _ =>
      refine ⟨rooted.isKnown, rooted.fragments, ?_,
        rooted.keyed.insert
          ⟨requirement.package, choice.declared, choice.exporter⟩, ?_⟩
      · intro offer member own
        exact rooted.offers offer (List.mem_filter.1 member).1 own
      · intro notFragment package wire found
        change (Table.insert bound.wirings requirement.package _).find?
          package = some wire at found
        rw [Table.find?_insert] at found
        split at found
        · cases found
          intro same
          obtain ⟨current, isResolving, hit⟩ :=
            Draft.exists_of_resolvingBound? resolving
          have currentId : bound.host.id = current :=
            Draft.id_of_candidate? hit
          refine ne_resolving_of_mem_wireChoices offered ?_
          rw [isResolving, ← currentId]
          exact congrArg some same.symm
        · exact rooted.foreign notFragment found

theorem isRooted_of_evolution
    {position result : Node} {earlier candidate : Candidate}
    (everywhere : Everywhere (Candidate.IsRooted known) position)
    (evolution : Evolution search position.draft result.draft earlier
      candidate)
    (rooted : earlier.IsRooted known) :
    candidate.IsRooted known := by
  cases evolution with
  | keep => exact rooted
  | opening opens taken _ fragments _ =>
      refine (rooted.opened opens).takesOn taken ?_
      intro fragment member
      obtain ⟨isFragment, found⟩ := fragments fragment member
      exact ⟨(everywhere found).isKnown, isFragment⟩
  | deciding step => exact isRooted_of_deciding step rooted

/-- Along a run every candidate is rooted in known generations. -/
theorem isRooted_of_line
    {node final : Node} (line : search.problem.Line node final)
    (scheduled : Scheduled node)
    (initial : Everywhere (Candidate.IsRooted known) node) :
    Everywhere (Candidate.IsRooted known) final :=
  everywhere_of_line line scheduled initial isRooted_of_evolution

/-- Any two wires of bound candidates for one package lead to one exporter. -/
def WiresAgree (node : Node) : Prop :=
  ∀ ⦃firstId secondId : GenerationId⦄ ⦃first second : BoundModule⦄,
    node.draft.candidate? firstId = some (.bound first) →
    node.draft.candidate? secondId = some (.bound second) →
    ∀ ⦃package : String⦄ ⦃firstWire secondWire : Wire⦄,
      first.wirings.find? package = some firstWire →
      second.wirings.find? package = some secondWire →
      firstWire.exporter.id = secondWire.exporter.id

/-- A wire that has been chosen agrees with any wire in use. -/
theorem Chosen.exporter_eq
    {draft after : Draft} {bound : BoundModule} {wire other : Wire}
    (chosen : Chosen search draft after bound wire)
    (inUse : draft.InUse other) (samePackage : other.package = wire.package) :
    other.exporter.id = wire.exporter.id :=
  exporter_eq_of_isWireConsistent chosen.consistent inUse samePackage

theorem inUse_of_scheduled
    {node : Node} (scheduled : Scheduled node) {id : GenerationId}
    {bound : BoundModule} {package : String} {wire : Wire}
    (found : node.draft.candidate? id = some (.bound bound))
    (held : bound.wirings.find? package = some wire) :
    node.draft.InUse wire :=
  ⟨id, .bound bound, scheduled.used found, found,
    Table.mem_values_of_find? held⟩

/-- Where the wire of a candidate that a decision left bound was before. -/
theorem wire_origin
    {node result : Node} {earlier : Candidate} {bound : BoundModule}
    {package : String} {wire : Wire}
    (evolution : Evolution search node.draft result.draft earlier
      (.bound bound))
    (found : bound.wirings.find? package = some wire) :
    (∃ before, earlier = .bound before ∧
      (before.wirings.find? package = some wire ∨
        wire.package = package ∧
          Chosen search node.draft result.draft before wire)) ∨
    (node.draft.IsUntouched ∧
      result.draft.resolving = some bound.host.id) := by
  cases earlier with
  | bound before =>
      left
      rcases evolution.find?_wirings found with old | new
      · exact ⟨before, rfl, .inl old⟩
      · obtain ⟨same, equality, package, chosen⟩ := new
        cases equality
        exact ⟨before, rfl, .inr ⟨package, chosen⟩⟩
  | unresolved installed =>
      rcases evolution.find?_wirings found with old | ⟨_, impossible, _⟩
      · cases old
      · cases impossible
  | resolved wired =>
      right
      have sameId := congrArg Generation.id evolution.generation
      cases evolution with
      | opening _ _ _ _ reopened =>
          obtain ⟨untouched, resolving⟩ := reopened wired rfl
          refine ⟨untouched, resolving.trans (congrArg some ?_)⟩
          exact sameId.symm

theorem wiresAgree_of_decision
    {node result : Node} (scheduled : Scheduled node)
    (keyed : Everywhere (Wirings.IsKeyed ∘ Candidate.wirings) node)
    (decision : Decision search node result)
    (agree : WiresAgree node) :
    WiresAgree result := by
  intro firstId secondId first second firstFound secondFound package
    firstWire secondWire firstHeld secondHeld
  by_cases same : firstId = secondId
  · subst same
    rw [firstFound] at secondFound
    cases secondFound
    rw [firstHeld] at secondHeld
    cases secondHeld
    rfl
  · obtain ⟨firstEarlier, firstOld, firstEvolution⟩ :=
      exists_evolution scheduled decision firstFound
    obtain ⟨secondEarlier, secondOld, secondEvolution⟩ :=
      exists_evolution scheduled decision secondFound
    have firstHost : first.host.id = firstId :=
      Draft.id_of_candidate? firstFound
    have secondHost : second.host.id = secondId :=
      Draft.id_of_candidate? secondFound
    rcases wire_origin firstEvolution firstHeld with
      ⟨before, rfl, firstOrigin⟩ | ⟨untouched, firstResolving⟩
    · rcases wire_origin secondEvolution secondHeld with
        ⟨other, rfl, secondOrigin⟩ | ⟨untouched, _⟩
      · rcases firstOrigin with firstOrigin | ⟨firstPackage, firstChosen⟩
        · rcases secondOrigin with
            secondOrigin | ⟨secondPackage, secondChosen⟩
          · exact agree firstOld secondOld firstOrigin secondOrigin
          · exact secondChosen.exporter_eq
              (inUse_of_scheduled scheduled firstOld firstOrigin)
              ((keyed firstOld firstOrigin).trans secondPackage.symm)
        · rcases secondOrigin with
            secondOrigin | ⟨secondPackage, secondChosen⟩
          · exact (firstChosen.exporter_eq
              (inUse_of_scheduled scheduled secondOld secondOrigin)
              ((keyed secondOld secondOrigin).trans
                firstPackage.symm)).symm
          · -- Only the module in charge is given a wire.
            have oneModule :=
              firstChosen.resolving.symm.trans secondChosen.resolving
            cases oneModule
            have firstId' := Draft.id_of_candidate? firstOld
            have secondId' := Draft.id_of_candidate? secondOld
            exact absurd (firstId'.symm.trans secondId') same
      · exact absurd firstOld (untouched firstId before)
    · rcases wire_origin secondEvolution secondHeld with
        ⟨other, rfl, _⟩ | ⟨_, secondResolving⟩
      · exact absurd secondOld (untouched secondId other)
      · rw [firstResolving] at secondResolving
        have oneHost := Option.some.inj secondResolving
        rw [firstHost, secondHost] at oneHost
        exact absurd oneHost same

/-- Wires stay filed under their packages. -/
theorem keyed_of_line
    {node final : Node} (line : search.problem.Line node final)
    (scheduled : Scheduled node)
    (keyed : Everywhere (Wirings.IsKeyed ∘ Candidate.wirings) node) :
    Everywhere (Wirings.IsKeyed ∘ Candidate.wirings) final := by
  refine everywhere_of_line line scheduled keyed ?_
  intro position result earlier candidate _ evolution before package wire
    found
  rcases evolution.find?_wirings found with old | ⟨_, _, same, _⟩
  · exact before old
  · exact same

/-- Wires agree along every run that starts with one bound module at most. -/
theorem wiresAgree_of_line
    {node final : Node} (line : search.problem.Line node final)
    (scheduled : Scheduled node)
    (keyed : Everywhere (Wirings.IsKeyed ∘ Candidate.wirings) node)
    (settled : node.draft.settled = []) (queue : node.draft.queue = []) :
    WiresAgree final := by
  refine invariant_of_line line scheduled ?_ ?_
  · intro firstId secondId first second firstFound secondFound package
      firstWire secondWire firstHeld secondHeld
    have resolving : ∀ {id bound},
        node.draft.candidate? id = some (.bound bound) →
          node.draft.resolving = some id := by
      intro id bound found
      rcases scheduled.placed found with done | current | waiting
      · rw [settled] at done
        cases done
      · exact current
      · rw [queue] at waiting
        cases waiting
    have same : firstId = secondId := Option.some.inj
      ((resolving firstFound).symm.trans (resolving secondFound))
    subst same
    rw [firstFound] at secondFound
    cases secondFound
    rw [firstHeld] at secondHeld
    cases secondHeld
    rfl
  · intro position result before isScheduled decision agree
    exact wiresAgree_of_decision isScheduled
      (keyed_of_line before scheduled keyed) decision agree

end Search

end ModuleWiring
