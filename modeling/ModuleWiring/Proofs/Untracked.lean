import ModuleWiring.Proofs.Persistence
import ModuleWiring.Proofs.Plan
import ModuleWiring.Proofs.Scan
import ModuleWiring.Proofs.Visibility

/-!
# Resolved modules that take no part in a search

What a resolved module shows is gathered when it becomes a candidate, and read off
its wiring where it is none.  Gathered are also the packages of its fragments and
copies of what is visible through the bundles that it re-exports, which are looked
up bundle by bundle otherwise.
-/

namespace ModuleWiring

theorem Wirings.find?_ofList
    {wires : List Wire} (distinct : (wires.map Wire.package).Nodup)
    (package : String) :
    (Wirings.ofList wires).find? package =
      wires.find? (·.package = package) := by
  rw [← (isKeyed_ofList wires).find?_values, values_ofList distinct]

/-! ## What is gathered -/

/-- The packages of a module's fragments, and copies of those that were visible
through the bundles that it re-exports. -/
def Store.lentWires (store : Store) (generation : Generation) : List Wire :=
  ((store.fragments generation).flatMap Generation.offers).map
      (·.toWire generation) ++
    ((store.requiredWires generation).filter (·.reexport)).flatMap
      RequiredWire.wires

/-- What a module has of a package by its fragments or as a copy. -/
def Store.lentWire? (store : Store) (generation : Generation)
    (package : String) : Option Wire :=
  (store.lentWires generation).find? (·.package = package)

/-- The offer that is made of a visible package. -/
def Wire.copy (wire : Wire) : Offer :=
  ⟨wire.package, wire.declared, some wire.exporter⟩

theorem ResolvedModule.offers_eq_foldl
    (store : Store) (generation : Generation) :
    (ResolvedModule.of store generation).offers =
      ((((store.requiredWires generation).filter (·.reexport)).flatMap
        RequiredWire.wires).map Wire.copy).foldl (addNew Offer.package)
          (generation.offers ++
            (store.fragments generation).flatMap Generation.offers) := by
  rw [List.map_flatMap, List.foldl_flatMap]
  refine congrArg (fun add => List.foldl add _ _) ?_
  funext offers required
  exact reexport_eq_foldl offers required.wires

theorem find?_toWire
    (offers : List Offer) (owner : Generation) (package : String) :
    (offers.map (·.toWire owner)).find? (·.package = package) =
      (offers.find? (·.package = package)).map (·.toWire owner) :=
  List.find?_map ..

/-- Own exports come before those of fragments, and these before copies. -/
theorem ResolvedModule.find?_offers
    (store : Store) (generation : Generation) (package : String) :
    ((ResolvedModule.of store generation).offers.map
        (·.toWire generation)).find? (·.package = package) =
      (generation.ownWire? package).or
        (store.lentWire? generation package) := by
  have copies : (fun offer : Offer => offer.toWire generation) ∘ Wire.copy =
      id := rfl
  rw [find?_toWire, offers_eq_foldl, find?_foldl_addNew, ← find?_toWire,
    Generation.ownWire?, ← find?_toWire, Store.lentWire?, Store.lentWires,
    ← List.find?_append, List.map_append, List.map_append, List.map_map,
    copies, List.map_id, List.append_assoc]

namespace Draft

variable {draft rest : Draft} {generation : Generation}

/-- A draft in which a module is a resolved candidate, and one that lacks it but
has the others. -/
structure Untracks (draft rest : Draft) (generation : Generation) : Prop where
  tracked : draft.candidate? generation.id =
    some (.resolved (.of draft.store generation))
  store : rest.store = draft.store
  candidates : rest.candidates = draft.candidates.erase generation.id

/-- What the bundles that follow in the recursion show of a package. -/
def beyond? (draft : Draft) (provider : Generation) (package : String) :
    Option Wire :=
  ((draft.reached provider).tail.flatMap draft.offeredBy).find?
    (·.package = package)

/-- The provider comes first and does not come again. -/
theorem exists_reached_eq_cons (draft : Draft) (provider : Generation) :
    ∃ others, draft.reached provider = provider :: others ∧
      ∀ bundle ∈ others, bundle.id ≠ provider.id := by
  refine ⟨_, Network.walk_of_not_mem List.not_mem_nil, ?_⟩
  intro bundle member same
  have visited := Network.forall_mem_walk (fun _ => True)
    (fun _ _ => trivial) (fun _ _ _ _ _ _ => trivial) bundle member
  exact visited.2 (List.mem_cons.2 (.inl same))

theorem reached_eq_cons (draft : Draft) (provider : Generation) :
    draft.reached provider =
      provider :: (draft.reached provider).tail := by
  obtain ⟨others, reached, _⟩ := draft.exists_reached_eq_cons provider
  rw [reached, List.tail_cons]

theorem id_ne_of_mem_tail {provider bundle : Generation}
    (member : bundle ∈ (draft.reached provider).tail) :
    bundle.id ≠ provider.id := by
  obtain ⟨others, reached, different⟩ :=
    draft.exists_reached_eq_cons provider
  rw [reached, List.tail_cons] at member
  exact different bundle member

/-- What is visible of a package is what the provider offers or, failing that, what
follows. -/
theorem find?_visible_eq_or (draft : Draft) (provider : Generation)
    (package : String) :
    (draft.visible provider).find? (·.package = package) =
      (draft.offerOf? provider package).or
        (draft.beyond? provider package) := by
  rw [visible, find?_firstOfEach, reached_eq_cons, List.flatMap_cons,
    List.find?_append]
  rfl

namespace Untracks

variable (untracks : draft.Untracks rest generation)
include untracks

theorem candidate?_self : rest.candidate? generation.id = none := by
  unfold Draft.candidate?
  rw [untracks.candidates, Roster.find?_erase, if_pos rfl]

theorem candidate?_of_ne {id : GenerationId} (different : id ≠ generation.id) :
    rest.candidate? id = draft.candidate? id := by
  unfold Draft.candidate?
  rw [untracks.candidates, Roster.find?_erase, if_neg (Ne.symm different)]

theorem offerOf?_tracked (package : String) :
    draft.offerOf? generation package =
      (generation.ownWire? package).or
        (draft.store.lentWire? generation package) := by
  rw [offerOf?, offeredBy, untracks.tracked]
  exact ResolvedModule.find?_offers draft.store generation package

theorem offerOf?_untracked (package : String) :
    rest.offerOf? generation package = generation.ownWire? package := by
  rw [offerOf?, offeredBy, untracks.candidate?_self]
  exact find?_toWire generation.offers generation package

theorem target?_tracked
    (distinct : ((draft.store.wires generation).map Wire.package).Nodup)
    (package : String) :
    draft.target? ⟨generation, package⟩ =
      ((draft.store.wires generation).find? (·.package = package)).or
        ((generation.ownWire? package).or
          (draft.store.lentWire? generation package)) := by
  rw [← ResolvedModule.find?_offers, find?_toWire,
    ← Wirings.find?_ofList distinct]
  unfold target?
  rw [untracks.tracked]
  change _ = ((ResolvedModule.of draft.store generation).wirings.find?
    package).or _
  dsimp only [Candidate.wirings]
  cases (ResolvedModule.of draft.store generation).wirings.find? package <;>
    rfl

theorem target?_untracked (package : String) :
    rest.target? ⟨generation, package⟩ =
      ((draft.store.wires generation).find? (·.package = package)).or
        (generation.ownWire? package) := by
  rw [Generation.ownWire?, ← untracks.store]
  unfold target?
  rw [untracks.candidate?_self]
  dsimp only
  cases (rest.store.wires generation).find? (·.package = package) <;> rfl

theorem offeredBy_of_ne {bundle : Generation}
    (different : bundle.id ≠ generation.id) :
    rest.offeredBy bundle = draft.offeredBy bundle := by
  unfold offeredBy
  rw [untracks.candidate?_of_ne different]

theorem reexportedBy_of_ne {bundle : Generation}
    (different : bundle.id ≠ generation.id) :
    rest.reexportedBy bundle = draft.reexportedBy bundle := by
  unfold reexportedBy
  rw [untracks.candidate?_of_ne different, untracks.store]

/-- The module itself re-exports the same bundles in both drafts. -/
theorem reexportedBy_self
    (flagged : ∀ required ∈ draft.store.requiredWires generation,
      required.reexport = required.require.isReexport) :
    rest.reexportedBy generation = draft.reexportedBy generation := by
  unfold reexportedBy
  rw [untracks.candidate?_self, untracks.tracked, untracks.store]
  change _ = (((draft.store.requiredWires generation).map
    fun required : RequiredWire =>
      (⟨required.require, required.exporter⟩ : Provision)).filter
        (·.require.isReexport)).map Provision.provider
  rw [List.filter_map, List.map_map, List.filter_congr flagged]
  rfl

theorem reached_eq
    (flagged : ∀ required ∈ draft.store.requiredWires generation,
      required.reexport = required.require.isReexport) :
    rest.reached generation = draft.reached generation := by
  refine Eq.symm (Network.walk_congr rfl ?_)
  intro bundle member
  change bundle ∈ draft.reached generation at member
  rw [reached_eq_cons] at member
  rcases List.mem_cons.1 member with rfl | later
  · exact (untracks.reexportedBy_self flagged).symm
  · exact (untracks.reexportedBy_of_ne (id_ne_of_mem_tail later)).symm

/-- What follows shows the same in both drafts. -/
theorem beyond?_eq
    (flagged : ∀ required ∈ draft.store.requiredWires generation,
      required.reexport = required.require.isReexport)
    (package : String) :
    rest.beyond? generation package = draft.beyond? generation package := by
  unfold beyond?
  rw [untracks.reached_eq flagged,
    List.flatMap_congr fun bundle member =>
      untracks.offeredBy_of_ne (id_ne_of_mem_tail member)]

/-- A package leads to the same wire unless it is only lent. -/
theorem target?_eq_iff
    (distinct : ((draft.store.wires generation).map Wire.package).Nodup)
    (package : String) :
    rest.target? ⟨generation, package⟩ =
        draft.target? ⟨generation, package⟩ ↔
      package ∈ (draft.store.wires generation).map Wire.package ∨
        (generation.ownWire? package).isSome ∨
          draft.store.lentWire? generation package = none := by
  rw [untracks.target?_tracked distinct, untracks.target?_untracked,
    ← isSome_find?_key_iff]
  cases (draft.store.wires generation).find? (·.package = package) <;>
    cases generation.ownWire? package <;>
      cases draft.store.lentWire? generation package <;> simp

/-- A package is visible alike unless it is only lent and what follows shows
something else. -/
theorem find?_visible_eq_iff
    (flagged : ∀ required ∈ draft.store.requiredWires generation,
      required.reexport = required.require.isReexport)
    (package : String) :
    (rest.visible generation).find? (·.package = package) =
        (draft.visible generation).find? (·.package = package) ↔
      (generation.ownWire? package).isSome ∨
        draft.store.lentWire? generation package = none ∨
          draft.beyond? generation package =
            draft.store.lentWire? generation package := by
  rw [find?_visible_eq_or, find?_visible_eq_or, untracks.offerOf?_tracked,
    untracks.offerOf?_untracked, untracks.beyond?_eq flagged]
  cases generation.ownWire? package <;>
    cases draft.store.lentWire? generation package <;> simp

end Untracks

/-- A provider shows the same in two drafts, and its packages lead to the same
wires. -/
def LooksSame (rest draft : Draft) (generation : Generation) : Prop :=
  (rest.visible generation).Perm (draft.visible generation) ∧
    ∀ package, rest.target? ⟨generation, package⟩ =
      draft.target? ⟨generation, package⟩

/-- What a module only has by its fragments or as a copy is wired, and what
follows shows the same. -/
def IsCovered (draft : Draft) (generation : Generation) (package : String) :
    Prop :=
  (generation.ownWire? package).isSome ∨
    draft.store.lentWire? generation package = none ∨
      package ∈ (draft.store.wires generation).map Wire.package ∧
        draft.beyond? generation package =
          draft.store.lentWire? generation package

theorem Untracks.looksSame_iff
    (untracks : draft.Untracks rest generation)
    (distinct : ((draft.store.wires generation).map Wire.package).Nodup)
    (flagged : ∀ required ∈ draft.store.requiredWires generation,
      required.reexport = required.require.isReexport) :
    rest.LooksSame draft generation ↔
      ∀ package, draft.IsCovered generation package := by
  unfold LooksSame
  rw [perm_iff_find?_eq (rest.nodup_packages_visible generation)
    (draft.nodup_packages_visible generation), ← forall_and]
  refine forall_congr' fun package => ?_
  rw [untracks.target?_eq_iff distinct,
    untracks.find?_visible_eq_iff flagged, IsCovered]
  tauto

end Draft

/-- A module that a search has as a resolved candidate looks the same where it
takes no part exactly if its own packages cover what it has been lent. -/
theorem World.Reachable.untracked_looksSame_iff
    {world : World} {target : Generation} {search : Search} {node : Node}
    (reachable : world.Reachable) (made : target ∈ world.made)
    (reaches : world.resolver.Reaches world.store target search node)
    {wired : ResolvedModule}
    (found : node.draft.candidate? wired.generation.id =
      some (.resolved wired))
    {rest : Draft} (store : rest.store = node.draft.store)
    (candidates : rest.candidates =
      node.draft.candidates.erase wired.generation.id) :
    (∀ package,
      rest.target? ⟨wired.generation, package⟩ =
          node.draft.target? ⟨wired.generation, package⟩ ↔
        package ∈ (world.store.wires wired.generation).map Wire.package ∨
          (wired.generation.ownWire? package).isSome ∨
            world.store.lentWire? wired.generation package = none) ∧
      (∀ package,
        (rest.visible wired.generation).find? (·.package = package) =
            (node.draft.visible wired.generation).find?
              (·.package = package) ↔
          (wired.generation.ownWire? package).isSome ∨
            world.store.lentWire? wired.generation package = none ∨
              node.draft.beyond? wired.generation package =
                world.store.lentWire? wired.generation package) ∧
      (rest.LooksSame node.draft wired.generation ↔
        ∀ package, node.draft.IsCovered wired.generation package) := by
  have consistent := reachable.isConsistent
  obtain ⟨framework, start, same, tracks, begins, orderly, line⟩ :=
    reaches.exists_start
  have sameStore : node.draft.store = world.store :=
    (Search.store_of_line line orderly.scheduled).trans begins.sameStore
  have rooted := Search.isRooted_of_line line orderly.scheduled
    (Resolver.isRooted_of_begins begins consistent.sound made
      consistent.tracked)
  have known : wired.generation ∈ world.made := (rooted found).isKnown
  have untracks : node.draft.Untracks rest wired.generation := by
    refine ⟨?_, store, candidates⟩
    rw [sameStore, ← Search.eq_of_resolved line orderly.scheduled
      (fun _ _ listed => (begins.given listed).2) found]
    exact found
  obtain ⟨distinct, flagged⟩ := reachable.isFormed_wiring known
  rw [← sameStore] at distinct flagged ⊢
  exact ⟨untracks.target?_eq_iff distinct,
    untracks.find?_visible_eq_iff flagged,
    untracks.looksSame_iff distinct flagged⟩

namespace Sample

/-- A host that has nothing of its own, and its fragment. -/
def manor : Manifest :=
  bundle "h" [] []

def annex : Manifest :=
  fragment "f" "h" [offer "p" 1] []

/-- The world in which they have been resolved. -/
def annexed : World :=
  (world [onlooker, manor, annex]).applying (generation 1 manor) fun _ => true

/-- What the host has of the package. -/
def annexWire : Wire :=
  ⟨"p", offer "p" 1, generation 1 manor⟩

end Sample

/-- A package that a host has by its fragment is not found where the host takes no
part. -/
theorem World.annex_overlooked :
    ∃ search draft,
      Sample.annexed.resolver.initialDraft Sample.annexed.store
          (Sample.generation 0 Sample.onlooker) = .ok (search, draft) ∧
        ∀ rest : Draft, rest.store = draft.store →
          rest.candidates = draft.candidates.erase (Sample.id 1) →
            draft.visible (Sample.generation 1 Sample.manor) =
              [Sample.annexWire] ∧
            draft.target? ⟨Sample.generation 1 Sample.manor, "p"⟩ =
              some Sample.annexWire ∧
            rest.target? ⟨Sample.generation 1 Sample.manor, "p"⟩ ≠
              some Sample.annexWire ∧
            ¬ rest.LooksSame draft (Sample.generation 1 Sample.manor) := by
  have facts : (Sample.annexed.resolver.initialDraft Sample.annexed.store
      (Sample.generation 0 Sample.onlooker)).toOption.any (fun begun =>
        (begun.2.candidate? (Sample.id 1)).any (fun candidate =>
          Search.isResolved candidate ∧
            candidate.generation = Sample.generation 1 Sample.manor) ∧
        begun.2.visible (Sample.generation 1 Sample.manor) =
          [Sample.annexWire] ∧
        begun.2.target? ⟨Sample.generation 1 Sample.manor, "p"⟩ =
          some Sample.annexWire) = true := by
    decide +kernel
  obtain ⟨⟨search, draft⟩, made, holds⟩ := (Option.any_eq_true _ _).1 facts
  obtain ⟨isResolved, visible, target⟩ := of_decide_eq_true holds
  obtain ⟨candidate, found, holds⟩ := (Option.any_eq_true _ _).1 isResolved
  obtain ⟨isResolved, isManor⟩ := of_decide_eq_true holds
  have prepared := Search.eq_ok_of_toOption made
  refine ⟨search, draft, prepared, ?_⟩
  intro rest store candidates
  cases candidate with
  | unresolved installed => cases isResolved
  | bound binding => cases isResolved
  | resolved wired =>
      change wired.generation = Sample.generation 1 Sample.manor at isManor
      have reachable : Sample.annexed.Reachable :=
        (Sample.reachable_world _).applying (by decide +kernel) _
      have tracked : draft.candidate? wired.generation.id =
          some (.resolved wired) := by
        rw [isManor]
        exact found
      obtain ⟨targets, -⟩ := reachable.untracked_looksSame_iff
        (by decide +kernel) (.resolve prepared .refl) tracked store
        (by rw [isManor]; exact candidates)
      rw [isManor] at targets
      have lent : ¬ ("p" ∈ (Sample.annexed.store.wires
          (Sample.generation 1 Sample.manor)).map Wire.package ∨
          ((Sample.generation 1 Sample.manor).ownWire? "p").isSome ∨
            Sample.annexed.store.lentWire?
              (Sample.generation 1 Sample.manor) "p" = none) := by
        decide +kernel
      have different := mt (targets "p").1 lent
      rw [target] at different
      exact ⟨visible, target, different,
        fun same => different ((same.2 "p").trans target)⟩

end ModuleWiring
