import ModuleWiring.Proofs.Conditions
import ModuleWiring.Proofs.Template

/-!
# Answers that are templates

A search leaves no require and no import of a module without a reason.  A
finished draft is a template if its wires and what its modules have to require
are unanimous and do not rest on what the search has brought about in passing.
-/

namespace ModuleWiring

namespace Search

variable {search : Search}

/-! ## Reasons -/

theorem isSelfServed_iff
    {bound : BoundModule} {requirement : PackageImport} :
    isSelfServed bound requirement = true ↔
      ∃ offer, bound.offers.find? (·.package = requirement.package) =
          some offer ∧
        requirement.accepts offer.declared (offer.exporter bound.host) =
          true := by
  unfold isSelfServed
  cases bound.offers.find? (·.package = requirement.package) with
  | none => simp
  | some first => simp

/-- A module offers what it exports and has no wire for, and copies.  Its requires
and imports are still to be decided, or have been left or met. -/
structure Justified (search : Search) (bound : BoundModule) : Prop where
  offers : bound.OffersOwn (·.source ≠ none)
  requested : ∀ require ∈ bound.requested,
    require ∈ bound.requires ∨ require.isOptional = true ∨
      ∃ provision ∈ bound.required, provision.require = require
  demanded : ∀ requirement ∈ bound.demanded,
    requirement ∈ bound.imports ∨ requirement.isOptional = true ∨
    search.framework.bootDelegation.covers requirement.package = true ∨
    (∃ wire, bound.wirings.find? requirement.package = some wire) ∨
    isSelfServed bound requirement = true

namespace Justified

variable {bound new : BoundModule}

theorem of_fresh
    {installed : Generation} {joined : List Generation}
    (taken : (BoundModule.of installed).TakesOn joined new) :
    search.Justified new where
  offers := .of_takesOn taken
  requested := by
    intro require member
    unfold BoundModule.requested at member
    rw [taken.host, taken.fragments] at member
    rw [taken.requires_eq rfl]
    exact .inl member
  demanded := by
    intro requirement member
    unfold BoundModule.demanded at member
    rw [taken.host, taken.fragments] at member
    rw [taken.imports_eq fun _ => rfl]
    exact .inl member

theorem leaveRequire
    {require : Require} {rest : List Require}
    (justified : search.Justified bound)
    (next : bound.requires = require :: rest)
    (optional : require.isOptional = true) :
    search.Justified { bound with requires := rest } where
  offers := justified.offers
  requested := by
    intro other member
    rcases justified.requested other member with pending | decided
    · rw [next] at pending
      rcases List.mem_cons.1 pending with rfl | later
      · exact .inr (.inl optional)
      · exact .inl later
    · exact .inr decided
  demanded := justified.demanded

theorem provide
    {require : Require} {rest : List Require} {provider : Generation}
    (justified : search.Justified bound)
    (next : bound.requires = require :: rest) (visible : List Wire) :
    search.Justified ({ bound with requires := rest }.addProvision
      ⟨require, provider⟩ visible) where
  offers := by
    have offers : BoundModule.OffersOwn (·.source ≠ none)
      { bound with requires := rest } := justified.offers
    exact offers.addProvision fun _ _ _ => Option.some_ne_none _
  requested := by
    intro other member
    rcases justified.requested other member with
      pending | optional | ⟨provision, provided, isOther⟩
    · rw [next] at pending
      rcases List.mem_cons.1 pending with rfl | later
      · exact .inr (.inr ⟨_, List.mem_append_right _ List.mem_cons_self,
          rfl⟩)
      · exact .inl later
    · exact .inr (.inl optional)
    · exact .inr (.inr
        ⟨provision, List.mem_append_left _ provided, isOther⟩)
  demanded := by
    intro requirement member
    refine (justified.demanded requirement member).imp_right
      (Or.imp_right (Or.imp_right (Or.imp_right fun served => ?_)))
    -- Copies come after all other offers, so that the first ones stay.
    obtain ⟨offer, first, accepted⟩ := isSelfServed_iff.1 served
    obtain ⟨added, same, _⟩ := BoundModule.exists_offers_addProvision
      { bound with requires := rest } ⟨require, provider⟩ visible
    refine isSelfServed_iff.2 ⟨offer, ?_, accepted⟩
    rw [same, List.find?_append, first]
    rfl

theorem leaveImport
    {requirement : PackageImport} {rest : List PackageImport}
    (justified : search.Justified bound)
    (next : bound.imports = requirement :: rest)
    (allowed : search.MayLeave bound requirement) :
    search.Justified { bound with imports := rest } where
  offers := justified.offers
  requested := justified.requested
  demanded := by
    intro other member
    rcases justified.demanded other member with pending | decided
    · rw [next] at pending
      rcases List.mem_cons.1 pending with rfl | later
      · right
        rcases allowed with
          ⟨wire, held, _⟩ | optional | delegated | ⟨_, served⟩
        · exact .inr (.inr (.inl ⟨wire, held⟩))
        · exact .inl optional
        · exact .inr (.inl delegated)
        · exact .inr (.inr (.inr served))
      · exact .inl later
    · exact .inr decided

theorem wire
    {requirement : PackageImport} {rest : List PackageImport} {wire : Wire}
    (justified : search.Justified bound)
    (next : bound.imports = requirement :: rest) :
    search.Justified { bound with
      imports := rest
      wirings := bound.wirings.insert requirement.package wire
      offers := bound.offers.filter (·.package ≠ requirement.package) } where
  offers := justified.offers.wire rest
  requested := justified.requested
  demanded := by
    have wired : ∀ package, package = requirement.package ∨
        (∃ theirs, bound.wirings.find? package = some theirs) →
          ∃ theirs, (Table.insert bound.wirings requirement.package
            wire).find? package = some theirs := by
      intro package held
      rw [Table.find?_insert]
      split
      · exact ⟨wire, rfl⟩
      · rename_i other
        exact held.resolve_left (Ne.symm other)
    intro other member
    rcases justified.demanded other member with
      pending | optional | delegated | held | served
    · rw [next] at pending
      rcases List.mem_cons.1 pending with rfl | later
      · exact .inr (.inr (.inr (.inl (wired _ (.inl rfl)))))
      · exact .inl later
    · exact .inr (.inl optional)
    · exact .inr (.inr (.inl delegated))
    · exact .inr (.inr (.inr (.inl (wired _ (.inr held)))))
    · by_cases same : other.package = requirement.package
      · exact .inr (.inr (.inr (.inl (wired _ (.inl same)))))
      · obtain ⟨offer, first, accepted⟩ := isSelfServed_iff.1 served
        refine .inr (.inr (.inr (.inr
          (isSelfServed_iff.2 ⟨offer, ?_, accepted⟩))))
        rw [BoundModule.find?_filter_ne same]
        exact first

/-- Whatever is decided about a module is justified. -/
theorem deciding
    {draft after : Draft} (step : Deciding search draft after bound new)
    (justified : search.Justified bound) :
    search.Justified new := by
  cases step with
  | leaveRequire _ next optional => exact justified.leaveRequire next optional
  | provide _ next _ _ _ _ => exact justified.provide next _
  | leaveImport _ next allowed => exact justified.leaveImport next allowed
  | wire _ next _ _ _ _ _ => exact justified.wire next

end Justified

end Search

/-! ## Provisos -/

/-- What makes a finished draft a template for other orders of imports. -/
inductive Proviso where
  | unanimous
  | firsthand
  | original
  | satisfied
  deriving DecidableEq, Inhabited

instance : Fintype Proviso :=
  .ofList [.unanimous, .firsthand, .original, .satisfied]
    (by rintro (_ | _ | _ | _) <;> decide)

/-- Whether a draft obeys a proviso:

* following uses lists never leads to two exporters of a package,
* no mandatory import is met by a copy of what somebody else exports,
* no wire leads to an export that only an attached fragment brings along,
* no mandatory import is at odds with the wire of its module. -/
def Draft.Obeys (draft : Draft) : Proviso → Prop
  | .unanimous => draft.IsUnanimous
  | .firsthand => ∀ bound ∈ draft.modules,
      ∀ requirement ∈ bound.demanded, requirement.isOptional = false →
        ∀ offer ∈ bound.offers.find? (·.package = requirement.package),
          offer.source = none
  | .original => ∀ bound ∈ draft.modules, ∀ wire ∈ bound.wirings.values,
      ∀ exporting ∈ draft.modules, exporting.host.id = wire.exporter.id →
        wire.declared ∈ exporting.host.manifest.exports
  | .satisfied => ∀ bound ∈ draft.modules,
      ∀ requirement ∈ bound.demanded, requirement.isOptional = false →
        ∀ wire ∈ bound.wirings.find? requirement.package,
          requirement.accepts wire.declared wire.exporter = true

/-- What a resolved host and its fragments export is offered whatever it
re-exports. -/
theorem ResolvedModule.mem_offers
    {store : Store} {generation member : Generation} {offer : Offer}
    (listed : member ∈ generation :: store.fragments generation)
    (offered : offer ∈ member.offers) :
    offer ∈ (ResolvedModule.of store generation).offers := by
  have kept : ∀ (required : List RequiredWire) (offers : List Offer),
      offer ∈ offers →
        offer ∈ required.foldl
          (fun offers wire => reexport offers wire.wires) offers := by
    intro required
    induction required with
    | nil => exact fun _ member => member
    | cons first rest inductionHypothesis =>
        intro offers member
        obtain ⟨added, same, _⟩ := exists_reexport_eq offers first.wires
        refine inductionHypothesis _ ?_
        change offer ∈ reexport offers first.wires
        rw [same]
        exact List.mem_append_left _ member
  refine kept _ _ ?_
  rw [← List.flatMap_cons]
  exact List.mem_flatMap.2 ⟨member, listed, offered⟩

namespace World.Solves

open Search

variable {world : World} {target : Generation} {framework : Framework}
  {draft final : Draft} {id : GenerationId} {bound : BoundModule}

/-- A search for a bundle binds nothing that was resolved before. -/
theorem installed_of_bound
    (solves : world.Solves target framework draft final)
    (notFragment : target.isFragment = false)
    (found : final.candidate? id = some (.bound bound)) :
    (world.store.state bound.host).isResolved = false := by
  obtain ⟨solution, member, host, _⟩ :=
    solves.run.finished.exists_solution found
  rw [← host]
  rcases solves.installed_or_joined member with installed | ⟨_, joined⟩
  · rw [installed]
    rfl
  · have isFragment := solves.isFragment_of_mem_fragments member joined
    rw [notFragment] at isFragment
    cases isFragment

/-- A search for a bundle decides nothing without a reason. -/
theorem justified
    (solves : world.Solves target framework draft final)
    (notFragment : target.isFragment = false)
    (found : final.candidate? id = some (.bound bound)) :
    (world.resolver.search framework).Justified bound := by
  have everywhere : Everywhere (ResolvedOr world.store
      (world.resolver.search framework).Justified) ⟨.finished, final⟩ := by
    refine everywhere_of_line solves.run.line solves.run.scheduled ?_ ?_
    · intro other candidate known
      cases solves.given known with
      | unresolved _ => trivial
      | resolved wasResolved _ => exact wasResolved
      | target _ _ => exact .inr (.of_fresh (.nil _))
      | reopened _ wasResolved => exact .inl wasResolved
    · intro position result earlier candidate _ evolution holds
      exact resolvedOr_of_evolution evolution holds
        (fun taken => .of_fresh taken)
        fun step justified => justified.deciding step
  exact (everywhere found).resolve_left (by
    rw [solves.installed_of_bound notFragment found]
    exact Bool.false_ne_true)

/-- The index knows what a candidate exports. -/
theorem indexed
    (solves : world.Solves target framework draft final)
    {candidate : Candidate} (found : final.candidate? id = some candidate)
    {declared : Export} {package : String}
    (listed : declared ∈ candidate.generation.manifest.exports)
    (exports : package ∈ declared.packages) :
    ((world.resolver.search framework).index.exporters package).contains
      candidate.id = true := by
  have tracked := (tracked_of_canonical (solves.served found).isKnown).1
  exact List.contains_iff_mem.2 (solves.consistent.resolver.indexed
    candidate.generation tracked _
      (List.mem_flatMap.2 ⟨declared, listed, exports⟩))

/-- A module that was resolved before has always offered what it and its fragments
export. -/
theorem provides_of_resolved
    (solves : world.Solves target framework draft final)
    {wired : ResolvedModule} {member : Generation} {wire : Wire}
    (found : final.candidate? id = some (.resolved wired))
    (listed : member ∈ wired.generation :: wired.fragments)
    (declared : wire.declared ∈ member.manifest.exports)
    (exports : wire.package ∈ wire.declared.packages) :
    final.Provides (world.resolver.search framework) wire
      (.resolved wired) := by
  have same := eq_of_resolved solves.run.line solves.run.scheduled
    solves.given found
  have fragments : wired.fragments =
      world.store.fragments wired.generation := by
    rw [same]
    rfl
  have offered := Generation.mem_offers_of_mem_exports declared exports
  refine .resolved ?_ ?_
  · rw [same]
    exact ResolvedModule.mem_offers (fragments ▸ listed) offered
  · unfold mayExport
    rw [Bool.or_eq_true]
    rcases List.mem_cons.1 listed with rfl | attached
    · exact .inr (solves.indexed found declared exports)
    · refine .inl ?_
      change (!wired.fragments.isEmpty) = true
      cases none : wired.fragments with
      | nil => simp [none] at attached
      | cons _ _ => rfl

/-- What a wire leads to has been offered from the beginning, unless an attached
fragment brings it. -/
theorem provides
    (solves : world.Solves target framework draft final)
    (notFragment : target.isFragment = false)
    (original : final.Obeys .original)
    (found : final.candidate? id = some (.bound bound)) {wire : Wire}
    (held : bound.wirings.find? wire.package = some wire) :
    ∃ candidate, final.candidate? wire.exporter.id = some candidate ∧
      candidate.generation = wire.exporter ∧
        final.Provides (world.resolver.search framework) wire candidate := by
  have known : ∀ generation ∈ world.resolver.tracked,
      generation ∈ world.made :=
    fun generation member => solves.consistent.tracked member
  have unresolved := solves.installed_of_bound notFragment found
  have served := (solves.served found).served.resolve_left (by
    rw [unresolved]
    exact Bool.false_ne_true)
  obtain ⟨_, _, _, requirement, _, package, accepted⟩ := served.wires held
  have exports : wire.package ∈ wire.declared.packages :=
    package ▸ PackageImport.mem_packages_of_accepts accepted
  obtain ⟨candidate, hit, isExporter, touched, member, listed, declared⟩ :=
    solves.run.wiresBacked solves.consistent.sound solves.made known found
      unresolved held
  refine ⟨candidate, hit, isExporter, ?_⟩
  cases candidate with
  | unresolved installed => exact absurd rfl (touched installed)
  | resolved wired =>
      exact solves.provides_of_resolved hit listed declared exports
  | bound exporting =>
      have sameId : exporting.host.id = wire.exporter.id :=
        congrArg Generation.id isExporter
      have own := original bound (Draft.mem_modules_of_candidate? found) wire
        (Table.mem_values_of_find? held) exporting
        (Draft.mem_modules_of_candidate? hit) sameId
      refine .bound (Generation.mem_offers_of_mem_exports own exports)
        (solves.indexed hit own exports) ?_
      cases rival : exporting.wirings.find? wire.package with
      | none => rfl
      | some theirs =>
          have rooted := (solves.run.isRooted solves.consistent.sound
            solves.made known).1
          have agreed := wiresAgree_of_line solves.run.line
            solves.run.scheduled (fun _ _ known => (rooted known).keyed)
            solves.run.begins.settled solves.run.begins.queue hit found rival
            held
          exact absurd (agreed.trans sameId.symm)
            ((solves.rooted hit).foreign (solves.served hit).isHost rival)

/-- The finished draft of a search for a bundle is a template under the
provisos. -/
theorem isTemplate
    (solves : world.Solves target framework draft final)
    (notFragment : target.isFragment = false)
    (obeys : ∀ proviso, final.Obeys proviso) :
    final.IsTemplate (world.resolver.search framework) := by
  refine ⟨?_, obeys .unanimous⟩
  intro id bound found
  have inModules := Draft.mem_modules_of_candidate? found
  have unresolved := solves.installed_of_bound notFragment found
  have sameId : bound.host.id = id := Draft.id_of_candidate? found
  have rooted := solves.rooted found
  have justified := solves.justified notFragment found
  have served := (solves.served found).served.resolve_left (by
    rw [unresolved]
    exact Bool.false_ne_true)
  obtain ⟨module, settled, noImports, noRequires⟩ :=
    solves.run.finished.settled id
      (solves.run.finished.mem_settled_of_finished found)
  dsimp only at settled
  rw [found] at settled
  cases settled
  constructor
  · exact (solves.served found).isHost
  · exact solves.suits notFragment found
  · intro fragment member
    rcases solves.balanced.joined found fragment member with
      carried | ⟨attached, known⟩
    · unfold Store.carried at carried
      rw [unresolved] at carried
      cases carried
    · exact ⟨sameId ▸ attached, known, (rooted.fragments fragment member).2⟩
  · intro require member mandatory
    rcases justified.requested require member with
      pending | optional | provided
    · rw [noRequires] at pending
      cases pending
    · rw [mandatory] at optional
      cases optional
    · exact provided
  · intro provision member
    obtain ⟨_, foreign, _, provides⟩ := served.required provision member
    obtain ⟨known, touched⟩ := solves.run.needsTakePart found unresolved
      (.inr ⟨provision, member, rfl⟩)
    obtain ⟨candidate, hit, isProvider⟩ := Option.map_eq_some_iff.1 known
    refine ⟨foreign, provides, candidate, hit, isProvider, ?_⟩
    rintro installed rfl
    exact touched installed hit
  · intro requirement member mandatory undelegated
    have accepted := obeys .satisfied bound inModules requirement member
      mandatory
    cases held : bound.wirings.find? requirement.package with
    | some wire => exact .inl ⟨wire, rfl, accepted wire held⟩
    | none =>
        rcases justified.demanded requirement member with
          pending | optional | delegated | ⟨wire, wired⟩ | selfServed
        · rw [noImports] at pending
          cases pending
        · rw [mandatory] at optional
          cases optional
        · rw [undelegated] at delegated
          cases delegated
        · rw [held] at wired
          cases wired
        · obtain ⟨offer, first, meets⟩ := isSelfServed_iff.1 selfServed
          have own := obeys .firsthand bound inModules requirement member
            mandatory offer first
          refine .inr ⟨rfl, offer, (justified.offers.own_or_copy held
            first).resolve_right (not_not_intro own), ?_⟩
          simpa [Offer.exporter, own] using meets
  · intro package wire held
    have named : wire.package = package := rooted.keyed held
    subst named
    exact ⟨rfl, rooted.foreign (solves.served found).isHost held,
      (served.wires held).1,
      solves.provides notFragment (obeys .original) found held⟩

end World.Solves

end ModuleWiring
