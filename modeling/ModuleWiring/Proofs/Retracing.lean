import ModuleWiring.Proofs.ReorderedDrafts
import ModuleWiring.Proofs.Template

/-!
# Retracing a finished wiring

A search for reordered imports can go by the finished draft of another search
wherever that one is a template.
-/

namespace ModuleWiring

namespace Draft

/-- A candidate is bound only if it is in the template, and likewise. -/
inductive Fits (template : Draft) (reordering : Reordering) :
    Candidate → Candidate → Prop where
  | idle (installed : Generation) :
      Fits template reordering (.unresolved installed)
        (.unresolved (reordering installed))
  | resolved (wired : ResolvedModule) :
      Fits template reordering (.resolved wired)
        (.resolved (reordering.resolved wired))
  | waiting (bound : BoundModule) :
      Fits template reordering (.bound bound)
        (.unresolved (reordering bound.host))
  | bound {bound new : BoundModule} :
      bound.Keeps template reordering new →
      Fits template reordering (.bound bound) (.bound new)

theorem Fits.generation
    {template : Draft} {reordering : Reordering}
    {candidate changed : Candidate}
    (fits : template.Fits reordering candidate changed) :
    changed.generation = reordering candidate.generation := by
  cases fits with
  | idle _ => rfl
  | resolved _ => rfl
  | waiting _ => rfl
  | bound keeps => exact keeps.host

/-- What an exporter of the template provides, it offers on the way there as well. -/
theorem Fits.mem_offers
    {search : Search} {reordering : Reordering} {template : Draft} {wire : Wire}
    {candidate changed : Candidate}
    (fits : template.Fits reordering candidate changed)
    (provides : template.Provides search wire candidate) :
    (⟨wire.package, wire.declared, none⟩ : Offer) ∈ changed.offers ∧
      search.mayExport changed wire.package = true := by
  have sameId : changed.id = candidate.id := by
    unfold Candidate.id
    rw [fits.generation, (reordering.reorders _).id]
  unfold Search.mayExport
  rw [sameId]
  cases provides with
  | @resolved wired offered worthwhile =>
      cases fits with
      | resolved _ =>
          refine ⟨List.mem_map.2 ⟨_, offered, rfl⟩, ?_⟩
          have fragments : (reordering.resolved wired).fragments.isEmpty =
              wired.fragments.isEmpty := List.isEmpty_map
          change (!(reordering.resolved wired).fragments.isEmpty || _) = true
          rw [fragments]
          exact worthwhile
  | @bound exporting offered indexed unwired =>
      have worthwhile : (search.index.exporters wire.package).contains
        (Candidate.bound exporting).id = true := indexed
      rw [← (reordering.reorders exporting.host).offers] at offered
      rw [worthwhile, Bool.or_true]
      refine ⟨?_, rfl⟩
      cases fits with
      | waiting _ => exact offered
      | @bound _ new keeps =>
          have stillUnwired : new.wirings.find? wire.package = none := by
            cases wired : new.wirings.find? wire.package with
            | none => rfl
            | some rival =>
                obtain ⟨original, impossible, _⟩ := keeps.wirings wired
                rw [unwired] at impossible
                cases impossible
          obtain ⟨copies, offers, _⟩ := keeps.offers
          change _ ∈ new.offers
          rw [offers]
          refine List.mem_append_left _ (List.mem_filter.2 ⟨?_, by
            simp [stillUnwired]⟩)
          refine List.mem_flatMap.2 ⟨new.host, List.mem_cons_self, ?_⟩
          rw [keeps.host]
          exact offered

/-- A draft has come some way towards a template. -/
structure Follows (reordering : Reordering) (template draft : Draft) :
    Prop where
  store : draft.store = reordering.store template.store
  fits : ∀ id, Option.Rel (template.Fits reordering)
    (template.candidate? id) (draft.candidate? id)
  used : ∀ {id wired}, draft.used.contains id = true →
    draft.candidate? id = some (.resolved wired) →
      ∃ bound ∈ template.modules, ∃ partner ∈ bound.partners,
        partner.id = id
  loose : ∀ {fragment}, draft.IsAvailable fragment →
    draft.unused.contains fragment.id = true
  registered : draft.IsRegistered

end Draft

namespace Draft

variable {reordering : Reordering} {template draft : Draft}

theorem mirrors_toWire
    {owner original : Generation} (reordering : Reordering)
    (reorders : owner.Reorders original)
    (offer : Offer) :
    ((reordering.offer offer).toWire owner).Mirrors
      (offer.toWire original) := by
  obtain ⟨package, declared, source⟩ := offer
  refine ⟨rfl, rfl, ?_⟩
  cases source with
  | none => exact reorders
  | some source => exact reordering.reorders source

theorem mirrors_toWire_of_own
    {owner original : Generation} (reorders : owner.Reorders original)
    {offer : Offer} (own : offer.source = none) :
    (offer.toWire owner).Mirrors (offer.toWire original) := by
  obtain ⟨package, declared, source⟩ := offer
  cases own
  exact ⟨rfl, rfl, reorders⟩

namespace Follows

/-- The candidate of the draft that stands for one of the template. -/
theorem exists_of_template
    (follows : template.Follows reordering draft) {id : GenerationId}
    {candidate : Candidate} (found : template.candidate? id = some candidate) :
    ∃ changed, draft.candidate? id = some changed ∧
      template.Fits reordering candidate changed :=
  exists_right_of_rel (follows.fits id) found

/-- The candidate of the template that one of the draft stands for. -/
theorem exists_of_draft
    (follows : template.Follows reordering draft) {id : GenerationId}
    {changed : Candidate} (found : draft.candidate? id = some changed) :
    ∃ candidate, template.candidate? id = some candidate ∧
      template.Fits reordering candidate changed :=
  exists_left_of_rel (follows.fits id) found

theorem exists_keeps
    (follows : template.Follows reordering draft) {id : GenerationId}
    {new : BoundModule} (found : draft.candidate? id = some (.bound new)) :
    ∃ bound, template.candidate? id = some (.bound bound) ∧
      bound.Keeps template reordering new := by
  obtain ⟨candidate, here, fits⟩ := follows.exists_of_draft found
  cases fits with
  | bound keeps => exact ⟨_, here, keeps⟩

/-- Who is no candidate is none in the template. -/
theorem candidate?_eq_none
    (follows : template.Follows reordering draft) {id : GenerationId}
    (there : draft.candidate? id = none) :
    template.candidate? id = none := by
  cases here : template.candidate? id with
  | none => rfl
  | some candidate =>
      obtain ⟨changed, hit, _⟩ := follows.exists_of_template here
      rw [there] at hit
      cases hit

/-! ### What is visible through a provider -/

/-- What a bundle re-exports in the draft it re-exports in the template. -/
theorem exists_reexportedBy
    (follows : template.Follows reordering draft)
    {bundle original next : Generation} (reorders : bundle.Reorders original)
    (listed : next ∈ draft.reexportedBy bundle) :
    ∃ theirs ∈ template.reexportedBy original, next.Reorders theirs := by
  unfold reexportedBy at listed ⊢
  rw [reorders.id] at listed
  cases there : draft.candidate? original.id with
  | none =>
      rw [there] at listed
      rw [follows.candidate?_eq_none there]
      have same : draft.store.requiredWires bundle =
          (template.store.requiredWires original).map
            reordering.requiredWire := by
        rw [follows.store, reorders.requiredWires,
          ← (reordering.reorders original).requiredWires,
          reordering.requiredWires_store]
      dsimp only at listed ⊢
      rw [same, List.filter_map, List.map_map] at listed
      obtain ⟨required, member, rfl⟩ := List.mem_map.1 listed
      exact ⟨_, List.mem_map_of_mem member,
        reordering.reorders required.exporter⟩
  | some changed =>
      obtain ⟨candidate, here, fits⟩ := follows.exists_of_draft there
      rw [there] at listed
      rw [here]
      dsimp only at listed ⊢
      obtain ⟨provision, member, rfl⟩ := List.mem_map.1 listed
      obtain ⟨provided, reexported⟩ := List.mem_filter.1 member
      cases fits with
      | idle _ => cases provided
      | waiting _ => cases provided
      | resolved wired =>
          obtain ⟨theirs, known, rfl⟩ := List.mem_map.1 provided
          exact ⟨_, List.mem_map_of_mem
            (List.mem_filter.2 ⟨known, reexported⟩),
            reordering.reorders theirs.provider⟩
      | bound keeps =>
          obtain ⟨theirs, needed, rfl⟩ := keeps.required provision provided
          exact ⟨_, List.mem_map_of_mem (List.mem_filter.2
            ⟨(BoundModule.mem_needed.1 needed).1, reexported⟩),
            reordering.reorders theirs.provider⟩

theorem exists_reaches
    (follows : template.Follows reordering draft)
    {provider original bundle : Generation}
    (reorders : provider.Reorders original)
    (reached : draft.Reaches provider bundle) :
    ∃ theirs, template.Reaches original theirs ∧ bundle.Reorders theirs := by
  induction reached with
  | refl => exact ⟨original, .refl, reorders⟩
  | tail _ listed inductionHypothesis =>
      obtain ⟨before, within, alike⟩ := inductionHypothesis
      obtain ⟨theirs, next, same⟩ := follows.exists_reexportedBy alike listed
      exact ⟨theirs, within.tail next, same⟩

/-- What a module offers it exports itself or re-exports in the template. -/
theorem exists_mayShow_of_keeps
    {bundle original : Generation} {bound new : BoundModule} {offer : Offer}
    (reorders : bundle.Reorders original)
    (here : template.candidate? original.id = some (.bound bound))
    (keeps : bound.Keeps template reordering new)
    (offered : offer ∈ new.offers) :
    ∃ theirs, template.MayShow original theirs ∧
      (offer.toWire bundle).Mirrors theirs := by
  obtain ⟨copies, offers, allowed⟩ := keeps.offers
  rw [offers] at offered
  rcases List.mem_append.1 offered with own | copied
  · obtain ⟨more, exported⟩ := keeps.exists_ownOffers_eq
    have listed : offer ∈ new.ownOffers := (List.mem_filter.1 own).1
    have listedThere : offer ∈ bound.ownOffers :=
      exported ▸ List.mem_append_left _ listed
    exact ⟨offer.toWire original,
      ⟨original, .refl, mem_everOffered_of_own here listedThere⟩,
      mirrors_toWire_of_own reorders
        (BoundModule.source_of_mem_ownOffers listed)⟩
  · obtain ⟨wire, theirs, mayCopy, mirrors, rfl⟩ := allowed offer copied
    exact ⟨theirs, mayCopy.mayShow here, mirrors⟩

/-- Whatever a bundle offers in the draft may be visible through it in the
template. -/
theorem exists_mayShow
    (follows : template.Follows reordering draft)
    {bundle original : Generation} {wire : Wire}
    (reorders : bundle.Reorders original)
    (offered : wire ∈ draft.offeredBy bundle) :
    ∃ theirs, template.MayShow original theirs ∧ wire.Mirrors theirs := by
  have own : ∀ {generation : Generation} {offer : Offer},
      offer ∈ generation.offers →
        (offer.toWire bundle).Mirrors (offer.toWire original) :=
    fun listed => mirrors_toWire_of_own reorders
      (mem_exports_of_mem_offers listed).2
  have unbound : (∀ bound,
      template.candidate? original.id ≠ some (.bound bound)) →
        ∀ {theirs}, theirs ∈ template.offeredBy original →
          template.MayShow original theirs :=
    fun notBound _ listed =>
      ⟨original, .refl, everOffered_eq notBound ▸ listed⟩
  unfold offeredBy at offered unbound
  rw [reorders.id] at offered
  cases there : draft.candidate? original.id with
  | none =>
      have here := follows.candidate?_eq_none there
      rw [there, reorders.offers] at offered
      rw [here] at unbound
      obtain ⟨offer, listed, rfl⟩ := List.mem_map.1 offered
      exact ⟨offer.toWire original,
        unbound (by simp) (List.mem_map_of_mem listed), own listed⟩
  | some changed =>
      obtain ⟨candidate, here, fits⟩ := follows.exists_of_draft there
      rw [there] at offered
      rw [here] at unbound
      obtain ⟨offer, listed, rfl⟩ := List.mem_map.1 offered
      cases fits with
      | idle installed =>
          change offer ∈ (reordering installed).offers at listed
          rw [(reordering.reorders installed).offers] at listed
          exact ⟨offer.toWire original,
            unbound (by simp) (List.mem_map_of_mem listed), own listed⟩
      | resolved wired =>
          obtain ⟨theirs, known, rfl⟩ := List.mem_map.1 listed
          exact ⟨theirs.toWire original,
            unbound (by simp) (List.mem_map_of_mem known),
            mirrors_toWire reordering reorders theirs⟩
      | waiting bound =>
          have keeps := BoundModule.keeps_of template reordering bound
          exact exists_mayShow_of_keeps reorders here keeps listed
      | bound keeps =>
          exact exists_mayShow_of_keeps reorders here keeps listed

/-- Whatever is visible through a provider in the draft may be so in the
template. -/
theorem exists_mayShow_of_visible
    (follows : template.Follows reordering draft)
    {provider original : Generation} {wire : Wire}
    (reorders : provider.Reorders original)
    (visible : wire ∈ draft.visible provider) :
    ∃ theirs, template.MayShow original theirs ∧ wire.Mirrors theirs := by
  obtain ⟨bundle, listed, offered⟩ := List.mem_flatMap.1
    (mem_firstOfEach visible)
  obtain ⟨before, reached, alike⟩ :=
    follows.exists_reaches reorders (reaches_of_mem_reached listed)
  obtain ⟨theirs, ⟨other, onward, exported⟩, mirrors⟩ :=
    follows.exists_mayShow alike offered
  exact ⟨theirs, ⟨other, reached.trans onward, exported⟩, mirrors⟩

/-! ### What a package stands for -/

/-- A candidate that has the wires and offers of one of the template stands for
what that stands for. -/
theorem exists_maySee_of_alike
    {view original : View} {wire : Wire} {candidate changed : Candidate}
    (owner : view.owner.Reorders original.owner)
    (package : view.package = original.package)
    (here : template.candidate? original.owner.id = some candidate)
    (there : draft.candidate? original.owner.id = some changed)
    (wirings : changed.wirings = candidate.wirings.mapValues reordering.wire)
    (offers : changed.offers = candidate.offers.map reordering.offer)
    (found : draft.target? view = some wire) :
    ∃ seen, template.MaySee original seen ∧ wire.Mirrors seen := by
  unfold target? at found
  rw [owner.id, there] at found
  dsimp only at found
  rw [Candidate.offer?, offers, wirings, package, Table.find?_mapValues]
    at found
  cases held : candidate.wirings.find? original.package with
  | some theirs =>
      rw [held] at found
      cases found
      refine ⟨theirs, .target ?_, reordering.mirrors_wire theirs⟩
      simp [target?, here, held]
  | none =>
      rw [held, Option.map_none, List.find?_map, Option.map_map] at found
      obtain ⟨offer, first, rfl⟩ := Option.map_eq_some_iff.1 found
      refine ⟨offer.toWire original.owner, .target ?_,
        mirrors_toWire reordering owner offer⟩
      change candidate.offers.find? (·.package = original.package) =
        some offer at first
      simp [target?, here, held, Candidate.offer?, first]

/-- An owner that is no candidate stands for what it does in the template. -/
theorem exists_maySee_of_missing
    (follows : template.Follows reordering draft) {view original : View}
    {wire : Wire} (owner : view.owner.Reorders original.owner)
    (package : view.package = original.package)
    (there : draft.candidate? original.owner.id = none)
    (found : draft.target? view = some wire) :
    ∃ seen, template.MaySee original seen ∧ wire.Mirrors seen := by
  have here := follows.candidate?_eq_none there
  have wired : (draft.store.wires view.owner).find?
      (·.package = view.package) =
        ((template.store.wires original.owner).find?
          (·.package = original.package)).map reordering.wire := by
    rw [follows.store, owner.wires,
      ← (reordering.reorders original.owner).wires, reordering.wires_store,
      List.find?_map, package]
    rfl
  unfold target? at found
  rw [owner.id, there] at found
  dsimp only at found
  rw [wired, owner.offers, package] at found
  cases held : (template.store.wires original.owner).find?
      (·.package = original.package) with
  | some theirs =>
      rw [held] at found
      cases found
      refine ⟨theirs, .target ?_, reordering.mirrors_wire theirs⟩
      simp [target?, here, held]
  | none =>
      rw [held] at found
      obtain ⟨offer, first, rfl⟩ := Option.map_eq_some_iff.1 found
      refine ⟨offer.toWire original.owner, .target ?_,
        mirrors_toWire_of_own owner (mem_exports_of_mem_offers
          (List.mem_of_find?_eq_some first)).2⟩
      simp [target?, here, held, first]

/-- What a module offers first it exports first in the template, or it is a
copy. -/
theorem exists_maySee_of_offer?
    {view original : View} {bound new : BoundModule} {offer : Offer}
    (owner : view.owner.Reorders original.owner)
    (here : template.candidate? original.owner.id = some (.bound bound))
    (keeps : bound.Keeps template reordering new)
    (unwired : new.wirings.find? original.package = none)
    (first : new.offers.find? (·.package = original.package) =
      some offer) :
    ∃ seen, template.MaySee original seen ∧
      (offer.toWire view.owner).Mirrors seen := by
  rcases keeps.offers.own_or_copy unwired first with
    own | ⟨wire, theirs, mayCopy, mirrors, rfl⟩
  · exact ⟨offer.toWire original.owner, .own here (keeps.ownOffer?_eq own),
      mirrors_toWire_of_own owner (BoundModule.source_of_mem_ownOffers
        (List.mem_of_find?_eq_some own))⟩
  · have named : wire.package = original.package := by
      simpa using List.find?_some first
    exact ⟨theirs, .copy here mayCopy (mirrors.package.symm.trans named),
      mirrors⟩

/-- A module that the draft binds stands for what its wire in the template leads to,
or for what it offers. -/
theorem exists_maySee_of_keeps
    {view original : View} {wire : Wire} {bound new : BoundModule}
    (owner : view.owner.Reorders original.owner)
    (package : view.package = original.package)
    (here : template.candidate? original.owner.id = some (.bound bound))
    (there : draft.candidate? original.owner.id = some (.bound new))
    (keeps : bound.Keeps template reordering new)
    (found : draft.target? view = some wire) :
    ∃ seen, template.MaySee original seen ∧ wire.Mirrors seen := by
  unfold target? at found
  rw [owner.id, there] at found
  dsimp only at found
  split at found
  · rename_i held
    cases found
    obtain ⟨theirs, known, rfl⟩ := keeps.wirings (package ▸ held)
    refine ⟨theirs, .target ?_, reordering.mirrors_wire theirs⟩
    change bound.wirings.find? original.package = some theirs at known
    simp [target?, here, Candidate.wirings, known]
  · rename_i unwired
    obtain ⟨offer, first, rfl⟩ := Option.map_eq_some_iff.1 found
    exact exists_maySee_of_offer? owner here keeps (package ▸ unwired)
      (package ▸ first)

/-- What a package stands for in the draft is one of the things that it may be
taken for in the template. -/
theorem exists_maySee
    (follows : template.Follows reordering draft) {view original : View}
    {wire : Wire} (owner : view.owner.Reorders original.owner)
    (package : view.package = original.package)
    (found : draft.target? view = some wire) :
    ∃ seen, template.MaySee original seen ∧ wire.Mirrors seen := by
  cases there : draft.candidate? original.owner.id with
  | none => exact follows.exists_maySee_of_missing owner package there found
  | some changed =>
      obtain ⟨candidate, here, fits⟩ := follows.exists_of_draft there
      cases fits with
      | idle installed =>
          have offers : (reordering.change installed).offers =
              installed.offers.map reordering.offer :=
            (reordering.reorders installed).offers.trans
              (reordering.map_offer_offers installed).symm
          exact exists_maySee_of_alike owner package here there rfl offers
            found
      | resolved wired =>
          exact exists_maySee_of_alike owner package here there rfl rfl found
      | waiting bound =>
          unfold target? at found
          rw [owner.id, there] at found
          obtain ⟨offer, first, rfl⟩ := Option.map_eq_some_iff.1 found
          have keeps := BoundModule.keeps_of template reordering bound
          exact exists_maySee_of_offer? owner here keeps rfl
            (package ▸ first)
      | bound keeps =>
          exact exists_maySee_of_keeps owner package here there keeps found

/-- Everything that a wire implies in the draft is reached in the template. -/
theorem exists_entails
    (follows : template.Follows reordering draft) {start origin wire : Wire}
    (mirrors : start.Mirrors origin) (implied : wire ∈ draft.implied start) :
    ∃ reached, template.Entails origin reached ∧ wire.Mirrors reached := by
  refine forall_mem_implied (fun wire => ∃ reached,
    template.Entails origin reached ∧ wire.Mirrors reached)
    ⟨origin, .refl, mirrors⟩ ?_ wire implied
  rintro before view next ⟨reached, entails, alike⟩ used found _ _
  obtain ⟨owner, listed⟩ := mem_usedViews.1 used
  have reorders : view.owner.Reorders reached.exporter :=
    owner ▸ alike.exporter
  obtain ⟨seen, maySee, mirrored⟩ :
      ∃ seen, template.MaySee ⟨reached.exporter, view.package⟩ seen ∧
        next.Mirrors seen :=
    follows.exists_maySee reorders rfl found
  refine ⟨seen, entails.tail ⟨_, mem_usedViews.2 ⟨rfl, ?_⟩, maySee⟩,
    mirrored⟩
  rw [← alike.declared]
  exact listed

/-! ### Consistency -/

/-- Every wire in use is one of the template's standing wires. -/
theorem exists_standing
    (follows : template.Follows reordering draft) {wire : Wire}
    (inUse : draft.InUse wire) :
    ∃ theirs ∈ template.standing, wire.Mirrors theirs := by
  obtain ⟨id, changed, used, found, member⟩ := inUse
  obtain ⟨candidate, here, fits⟩ := follows.exists_of_draft found
  cases fits with
  | idle _ => cases member
  | waiting _ => cases member
  | resolved wired =>
      obtain ⟨bound, bindings, partner, listed, rfl⟩ := follows.used used found
      change wire ∈ (wired.wirings.mapValues reordering.wire).values at member
      rw [Table.values_mapValues] at member
      obtain ⟨theirs, held, rfl⟩ := List.mem_map.1 member
      refine ⟨theirs, List.mem_flatMap.2 ⟨bound, bindings,
        List.mem_append_right _ (List.mem_flatMap.2 ⟨partner, listed, ?_⟩)⟩,
        reordering.mirrors_wire theirs⟩
      rw [here]
      exact held
  | @bound bound new keeps =>
      obtain ⟨theirs, held, rfl⟩ :=
        keeps.wirings (keeps.keyed.find?_of_mem member)
      exact ⟨theirs, List.mem_flatMap.2 ⟨bound,
        mem_modules_of_candidate? here, List.mem_append_left _
          (Table.mem_values_of_find? held)⟩, reordering.mirrors_wire theirs⟩

/-- Wires agree with each other and with all that the draft is committed to if they
go back to wires of the template that do so. -/
theorem agrees
    (follows : template.Follows reordering draft) {Starts : Wire → Prop}
    (agreesFrom : template.AgreesFrom Starts) {wires : List Wire}
    (origin : ∀ wire ∈ wires, ∃ start, Starts start ∧ ∃ reached,
      template.Entails start reached ∧ wire.Mirrors reached) :
    draft.agrees wires = true := by
  apply agrees_of_exporter_eq
  · intro first firstMember second secondMember samePackage
    obtain ⟨_, firstStarts, left, leftReached, leftMirrors⟩ :=
      origin first firstMember
    obtain ⟨_, secondStarts, right, rightReached, rightMirrors⟩ :=
      origin second secondMember
    rw [leftMirrors.exporter.id, rightMirrors.exporter.id]
    refine agreesFrom.single secondStarts firstStarts rightReached
      leftReached ?_
    rw [← rightMirrors.package, ← leftMirrors.package, samePackage]
  · intro implied member other inUse samePackage
    obtain ⟨_, starts, reached, entails, mirrors⟩ := origin implied member
    obtain ⟨theirs, standing, alike⟩ := follows.exists_standing inUse
    rw [alike.exporter.id, mirrors.exporter.id]
    refine agreesFrom.standing starts entails theirs standing ?_
    rw [← alike.package, ← mirrors.package, samePackage]

/-- A wire of the template agrees with everything that the draft is committed
to. -/
theorem isWireConsistent
    (follows : template.Follows reordering draft)
    (unanimous : template.IsUnanimous) {bound new : BoundModule}
    (bindings : bound ∈ template.modules)
    (keeps : bound.Keeps template reordering new) {wire : Wire}
    (held : bound.wirings.find? wire.package = some wire) :
    Search.isWireConsistent draft new wire.package
      ⟨reordering wire.exporter, wire.declared⟩ = true := by
  refine follows.agrees (unanimous.wired bound bindings) ?_
  intro implied member
  rcases List.mem_append.1 member with now | before
  · obtain ⟨reached, entails, mirrors⟩ :=
      follows.exists_entails (reordering.mirrors_wire wire) now
    exact ⟨wire, Table.mem_values_of_find? held, reached, entails, mirrors⟩
  · obtain ⟨start, wired, follow⟩ := List.mem_flatMap.1 before
    obtain ⟨theirs, known, rfl⟩ :=
      keeps.wirings (keeps.keyed.find?_of_mem wired)
    obtain ⟨reached, entails, mirrors⟩ :=
      follows.exists_entails (reordering.mirrors_wire theirs) follow
    exact ⟨theirs, Table.mem_values_of_find? known, reached, entails,
      mirrors⟩

/-- What is visible through a provider of the template agrees with everything that
the draft is committed to while the module in charge has no wires. -/
theorem isRequireConsistent
    (follows : template.Follows reordering draft)
    (unanimous : template.IsUnanimous) {bound new : BoundModule}
    {provision : Provision} (bindings : bound ∈ template.modules)
    (needed : provision ∈ bound.needed)
    (current : draft.resolvingBound? = some new)
    (unwired : new.wirings = ∅) :
    Search.isRequireConsistent draft (reordering provision.provider) =
      true := by
  have nothing : draft.accepted new = [] := by
    unfold accepted
    rw [unwired]
    rfl
  unfold Search.isRequireConsistent
  rw [current]
  dsimp only
  rw [nothing, List.nil_append]
  refine follows.agrees (unanimous.provided bound bindings provision needed) ?_
  intro implied member
  obtain ⟨shown, visible, follow⟩ := List.mem_flatMap.1 member
  obtain ⟨start, mayShow, alike⟩ := follows.exists_mayShow_of_visible
    (reordering.reorders provision.provider) visible
  obtain ⟨reached, entails, mirrors⟩ := follows.exists_entails alike follow
  exact ⟨start, mayShow, reached, entails, mirrors⟩

end Follows

end Draft

end ModuleWiring
