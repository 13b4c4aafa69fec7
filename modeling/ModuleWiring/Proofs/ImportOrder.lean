import ModuleWiring.Proofs.Provisos
import ModuleWiring.Proofs.Repetition

/-!
# The order of imports

Reordering the imports of a bundle leaves it resolvable if it has been resolved
with a wiring that obeys some provisos.  It does not without any of them.
-/

namespace ModuleWiring

namespace Reordering

variable (reordering : Reordering)

/-- The world in which the reordered generations have been installed from the
beginning. -/
def world (world : World) : World where
  resolver := reordering.resolver world.resolver
  store := reordering.store world.store
  made := world.made.map reordering
  answers := world.answers.map reordering.solution

end Reordering

/-- A candidate of which nothing is decided is what the store makes of it. -/
theorem Candidate.IsGiven.eq_given
    {store : Store} {candidate : Candidate} (given : candidate.IsGiven store)
    (notBound : ∀ bound, candidate ≠ .bound bound) :
    candidate = .given store candidate.generation := by
  unfold Candidate.given
  cases given with
  | unresolved notResolved =>
      exact (if_neg (by simp [Candidate.generation, notResolved])).symm
  | resolved isResolved _ => exact (if_pos isResolved).symm
  | target _ _ => exact absurd rfl (notBound _)
  | reopened _ _ => exact absurd rfl (notBound _)

namespace World.Solves

open Search

variable {world : World} {target : Generation} {framework : Framework}
  {draft final other : Draft} {id : GenerationId} {candidate : Candidate}
  {reordering : Reordering}

/-- Whoever is there in the end was there in the beginning. -/
theorem exists_begun
    (solves : world.Solves target framework draft final)
    (found : final.candidate? id = some candidate) :
    ∃ before, draft.candidate? id = some before ∧
      before.generation = candidate.generation := by
  cases here : draft.candidate? id with
  | none =>
      have none := (candidate?_eq_none_iff_of_line solves.run.line
        solves.run.scheduled id).2 here
      rw [found] at none
      cases none
  | some before =>
      have known : draft.generation? id = some before.generation := by
        unfold Draft.generation?
        rw [here, Option.map_some]
      have kept := @invariant_of_line _ (fun node =>
        node.draft.generation? id = some before.generation) _ _
        solves.run.line solves.run.scheduled known
        fun _ scheduled decision holds =>
          generation?_of_decision scheduled decision holds
      unfold Draft.generation? at kept
      rw [found, Option.map_some] at kept
      exact ⟨before, rfl, (Option.some.inj kept).symm⟩

/-- What is not bound in the end is as it was in the beginning. -/
theorem begun_of_notBound
    (solves : world.Solves target framework draft final)
    (notFragment : target.isFragment = false)
    (found : final.candidate? id = some candidate)
    (notBound : ∀ bound, candidate ≠ .bound bound) :
    draft.candidate? id = some candidate := by
  obtain ⟨before, here, same⟩ := solves.exists_begun found
  have untouched : ∀ bound, before ≠ .bound bound := by
    rintro bound rfl
    have isTarget := Draft.eq_of_bound_of_initial solves.begun here
    subst isTarget
    have sameId : target.id = id := Draft.id_of_candidate? here
    obtain ⟨module, hit⟩ :=
      solves.exists_bound_target notFragment solves.run.line
    rw [sameId] at hit
    exact notBound module (Option.some.inj (found.symm.trans hit))
  have given := isGiven_of_notBound solves.run.line solves.run.scheduled
    solves.given found notBound
  rw [here, (solves.given here).eq_given untouched, same,
    ← given.eq_given notBound]

/-- What is bound in the end was unresolved in the beginning, or has been in
charge since. -/
theorem begun_of_bound
    (solves : world.Solves target framework draft final)
    (notFragment : target.isFragment = false) {bound : BoundModule}
    (found : final.candidate? id = some (.bound bound)) :
    draft.candidate? id = some (.unresolved bound.host) ∨
      draft.candidate? id = some (.bound (.of bound.host)) := by
  obtain ⟨before, here, same⟩ := solves.exists_begun found
  cases before with
  | unresolved installed =>
      obtain rfl : installed = bound.host := same
      exact .inl here
  | resolved wired =>
      have unresolved := solves.installed_of_bound notFragment found
      cases solves.given here with
      | @resolved generation isResolved _ =>
          obtain rfl : generation = bound.host := same
          rw [isResolved] at unresolved
          cases unresolved
  | bound fresh =>
      obtain rfl := Draft.eq_of_bound_of_initial solves.begun here
      obtain rfl : target = bound.host := same
      exact .inr here

/-- A candidate that has been reordered before a search fits in with what the
search has made of it. -/
theorem fits
    (solves : world.Solves target framework draft final)
    (notFragment : target.isFragment = false)
    {before changed : Candidate} (begun : draft.candidate? id = some before)
    (relates : reordering.Relates before changed)
    (found : final.candidate? id = some candidate) :
    final.Fits reordering candidate changed := by
  have asBegun : (∀ bound, candidate ≠ .bound bound) →
      before = candidate := fun notBound =>
    Option.some.inj (begun.symm.trans
      (solves.begun_of_notBound notFragment found notBound))
  cases candidate with
  | unresolved installed =>
      obtain rfl := asBegun (by simp)
      cases relates with
      | unresolved _ => exact .idle installed
  | resolved wired =>
      obtain rfl := asBegun (by simp)
      cases relates with
      | resolved _ => exact .resolved wired
  | bound bound =>
      rcases solves.begun_of_bound notFragment found with waiting | fresh
      · obtain rfl := Option.some.inj (begun.symm.trans waiting)
        cases relates with
        | unresolved _ => exact .waiting bound
      · obtain rfl := Option.some.inj (begun.symm.trans fresh)
        cases relates with
        | fresh _ => exact .bound (BoundModule.keeps_of final reordering bound)

/-- The search for the reordered target starts on the way to the same wiring. -/
theorem follows
    (solves : world.Solves target framework draft final)
    (notFragment : target.isFragment = false)
    (reordered : draft.Matches reordering.toRevision reordering.Relates
      other)
    (registered : other.IsRegistered) :
    final.Follows reordering other := by
  obtain ⟨middle, pooled, ⟨isFragment, _⟩ | ⟨_, isBegun⟩⟩ :=
    Draft.exists_of_initial solves.begun
  · rw [notFragment] at isFragment
    cases isFragment
  obtain ⟨noneUsed, _, isUnused⟩ := Draft.unused_of_pool pooled
  have atTarget := Draft.candidate?_target_of_initial solves.begun notFragment
  constructor
  · rw [reordered.store, solves.run.begins.sameStore, solves.run.sameStore]
  · intro id
    cases found : final.candidate? id with
    | none =>
        have none := (candidate?_eq_none_iff_of_line solves.run.line
          solves.run.scheduled id).1 found
        rw [eq_none_of_rel (reordered.candidates id) none]
        exact .none
    | some candidate =>
        obtain ⟨before, begun, _⟩ := solves.exists_begun found
        obtain ⟨changed, hit, relates⟩ :=
          exists_right_of_rel (reordered.candidates id) begun
        rw [hit]
        exact .some (solves.fits notFragment begun relates found)
  · intro id wired contained found
    obtain ⟨before, begun, relates⟩ :=
      exists_left_of_rel (reordered.candidates id) found
    rw [reordered.used, isBegun] at contained
    change (middle.used.insert target.id).contains id = true at contained
    rw [noneUsed, Roster.contains_insert] at contained
    have isTarget : target.id = id := contained.resolve_right (by
      rintro ⟨⟩)
    rw [isTarget, begun] at atTarget
    cases atTarget
    cases relates
  · intro fragment available
    obtain ⟨before, begun, relates⟩ :=
      exists_left_of_rel (reordered.candidates _) available.found
    have different : target.id ≠ fragment.id := by
      intro same
      rw [same, begun] at atTarget
      cases atTarget
      cases relates
    rw [reordered.unused, isBegun]
    rw [isBegun] at begun
    refine (Roster.contains_erase _ _ _).2 ⟨different, ?_⟩
    change (middle.put (.bound (.of target))).candidate? fragment.id = _
      at begun
    have apart : (Candidate.bound (.of target)).id ≠ fragment.id := different
    rw [Draft.candidate?_put, if_neg apart] at begun
    refine (isUnused fragment.id).2 ?_
    rw [begun]
    rfl
  · exact registered

/-- The search for the reordered target finds a wiring. -/
theorem isSome_found_reordered
    (solves : world.Solves target framework draft final)
    (notFragment : target.isFragment = false)
    (obeys : ∀ proviso, final.Obeys proviso)
    {generations : List Generation}
    (begun : Draft.initial (reordering.store world.store) generations
      (reordering target) = .ok other)
    (reordered : draft.Matches reordering.toRevision reordering.Relates
      other) :
    ((world.resolver.search framework).run other).found.isSome = true := by
  have alsoNotFragment : (reordering target).isFragment = false := by
    rw [(reordering.reorders target).isFragment]
    exact notFragment
  have registered := Draft.isRegistered_of_initial begun
  have atTarget :=
    Draft.candidate?_target_of_initial begun alsoNotFragment
  have retraces : Retraces reordering final ⟨.start, other⟩ :=
    ⟨solves.follows notFragment reordered registered,
      fun untouched => untouched _ _ atTarget,
      fun later => absurd rfl later, by simp⟩
  have balanced : other.IsBalanced (reordering.store world.store).fragments :=
    Draft.isBalanced_of_initial (fun _ _ => List.Subset.refl _) begun
  exact retraces.isSome_found (solves.isTemplate notFragment obeys)
    (Draft.scheduled_of_initial begun) balanced

end World.Solves

/-- A bundle can be resolved with its imports and those of other bundles in
another order, if it has been resolved with a wiring that obeys all provisos. -/
theorem World.Reachable.exists_resolve_of_reorder
    {world : World} (reachable : world.Reachable) {target : Generation}
    {final : Draft} (made : target ∈ world.made)
    (notFragment : target.isFragment = false)
    (attempted : (world.resolver.attempt world.store target).result =
      .ok final)
    (obeys : ∀ proviso, final.Obeys proviso) (reordering : Reordering) :
    ∃ answer, (reordering.world world).resolver.resolve
      (reordering.world world).store (reordering target) = .ok answer := by
  obtain ⟨framework, draft, installed, begun, run⟩ :=
    Resolver.exists_run_of_attempt attempted
  have solves : world.Solves target framework draft final :=
    ⟨reachable.isConsistent, made, installed, begun, run⟩
  obtain ⟨other, otherBegun, reordered⟩ :=
    Draft.exists_initial_map reordering begun
  obtain ⟨goal, found⟩ := Option.isSome_iff_exists.1
    (solves.isSome_found_reordered notFragment obeys otherBegun reordered)
  refine ⟨goal.solutions, ?_⟩
  rw [← reordering.canonical_resolver] at otherBegun
  have started : (reordering.resolver world.resolver).framework =
      some framework := run.started
  have attempt := Resolver.attempt_eq started
    ((reordering.tracks_resolver _ _).trans run.tracks)
    ((reordering.state_store _ _).trans installed) otherBegun
  change ((reordering.resolver world.resolver).attempt
    (reordering.store world.store) (reordering target)).solutions = _
  rw [attempt, Resolver.solutions_ofOutcome]
  exact ⟨goal, found, rfl⟩

/-! ## Decided provisos -/

namespace Draft

/-- The bundles that are reached from those that modules have to require. -/
def providing (draft : Draft) : List Generation :=
  draft.modules.flatMap fun bound => bound.needed.flatMap fun provision =>
    provision.provider :: draft.reached provision.provider

/-- The wires of the modules that a draft binds, and the offers of the bundles that
are reached from those that they have to require. -/
def stated (draft : Draft) : List Wire :=
  draft.modules.flatMap (·.wirings.values) ++
    draft.providing.flatMap draft.everOffered

/-- What a package stands for, and the own export of a module. -/
def sights (draft : Draft) (view : View) : List Wire :=
  (draft.target? view).toList ++
    (((draft.bound? view.owner.id).bind (·.ownOffer? view.package)).map
      (·.toWire view.owner)).toList

/-- No uses list leads out of the wires that a draft states, and these agree with
each other and with all standing wires. -/
structure IsAccordant (draft : Draft) : Prop where
  reexported : ∀ bundle ∈ draft.providing,
    draft.reexportedBy bundle ⊆ draft.providing
  closed : ∀ wire ∈ draft.stated, ∀ view ∈ usedViews wire,
    draft.sights view ⊆ draft.stated
  agreed : ∀ wire ∈ draft.stated, ∀ theirs ∈ draft.stated ++ draft.standing,
    theirs.package = wire.package → theirs.exporter.id = wire.exporter.id

instance decidableIsAccordant (draft : Draft) :
    Decidable draft.IsAccordant :=
  decidable_of_iff
    ((∀ bundle ∈ draft.providing,
        draft.reexportedBy bundle ⊆ draft.providing) ∧
      (∀ wire ∈ draft.stated, ∀ view ∈ usedViews wire,
        draft.sights view ⊆ draft.stated) ∧
      ∀ wire ∈ draft.stated, ∀ theirs ∈ draft.stated ++ draft.standing,
        theirs.package = wire.package →
          theirs.exporter.id = wire.exporter.id)
    ⟨fun facts => ⟨facts.1, facts.2.1, facts.2.2⟩,
      fun accordant => ⟨accordant.reexported, accordant.closed,
        accordant.agreed⟩⟩

namespace IsAccordant

variable {draft : Draft} {bound : BoundModule} {provision : Provision}

theorem mem_stated_of_mayShow
    (accordant : draft.IsAccordant) (inModules : bound ∈ draft.modules)
    (needed : provision ∈ bound.needed) {wire : Wire}
    (shown : draft.MayShow provision.provider wire) :
    wire ∈ draft.stated := by
  obtain ⟨bundle, reached, offered⟩ := shown
  refine List.mem_append_right _ (List.mem_flatMap.2 ⟨bundle, ?_, offered⟩)
  clear offered
  induction reached with
  | refl => exact List.mem_flatMap.2 ⟨bound, inModules,
      List.mem_flatMap.2 ⟨provision, needed, List.mem_cons_self⟩⟩
  | tail _ next inductionHypothesis =>
      exact accordant.reexported _ inductionHypothesis next

theorem mem_stated_of_entails
    (accordant : draft.IsAccordant) {start wire : Wire}
    (stated : start ∈ draft.stated) (entails : draft.Entails start wire) :
    wire ∈ draft.stated := by
  induction entails with
  | refl => exact stated
  | tail _ leads inductionHypothesis =>
      obtain ⟨view, used, seen⟩ := leads
      have inSights {next : Wire} (listed : next ∈ draft.sights view) :
          next ∈ draft.stated :=
        accordant.closed _ inductionHypothesis view used listed
      cases seen with
      | target found =>
          exact inSights (List.mem_append_left _ (by simp [found]))
      | own found first =>
          exact inSights (List.mem_append_right _ (by
            simp [bound?, found, Candidate.bound?, first]))
      | copy found copied _ =>
          obtain ⟨provision, needed, _, shown⟩ := copied
          exact accordant.mem_stated_of_mayShow
            (mem_modules_of_candidate? found) needed shown

theorem agreesFrom
    (accordant : draft.IsAccordant) {Starts : Wire → Prop}
    (stated : ∀ {wire}, Starts wire → wire ∈ draft.stated) :
    draft.AgreesFrom Starts where
  single := fun starts otherStarts left right same =>
    accordant.agreed _ (accordant.mem_stated_of_entails (stated otherStarts)
      right) _ (List.mem_append_left _ (accordant.mem_stated_of_entails
        (stated starts) left)) same
  standing := fun starts entails theirs listed same =>
    accordant.agreed _ (accordant.mem_stated_of_entails (stated starts)
      entails) theirs (List.mem_append_right _ listed) same

theorem isUnanimous (accordant : draft.IsAccordant) : draft.IsUnanimous where
  wired := fun bound inModules => accordant.agreesFrom fun held =>
    List.mem_append_left _ (List.mem_flatMap.2 ⟨bound, inModules, held⟩)
  provided := fun _ inModules _ needed =>
    accordant.agreesFrom (accordant.mem_stated_of_mayShow inModules needed)

end IsAccordant

/-- Whether a draft obeys a proviso for an obvious reason. -/
def Heeds (draft : Draft) : Proviso → Prop
  | .unanimous => draft.IsAccordant
  | proviso => draft.Obeys proviso

theorem Heeds.obeys
    {draft : Draft} {proviso : Proviso} (heeds : draft.Heeds proviso) :
    draft.Obeys proviso := by
  cases proviso with
  | unanimous => exact IsAccordant.isUnanimous heeds
  | firsthand => exact heeds
  | original => exact heeds
  | satisfied => exact heeds

instance decidableHeeds (draft : Draft) :
    (proviso : Proviso) → Decidable (draft.Heeds proviso)
  | .unanimous => inferInstanceAs (Decidable draft.IsAccordant)
  | .firsthand => inferInstanceAs (Decidable (∀ _ ∈ _, _))
  | .original => inferInstanceAs (Decidable (∀ _ ∈ _, _))
  | .satisfied => inferInstanceAs (Decidable (∀ _ ∈ _, _))

end Draft

namespace Sample

/-- The imports of a generation in reverse. -/
def backwards (generation : Generation) : Generation :=
  { generation with
    manifest := { generation.manifest with
      imports := generation.manifest.imports.reverse } }

theorem backwards_reorders (generation : Generation) :
    (backwards generation).Reorders generation :=
  ⟨_, List.reverse_perm _, rfl⟩

/-- The change that reverses the imports of one generation. -/
def reversal (target : Generation) : Reordering :=
  .of target (backwards target) (backwards_reorders target)

/-- A bundle that imports two packages in one version. -/
def taker : Manifest :=
  bundle "t" [] [wish "a" 1, wish "b" 1]

/-- Providers of the two packages.  One re-exports a bundle, and that uses a
package like the other. -/
def supported : World :=
  world [taker, passing "m" [offer "a" 1] [need "c" 1],
    bundle "c" [offer "s" 1 ["q"]] [wish "q" 2],
    bundle "n" [offer "b" 1 ["q"]] [wish "q" 2], source]

end Sample

/-- A bundle can be resolved with its imports in reverse where one of its providers
has to re-export another bundle. -/
theorem World.supported_reversed :
    ∃ final answer,
      (Sample.supported.resolver.attempt Sample.supported.store
        (Sample.generation 0 Sample.taker)).result = .ok final ∧
      (∀ proviso, final.Obeys proviso) ∧
      (∃ bound ∈ final.modules, bound.needed ≠ []) ∧
      (Sample.backwards (Sample.generation 0 Sample.taker)).imports ≠
        (Sample.generation 0 Sample.taker).imports ∧
      ((Sample.reversal (Sample.generation 0 Sample.taker)).world
        Sample.supported).resolver.resolve
          ((Sample.reversal (Sample.generation 0 Sample.taker)).world
            Sample.supported).store
          (Sample.backwards (Sample.generation 0 Sample.taker)) =
            .ok answer := by
  have facts : ((Sample.supported.resolver.attempt Sample.supported.store
      (Sample.generation 0 Sample.taker)).result.toOption.any fun draft =>
        decide ((∀ proviso, draft.Heeds proviso) ∧
          ∃ bound ∈ draft.modules, bound.needed ≠ [])) = true := by
    decide +kernel
  obtain ⟨final, found, holds⟩ := (Option.any_eq_true _ _).1 facts
  obtain ⟨heeds, needing⟩ := of_decide_eq_true holds
  have result := Search.eq_ok_of_toOption found
  have obeys : ∀ proviso, final.Obeys proviso :=
    fun proviso => (heeds proviso).obeys
  obtain ⟨answer, resolved⟩ := World.Reachable.exists_resolve_of_reorder
    (Sample.reachable_world _) (by decide +kernel) (by decide +kernel) result
    obeys (Sample.reversal (Sample.generation 0 Sample.taker))
  exact ⟨final, answer, result, obeys, needing, by decide +kernel, resolved⟩

/-! ## No proviso can be left out -/

/-- A bundle that has been resolved, and another order of its imports. -/
structure Rearrangement where
  world : World
  target : Generation
  final : Draft
  reordered : Generation
  reorders : reordered.Reorders target

/-- The world in which the bundle has its imports in the other order. -/
def Rearrangement.result (rearranged : Rearrangement) : World :=
  (Reordering.of rearranged.target rearranged.reordered
    rearranged.reorders).world rearranged.world

/-- The bundle is resolved in a reachable world. -/
structure Rearrangement.Arises (rearranged : Rearrangement) : Prop where
  reachable : rearranged.world.Reachable
  made : rearranged.target ∈ rearranged.world.made
  notFragment : rearranged.target.isFragment = false
  attempted : (rearranged.world.resolver.attempt rearranged.world.store
    rearranged.target).result = .ok rearranged.final

/-- Under the provisos, the imports of a bundle may have any order. -/
def Proviso.rule : Rule Proviso Rearrangement where
  Arises := Rearrangement.Arises
  Meets rearranged := rearranged.final.Obeys
  Holds rearranged := ∃ answer,
    rearranged.result.resolver.resolve rearranged.result.store
      rearranged.reordered = .ok answer

namespace Sample

/-- Providers of the two packages.  One has to be wired to a package that uses an
older version of a package to which the other is wired. -/
def contested : List Manifest :=
  [taker, bundle "m" [offer "a" 1] [wish "p" 1],
    bundle "n" [offer "b" 1] [wish "q" 2],
    bundle "y" [offer "p" 1 ["q"], offer "q" 1] [], source]

/-- Providers of the two packages.  A fragment brings to one what the other is
wired to. -/
def enriched : List Manifest :=
  [taker, bundle "y" [offer "a" 1] [],
    bundle "m" [offer "b" 1] [wish "c" 1], fragment "f" "y" [offer "c" 1] []]

/-- A bundle that imports two versions of a package, one of which it exports. -/
def wavering : Manifest :=
  bundle "t" [offer "p" 1] [wish "p" 1, wish "p" 2]

/-- A bundle that imports the two packages the other way round. -/
def asker : Manifest :=
  bundle "t" [] [wish "b" 1, wish "a" 1]

/-- A bundle that exports a package, and one that passes it on. -/
def vanished : Manifest :=
  bundle "y" [offer "p" 1] []

def anchor : Manifest :=
  passing "r" [] [need "y" 1]

/-- Providers of the two packages.  One passes on what it is shown by that bundle,
and the other imports what it is shown by the one. -/
def lender : Manifest :=
  passing "s" [offer "b" 1] [need "r" 1]

def borrower : Manifest :=
  { passing "m" [offer "a" 1] [need "s" 1] with imports := [wish "p" 1] }

/-- The world in which the exporter of what is passed on is not tracked any
more. -/
def borrowed : World :=
  ((world [asker, anchor, lender, borrower, vanished]).applying
    (generation 1 anchor) fun _ => true).removing (generation 4 vanished)

theorem reachable_borrowed : borrowed.Reachable :=
  ((reachable_world _).applying (by decide +kernel) _).removing
    (by decide +kernel)

end Sample

namespace Proviso

theorem not_suffices_of_break
    {missing : Proviso} {world : World} (reachable : world.Reachable)
    (target : Generation) (made : target ∈ world.made)
    (notFragment : target.isFragment = false)
    (heeded : ((world.resolver.attempt world.store
      target).result.toOption.any fun draft =>
        decide (∀ proviso, proviso ≠ missing → draft.Heeds proviso)) = true)
    (broken : (((Sample.reversal target).world world).resolver.resolve
        ((Sample.reversal target).world world).store
        (Sample.backwards target)).toOption.isNone = true) :
    ¬ rule.Suffices (· ≠ missing) := by
  obtain ⟨final, found, heeds⟩ := (Option.any_eq_true _ _).1 heeded
  let rearranged : Rearrangement := ⟨world, target, final,
    Sample.backwards target, Sample.backwards_reorders target⟩
  have arises : rearranged.Arises :=
    ⟨reachable, made, notFragment, Search.eq_ok_of_toOption found⟩
  have fails : ¬ rule.Holds rearranged := by
    rintro ⟨answer, resolved⟩
    change ((Sample.reversal target).world world).resolver.resolve
        ((Sample.reversal target).world world).store
        (Sample.backwards target) = .ok answer at resolved
    rw [resolved] at broken
    cases broken
  have breaks : rule.Breaks (· ≠ missing) rearranged :=
    ⟨arises, fun proviso asked =>
      (of_decide_eq_true heeds proviso asked).obeys, fails⟩
  exact breaks.not_suffices

/-- The order of imports matters to whether a bundle can be resolved, and it still
does when one of the provisos is left out. -/
theorem each_needed : rule.NoneDispensable := by
  refine Rule.noneDispensable fun missing => ?_
  cases missing with
  | unanimous =>
      exact not_suffices_of_break (Sample.reachable_world Sample.contested)
        (Sample.generation 0 Sample.taker) (by decide +kernel) rfl
        (by decide +kernel) (by decide +kernel)
  | firsthand =>
      exact not_suffices_of_break Sample.reachable_borrowed
        (Sample.generation 0 Sample.asker) (by decide +kernel) rfl
        (by decide +kernel) (by decide +kernel)
  | original =>
      exact not_suffices_of_break (Sample.reachable_world Sample.enriched)
        (Sample.generation 0 Sample.taker) (by decide +kernel) rfl
        (by decide +kernel) (by decide +kernel)
  | satisfied =>
      exact not_suffices_of_break (Sample.reachable_world
          [Sample.wavering, Sample.bundle "z" [Sample.offer "p" 2] []])
        (Sample.generation 0 Sample.wavering) (by decide +kernel) rfl
        (by decide +kernel) (by decide +kernel)

end Proviso

end ModuleWiring
