import ModuleWiring.Proofs.LighterChoices

/-!
# Decisions on lighter drafts

What can be decided for a lighter draft can be decided for the draft itself.  There
is one exception.  A fragment cannot join a host that was resolved before if one of
its imports has a wire there that does not suit it, optional or not.
-/

namespace ModuleWiring

open Search

namespace BoundModule

/-- None of some imports is optional and has a wire that does not suit it. -/
def Suits (bound : BoundModule) (imports : List PackageImport) : Prop :=
  ∀ requirement ∈ imports, requirement.isOptional = true →
    ∀ wire, bound.wirings.find? requirement.package = some wire →
      requirement.accepts wire.declared wire.exporter = true

variable {bound : BoundModule}

theorem suits_of_unwired
    (unwired : ∀ package, bound.wirings.find? package = none)
    (imports : List PackageImport) :
    bound.Suits imports := by
  intro requirement _ _ wire wired
  cases (unwired requirement.package).symm.trans wired

theorem Suits.tail
    {first : PackageImport} {rest : List PackageImport}
    (suits : bound.Suits (first :: rest)) :
    bound.Suits rest :=
  fun requirement member => suits requirement (List.mem_cons_of_mem _ member)

namespace Lightens

variable {revision : Revision} {light : BoundModule}
  (both : bound.Lightens revision light)

include both

/-- What a lighter module has to decide of the imports of a fragment is part of what
the module itself has. -/
theorem pendingImports
    {fragment lightFragment : Generation} {imports fewer : List PackageImport}
    (thins : Thins PackageImport.isOptional imports fewer)
    (suits : bound.Suits imports) :
    Recovers (Thins PackageImport.isOptional)
      (bound.pendingImports fragment imports)
      (light.pendingImports lightFragment fewer) := by
  induction thins with
  | nil => exact .ok .nil
  | @keep imports fewer requirement _ inductionHypothesis =>
      have later := inductionHypothesis suits.tail
      rw [BoundModule.pendingImports, BoundModule.pendingImports,
        Draft.Lightens.find?_wirings both]
      cases bound.wirings.find? requirement.package with
      | none =>
          exact later.bind fun _ _ _ _ thinner =>
            .ok (.keep requirement thinner)
      | some wire =>
          dsimp only [Option.map_some]
          rw [Draft.Lightens.accepts_wire]
          split
          · exact later
          · exact .error _
  | @leave requirement imports fewer isOptional _ inductionHypothesis =>
      intro pending listed
      obtain ⟨all, done, thinner⟩ :=
        inductionHypothesis suits.tail pending listed
      rw [BoundModule.pendingImports]
      cases wired : bound.wirings.find? requirement.package with
      | none =>
          simp only [done]
          exact ⟨_, rfl, .leave isOptional thinner⟩
      | some wire =>
          have accepted :=
            suits requirement List.mem_cons_self isOptional wire wired
          dsimp only
          rw [if_pos accepted]
          exact ⟨all, done, thinner⟩

theorem pendingRequires
    (thinning : revision.IsThinning) (fragment : Generation) :
    Thins Require.isOptional (bound.pendingRequires fragment)
      (light.pendingRequires (revision fragment)) := by
  unfold BoundModule.pendingRequires
  have listed : ∀ require : Require,
      light.required.any (·.require.symbolicName = require.symbolicName) =
        bound.required.any
          (·.require.symbolicName = require.symbolicName) := by
    intro require
    rw [both.required, List.any_map]
    rfl
  simp only [listed]
  exact (thinning.requires fragment).filter _

/-- A module takes on the fragments that a lighter one does, if their optional
imports have no wires that do not suit them. -/
theorem attach
    {fragment : Generation} (thinning : revision.IsThinning)
    (suits : bound.Suits fragment.imports) :
    Recovers (BoundModule.Lightens revision) (bound.attach fragment)
      (light.attach (revision fragment)) := by
  have names : light.fragments.any
      (·.symbolicName = (revision fragment).symbolicName) =
        bound.fragments.any (·.symbolicName = fragment.symbolicName) := by
    rw [both.fragments, List.any_map]
    refine congrArg (List.any _) (funext fun other => ?_)
    simp only [Function.comp_apply, (revision.revises _).symbolicName]
  unfold BoundModule.attach
  rw [names]
  split
  · exact .error _
  · refine (both.pendingImports (thinning.imports fragment) suits).bind
      fun all fewer _ _ thinner => .ok ?_
    constructor
    · exact both.host
    · simp only [both.fragments, List.map_append, List.map_cons, List.map_nil]
    · exact both.imports.append thinner
    · exact both.requires.append (both.pendingRequires thinning fragment)
    · rw [List.map_append, ← both.offers, revision.map_offer_offers,
        (revision.revises fragment).offers]
    · exact both.wirings
    · exact both.required

theorem addProvision
    (require : Require) (provider : Generation) (visible : List Wire) :
    (bound.addProvision ⟨require, provider⟩ visible).Lightens revision
      (light.addProvision ⟨require, revision provider⟩
        (visible.map revision.wire)) := by
  refine ⟨both.host, both.fragments, both.imports, both.requires, ?_,
    both.wirings, ?_⟩
  · unfold BoundModule.addProvision
    dsimp only
    rw [both.offers]
    split
    · exact (revision.map_offer_reexport bound.offers visible).symm
    · rfl
  · unfold BoundModule.addProvision
    dsimp only
    rw [both.required, List.map_append]
    rfl

end Lightens

end BoundModule

namespace Draft.Lightens

variable {revision : Revision} {draft other : Draft}
  (lightens : draft.Lightens revision other)

include lightens

theorem put
    {candidate light : Candidate} (both : candidate.Lightens revision light) :
    (draft.put candidate).Lightens revision (other.put light) :=
  Matches.put lightens revision.carries_lightens both

/-- A candidate may change as long as the lighter one is lighter still. -/
theorem put_left
    {candidate light : Candidate}
    (found : other.candidate? candidate.id = some light)
    (both : candidate.Lightens revision light) :
    (draft.put candidate).Lightens revision other := by
  refine { lightens with candidates := fun id => ?_ }
  rw [candidate?_put]
  split
  · rename_i same
    rw [← same, found]
    exact .some both
  · exact lightens.candidates id

/-- A candidate can be enlisted in both drafts or in none. -/
theorem enlist (thinning : revision.IsThinning) (id : GenerationId) :
    Outcomes (Lightens revision) (draft.enlist id) (other.enlist id) := by
  unfold Draft.enlist
  rcases lightens.cases id with
    ⟨missing, otherMissing⟩ | ⟨candidate, light, found, hit, both⟩
  · rw [missing, otherMissing]
    exact .ok lightens
  · rw [found, hit]
    cases both with
    | resolved _ => exact .ok lightens
    | bound _ => exact .ok lightens
    | unresolved installed =>
        refine (lightens.registerSingleton installed).bind
          fun named otherNamed kept => ?_
        have fresh := Lightens.put kept
          (.bound (BoundModule.lightens_of thinning installed))
        have used := fresh.use id
        exact .ok { used with queue := congrArg (· ++ [id]) used.queue }

/-- A resolved candidate takes part in both drafts. -/
theorem useUnused (id : GenerationId) :
    Lightens revision
      (if draft.unused.contains id then draft.use id else draft)
      (if other.unused.contains id then other.use id else other) := by
  rw [lightens.unused]
  split
  · exact lightens.use id
  · exact lightens

/-- A candidate can be engaged in both drafts or in none. -/
theorem engage (thinning : revision.IsThinning) (id : GenerationId) :
    Outcomes (Lightens revision) (draft.engage id) (other.engage id) := by
  unfold Draft.engage
  rcases lightens.cases id with
    ⟨missing, otherMissing⟩ | ⟨candidate, light, found, hit, both⟩
  · rw [missing, otherMissing]
    exact .ok lightens
  · rw [found, hit]
    cases both with
    | resolved _ => exact .ok (lightens.useUnused id)
    | bound _ => exact .ok lightens
    | unresolved _ => exact lightens.enlist thinning id

theorem completeResolving :
    draft.completeResolving.Lightens revision other.completeResolving := by
  unfold Draft.completeResolving
  rw [lightens.resolving]
  cases draft.resolving with
  | none => exact lightens
  | some id =>
      refine { lightens with resolving := rfl, settled := ?_ }
      dsimp only
      unfold Draft.bound? isSettled
      rw [lightens.settled]
      rcases lightens.cases id with
        ⟨missing, otherMissing⟩ | ⟨candidate, light, found, hit, both⟩
      · rw [missing, otherMissing]
      · rw [found, hit]
        cases both <;> rfl

theorem startNext?
    {next : Draft} (started : other.startNext? = some next) :
    ∃ later, draft.startNext? = some later ∧
      later.Lightens revision next := by
  unfold Draft.startNext? at started ⊢
  rw [lightens.queue] at started
  split at started
  · cases started
  · cases started
    exact ⟨_, rfl, { lightens with resolving := rfl, queue := rfl }⟩

/-! ## Fragments -/

theorem claim (fragment host : GenerationId) :
    (draft.claim fragment host).Lightens revision
      (other.claim fragment host) :=
  { lightens with
    unused := congrArg (·.erase fragment) lightens.unused
    attached := congrArg (·.insert fragment host) lightens.attached }

theorem openHost
    {bound light : BoundModule} (both : bound.Lightens revision light)
    (id : GenerationId) :
    (draft.openHost bound id).Lightens revision (other.openHost light id) :=
  { (lightens.put (.bound both)).use id with resolving := rfl }

omit lightens in
theorem checkAttachment_eq
    {candidate light : Candidate} (both : candidate.Lightens revision light)
    (fragment : GenerationId) :
    checkAttachment fragment light = checkAttachment fragment candidate := by
  have policy := (revision.revises candidate.generation).fragmentAttachment
  rw [← both.generation] at policy
  unfold checkAttachment
  rw [policy, both.id]
  cases candidate.generation.manifest.fragmentAttachment <;>
    cases both <;> rfl

omit lightens in
theorem recovers_checkAttachment
    {candidate light : Candidate} (both : candidate.Lightens revision light)
    (fragment : GenerationId) :
    Recovers (fun _ _ => True) (checkAttachment fragment candidate)
      (checkAttachment fragment light) := by
  rw [checkAttachment_eq both]
  exact fun _ done => ⟨_, done, trivial⟩

/-- A host without wires takes on the fragments that a lighter one does. -/
theorem attachAll
    {candidate lightCandidate : Candidate} {fragments : List GenerationId}
    {bound light : BoundModule} (thinning : revision.IsThinning)
    (hosts : candidate.Lightens revision lightCandidate)
    (both : bound.Lightens revision light)
    (unwired : ∀ package, bound.wirings.find? package = none) :
    Recovers (fun result after => result.1.Lightens revision after.1 ∧
        result.2.Lightens revision after.2)
      (attachAll candidate fragments draft bound)
      (attachAll lightCandidate fragments other light) := by
  induction fragments generalizing draft other bound light with
  | nil => exact .ok ⟨lightens, both⟩
  | cons fragment rest inductionHypothesis =>
      rw [Draft.attachAll, Draft.attachAll, lightens.generation?_eq]
      cases draft.generation? fragment with
      | none => exact inductionHypothesis lightens both unwired
      | some generation =>
          refine (recovers_checkAttachment hosts fragment).bind
            fun _ _ _ _ _ => ?_
          refine (both.attach thinning
            (BoundModule.suits_of_unwired unwired _)).bind
              fun next nextLight attached _ thinner => ?_
          obtain ⟨_, _, rfl⟩ := BoundModule.exists_of_attach attached
          rw [hosts.id]
          exact inductionHypothesis (lightens.claim fragment candidate.id)
            thinner unwired

/-- Fragments that are bound together with a lighter host without wires can be bound
with the host. -/
theorem bindFragments
    {id : GenerationId} {host : BoundModule} (thinning : revision.IsThinning)
    (found : other.candidate? id = some (.bound host))
    (unwired : ∀ package, host.wirings.find? package = none)
    (fragments : List GenerationId) :
    Recovers (Lightens revision) (draft.bindFragments id fragments)
      (other.bindFragments id fragments) := by
  obtain ⟨bound, here, both⟩ := lightens.exists_bound found
  have alsoUnwired : ∀ package, bound.wirings.find? package = none := by
    intro package
    have none := find?_wirings both package
    rw [unwired] at none
    exact Option.map_eq_none_iff.1 none.symm
  unfold Draft.bindFragments
  rw [found, here]
  exact (lightens.attachAll thinning (.bound both) both alsoUnwired).bind
    fun _ _ _ _ kept => .ok (Lightens.put kept.1 (.bound kept.2))

/-- A fragment can attach to a host that is not bound and suits it, if a lighter one
can. -/
theorem attachFragment
    {id host : GenerationId} {fragment : Generation}
    (thinning : revision.IsThinning)
    (known : draft.generation? id = some fragment)
    (untouched : other.IsUntouched)
    (suits : ∀ wired, draft.candidate? host = some (.resolved wired) →
      (BoundModule.reopen wired).Suits fragment.imports) :
    Recovers (Lightens revision) (draft.attachFragment id host)
      (other.attachFragment id host) := by
  unfold Draft.attachFragment
  rw [lightens.generation?_eq, known]
  rcases lightens.cases host with
    ⟨missing, otherMissing⟩ | ⟨candidate, light, found, hit, both⟩
  · rw [missing, otherMissing]
    exact .ok lightens
  · rw [found, hit]
    refine (recovers_checkAttachment both id).bind fun _ _ _ _ _ => ?_
    cases both with
    | bound _ => exact absurd hit (untouched _ _)
    | resolved wired =>
        have reopened := BoundModule.lightens_reopen revision wired
        exact (reopened.attach thinning (suits wired found)).bind
          fun _ _ _ _ thinner =>
            .ok (Lightens.claim (lightens.openHost thinner host) id host)
    | unresolved installed =>
        have fresh := BoundModule.lightens_of thinning installed
        refine (lightens.registerSingleton installed).recovers.bind
          fun _ _ _ _ kept => ?_
        exact (fresh.attach thinning
          (BoundModule.suits_of_unwired (fun _ => rfl) _)).bind
            fun _ _ _ _ thinner =>
              .ok (Lightens.claim (Lightens.openHost kept thinner host) id host)

end Draft.Lightens

end ModuleWiring
