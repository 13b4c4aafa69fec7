import ModuleWiring.Proofs.Decision

/-!
# Hosts that take on fragments

A host takes on fragments when a search begins to decide it.  It keeps the wires
and provisions that it has and adds what the fragments need and offer.
-/

namespace ModuleWiring

namespace BoundModule

/-- A host takes on fragments, one after the other. -/
inductive TakesOn : BoundModule → List Generation → BoundModule → Prop where
  | nil (bound : BoundModule) : TakesOn bound [] bound
  | cons {bound middle result : BoundModule} {fragment : Generation}
      {rest : List Generation} :
      bound.attach fragment = .ok middle →
      TakesOn middle rest result →
      TakesOn bound (fragment :: rest) result

theorem exists_of_attach
    {bound result : BoundModule} {fragment : Generation}
    (done : bound.attach fragment = .ok result) :
    ∃ imports,
      bound.pendingImports fragment fragment.imports = .ok imports ∧
        result = { bound with
          fragments := bound.fragments ++ [fragment]
          imports := bound.imports ++ imports
          requires := bound.requires ++ bound.pendingRequires fragment
          offers := bound.offers ++ fragment.offers } := by
  unfold attach at done
  simp only [bind, Except.bind, pure, Except.pure] at done
  split at done
  · cases done
  · split at done
    · cases done
    · rename_i imports listed
      cases done
      exact ⟨imports, listed, rfl⟩

/-- A host without wires has all imports of a fragment to decide. -/
theorem pendingImports_eq
    {bound : BoundModule} {fragment : Generation}
    (unwired : ∀ package, bound.wirings.find? package = none)
    (requirements : List PackageImport) :
    bound.pendingImports fragment requirements = .ok requirements := by
  induction requirements with
  | nil => rfl
  | cons requirement rest inductionHypothesis =>
      rw [pendingImports, unwired, inductionHypothesis]
      rfl

namespace TakesOn

variable {bound result : BoundModule} {joined : List Generation}

theorem host (taken : bound.TakesOn joined result) :
    result.host = bound.host := by
  induction taken with
  | nil => rfl
  | cons attached _ inductionHypothesis =>
      obtain ⟨imports, _, rfl⟩ := exists_of_attach attached
      exact inductionHypothesis

theorem wirings (taken : bound.TakesOn joined result) :
    result.wirings = bound.wirings := by
  induction taken with
  | nil => rfl
  | cons attached _ inductionHypothesis =>
      obtain ⟨imports, _, rfl⟩ := exists_of_attach attached
      exact inductionHypothesis

theorem required (taken : bound.TakesOn joined result) :
    result.required = bound.required := by
  induction taken with
  | nil => rfl
  | cons attached _ inductionHypothesis =>
      obtain ⟨imports, _, rfl⟩ := exists_of_attach attached
      exact inductionHypothesis

theorem fragments (taken : bound.TakesOn joined result) :
    result.fragments = bound.fragments ++ joined := by
  induction taken with
  | nil => simp
  | cons attached _ inductionHypothesis =>
      obtain ⟨imports, _, rfl⟩ := exists_of_attach attached
      rw [inductionHypothesis]
      simp

theorem offers (taken : bound.TakesOn joined result) :
    result.offers = bound.offers ++ joined.flatMap Generation.offers := by
  induction taken with
  | nil => simp
  | cons attached _ inductionHypothesis =>
      obtain ⟨imports, _, rfl⟩ := exists_of_attach attached
      rw [inductionHypothesis]
      simp

/-- A host without wires takes over all imports of its fragments. -/
theorem imports_eq
    (taken : bound.TakesOn joined result)
    (unwired : ∀ package, bound.wirings.find? package = none) :
    result.imports =
      bound.imports ++ joined.flatMap Generation.imports := by
  induction taken with
  | nil => simp
  | cons attached _ inductionHypothesis =>
      obtain ⟨imports, listed, rfl⟩ := exists_of_attach attached
      rw [pendingImports_eq unwired] at listed
      cases listed
      rw [inductionHypothesis unwired]
      simp

theorem mem_requires
    (taken : bound.TakesOn joined result) {require : Require}
    (member : require ∈ result.requires) :
    require ∈ bound.requires ∨
      ∃ fragment ∈ joined, require ∈ fragment.manifest.requires := by
  induction taken with
  | nil => exact .inl member
  | @cons bound _ _ fragment _ attached _ inductionHypothesis =>
      obtain ⟨imports, _, rfl⟩ := exists_of_attach attached
      rcases inductionHypothesis member with here | later
      · rcases List.mem_append.1 here with own | added
        · exact .inl own
        · exact .inr ⟨fragment, List.mem_cons_self,
            (List.mem_filter.1 added).1⟩
      · obtain ⟨other, listed, needed⟩ := later
        exact .inr ⟨other, List.mem_cons_of_mem _ listed, needed⟩

/-- A host takes over the requires of its fragments that it has given no provider
by name. -/
theorem requires_eq_append (taken : bound.TakesOn joined result) :
    result.requires =
      bound.requires ++ joined.flatMap bound.pendingRequires := by
  induction taken with
  | nil => simp
  | @cons bound _ _ fragment rest attached _ inductionHypothesis =>
      obtain ⟨imports, _, rfl⟩ := exists_of_attach attached
      rw [inductionHypothesis, List.flatMap_cons, ← List.append_assoc]
      rfl

/-- A host that was given no provider has all requires of its fragments to
decide. -/
theorem requires_eq
    (taken : bound.TakesOn joined result) (alone : bound.required = []) :
    result.requires =
      bound.requires ++ joined.flatMap (·.manifest.requires) := by
  have all : bound.pendingRequires = (·.manifest.requires) := by
    funext fragment
    refine List.filter_eq_self.2 fun require _ => ?_
    simp [alone]
  rw [taken.requires_eq_append, all]

end TakesOn

end BoundModule

/-- How a candidate is opened when a search begins to decide it. -/
inductive Candidate.Opens : Candidate → BoundModule → Prop where
  | reopen (wired : ResolvedModule) :
      Opens (.resolved wired) (.reopen wired)
  | fresh (installed : Generation) :
      Opens (.unresolved installed) (.of installed)
  | queued (installed : Generation) :
      Opens (.bound (.of installed)) (.of installed)

theorem Candidate.Opens.host
    {candidate : Candidate} {base : BoundModule}
    (opened : candidate.Opens base) :
    base.host = candidate.generation := by
  cases opened <;> rfl

namespace Draft

theorem id_of_generation?
    {draft : Draft} {id : GenerationId} {generation : Generation}
    (known : draft.generation? id = some generation) :
    generation.id = id := by
  obtain ⟨candidate, found, rfl⟩ := Option.map_eq_some_iff.1 known
  exact id_of_candidate? found

/-- Note of several fragments whose they are. -/
def claimAll (draft : Draft) (host : GenerationId)
    (fragments : List Generation) : Draft :=
  fragments.foldl (fun draft fragment => draft.claim fragment.id host) draft

theorem claimAll_eq
    (draft : Draft) (host : GenerationId) (fragments : List Generation) :
    draft.claimAll host fragments = { draft with
      unused := (draft.claimAll host fragments).unused
      attached := (draft.claimAll host fragments).attached } := by
  induction fragments generalizing draft with
  | nil => rfl
  | cons first rest inductionHypothesis =>
      exact inductionHypothesis (draft.claim first.id host)

/-- Attaching the listed fragments makes the host take them on and notes whose
they are. -/
theorem claimAll_of_attachAll
    {host : Candidate} {ids : List GenerationId} {draft result : Draft}
    {bound new : BoundModule}
    (done : attachAll host ids draft bound = .ok (result, new)) :
    bound.TakesOn (ids.filterMap draft.generation?) new ∧
      result = draft.claimAll host.id (ids.filterMap draft.generation?) := by
  induction ids generalizing draft bound with
  | nil =>
      cases done
      exact ⟨.nil _, rfl⟩
  | cons id rest inductionHypothesis =>
      rw [attachAll] at done
      split at done
      · rename_i unknown
        rw [List.filterMap_cons_none unknown]
        exact inductionHypothesis done
      · rename_i fragment known
        have same : fragment.id = id := id_of_generation? known
        simp only [bind, Except.bind] at done
        split at done
        · cases done
        · split at done
          · cases done
          · rename_i middle attached
            rw [List.filterMap_cons_some known]
            obtain ⟨taken, claimed⟩ := inductionHypothesis done
            refine ⟨.cons attached taken, ?_⟩
            rw [claimed, ← same]
            rfl

/-- A fresh host takes on fragments that are free, and nothing else changes. -/
structure Binds (draft result : Draft) (installed : Generation)
    (joined : List Generation) (new : BoundModule) : Prop where
  found : draft.candidate? installed.id = some (.bound (.of installed))
  taken : (BoundModule.of installed).TakesOn joined new
  free : ∀ fragment ∈ joined, draft.IsAvailable fragment
  same : result = (draft.claimAll installed.id joined).put (.bound new)

theorem Binds.annotated
    {draft result : Draft} {installed : Generation}
    {joined : List Generation} {new : BoundModule}
    (binds : draft.Binds result installed joined new) :
    result = { draft.put (.bound new) with
      unused := result.unused, attached := result.attached } := by
  rw [binds.same, claimAll_eq]
  rfl

/-- A fragment joins a host that is not bound yet.  The host is opened for it and
is in charge from then on. -/
structure Attaches (draft result : Draft) (fragment host : Generation)
    (candidate : Candidate) (base new : BoundModule) : Prop where
  found : draft.candidate? host.id = some candidate
  opened : candidate.Opens base
  taken : base.TakesOn [fragment] new
  same : result =
    { (draft.openHost new host.id).claim fragment.id host.id with
      singletons := result.singletons }

namespace Attaches

variable {draft result : Draft} {fragment host : Generation}
  {candidate : Candidate} {base new : BoundModule}

theorem host_eq
    (attaches : draft.Attaches result fragment host candidate base new) :
    new.host = candidate.generation :=
  attaches.taken.host.trans attaches.opened.host

theorem id_host
    (attaches : draft.Attaches result fragment host candidate base new) :
    new.host.id = host.id := by
  rw [attaches.host_eq]
  exact id_of_candidate? attaches.found

theorem candidate?_eq
    (attaches : draft.Attaches result fragment host candidate base new)
    (id : GenerationId) :
    result.candidate? id =
      if host.id = id then some (.bound new) else draft.candidate? id := by
  rw [attaches.same, ← attaches.id_host]
  exact candidate?_put draft (.bound new) id

theorem resolving
    (attaches : draft.Attaches result fragment host candidate base new) :
    result.resolving = some host.id := by
  rw [attaches.same]
  rfl

end Attaches

/-- Attaching a fragment opens a host that is not bound and makes it take the
fragment on. -/
theorem attaches_of_attachFragment
    {draft result : Draft} {fragment host : Generation}
    {candidate : Candidate}
    (known : draft.candidate? fragment.id = some (.unresolved fragment))
    (found : draft.candidate? host.id = some candidate)
    (notBound : ∀ bound, candidate ≠ .bound bound)
    (done : draft.attachFragment fragment.id host.id = .ok result) :
    ∃ base new, draft.Attaches result fragment host candidate base new := by
  simp only [attachFragment, generation?, known, found, Option.map_some,
    Candidate.generation, Except.bind, Bind.bind] at done
  split at done
  · cases done
  · cases candidate with
    | resolved wired =>
        cases attached : (BoundModule.reopen wired).attach fragment with
        | error conflict =>
            simp only [attached] at done
            cases done
        | ok new =>
            simp only [attached] at done
            cases done
            exact ⟨_, new, found, .reopen wired, .cons attached (.nil new),
              rfl⟩
    | bound binding => exact absurd rfl (notBound binding)
    | unresolved installed =>
        cases registered : draft.registerSingleton installed with
        | error conflict =>
            simp only [registered] at done
            cases done
        | ok named =>
            cases attached : (BoundModule.of installed).attach fragment with
            | error conflict =>
                simp only [registered, attached] at done
                cases done
            | ok new =>
                simp only [registered, attached] at done
                cases done
                refine ⟨_, new, found, .fresh installed,
                  .cons attached (.nil new), ?_⟩
                rw [registerSingleton_eq registered]
                rfl

end Draft

namespace Search

/-- To bind no fragments changes nothing. -/
theorem bind?_eq
    {draft : Draft} {id : GenerationId} {bound : BoundModule}
    (ids : List GenerationId)
    (found : draft.candidate? id = some (.bound bound)) :
    bind? draft id ids = (draft.bindFragments id ids).toOption := by
  unfold bind?
  cases ids with
  | nil =>
      simp only [Draft.bindFragments, found, Draft.attachAll, Bind.bind,
        Except.bind, pure, Except.pure, Draft.put_of_candidate? found]
      rfl
  | cons first rest => rfl

/-- Binding chosen fragments makes a fresh host take them on. -/
theorem binds_of_bindFragments
    {search : Search} {draft result : Draft} {installed : Generation}
    {ids : List GenerationId}
    (found : draft.candidate? installed.id = some (.bound (.of installed)))
    (chosen : ids.Sublist
      ((search.fragmentChoices draft installed).map Generation.id))
    (done : draft.bindFragments installed.id ids = .ok result) :
    ∃ joined new, draft.Binds result installed joined new := by
  simp only [Draft.bindFragments, found, Bind.bind, Except.bind] at done
  split at done
  · cases done
  · rename_i pair attached
    obtain ⟨middle, new⟩ := pair
    cases done
    obtain ⟨taken, claimed⟩ := Draft.claimAll_of_attachAll attached
    refine ⟨ids.filterMap draft.generation?, new, found, taken, ?_, ?_⟩
    · intro fragment member
      obtain ⟨id, listed, known⟩ := List.mem_filterMap.1 member
      obtain ⟨choice, offered, rfl⟩ := List.mem_map.1 (chosen.subset listed)
      have available := isAvailable_of_mem_fragmentChoices offered
      rw [Draft.generation?, available.found] at known
      cases known
      exact available
    · rw [claimed]
      rfl

end Search

end ModuleWiring
