import Mathlib.Data.List.Nodup
import ModuleWiring.Proofs.Reachability

/-!
# The names of the fragments of one host

A host takes on no two fragments of one symbolic name, neither in one search nor
over several of them.
-/

namespace ModuleWiring

/-- No two of the generations bear one symbolic name. -/
def DistinctNames (generations : List Generation) : Prop :=
  (generations.map Generation.symbolicName).Nodup

theorem distinctNames_nil : DistinctNames [] :=
  List.nodup_nil

namespace DistinctNames

variable {generations : List Generation}

theorem nodup (distinct : DistinctNames generations) :
    generations.Nodup :=
  List.Nodup.of_map _ distinct

theorem sublist {rest : List Generation}
    (distinct : DistinctNames generations)
    (kept : rest.Sublist generations) : DistinctNames rest :=
  List.Nodup.sublist (kept.map Generation.symbolicName) distinct

theorem append {fragment : Generation}
    (distinct : DistinctNames generations)
    (other : ∀ generation ∈ generations,
      generation.symbolicName ≠ fragment.symbolicName) :
    DistinctNames (generations ++ [fragment]) := by
  unfold DistinctNames
  rw [List.map_append, List.nodup_append]
  refine ⟨distinct, List.pairwise_singleton _ _, ?_⟩
  intro first member last lastMember
  obtain ⟨generation, listed, rfl⟩ := List.mem_map.1 member
  have isLast : last = fragment.symbolicName := by simpa using lastMember
  rw [isLast]
  exact other generation listed

end DistinctNames

namespace BoundModule

/-- A host refuses a fragment of a name that one of its fragments bears. -/
theorem symbolicName_ne_of_attach
    {bound result : BoundModule} {fragment : Generation}
    (done : bound.attach fragment = .ok result) :
    ∀ other ∈ bound.fragments,
      other.symbolicName ≠ fragment.symbolicName := by
  intro other member same
  have refused : bound.fragments.any
      (·.symbolicName = fragment.symbolicName) = true :=
    List.any_eq_true.2 ⟨other, member, by simpa using same⟩
  unfold attach at done
  rw [if_pos refused] at done
  cases done

theorem TakesOn.distinctNames
    {bound result : BoundModule} {joined : List Generation}
    (taken : bound.TakesOn joined result)
    (distinct : DistinctNames bound.fragments) :
    DistinctNames result.fragments := by
  induction taken with
  | nil => exact distinct
  | cons attached _ inductionHypothesis =>
      have other := symbolicName_ne_of_attach attached
      obtain ⟨imports, _, rfl⟩ := exists_of_attach attached
      exact inductionHypothesis (distinct.append other)

end BoundModule

theorem Candidate.Opens.distinctNames
    {candidate : Candidate} {base : BoundModule}
    (opened : candidate.Opens base)
    (distinct : DistinctNames candidate.fragments) :
    DistinctNames base.fragments := by
  cases opened with
  | reopen wired => exact distinct
  | fresh installed => exact distinctNames_nil
  | queued installed => exact distinctNames_nil

namespace Resolver

variable {resolver : Resolver} {store : Store} {target : Generation}
  {framework : Framework} {start : Node} {final : Draft}

/-- A run that starts with fragments of distinct names ends with such. -/
theorem Run.distinctNames
    (run : resolver.Run store target framework start final)
    (stored : ∀ generation,
      generation ∈ resolver.tracked ∨ generation = target →
        DistinctNames (store.fragments generation))
    {solution : Solution} (member : solution ∈ final.solutions) :
    DistinctNames solution.fragments := by
  have initial : Search.Everywhere
      (fun candidate => DistinctNames candidate.fragments) start := by
    intro id candidate found
    obtain ⟨origin, given⟩ := run.begins.given found
    have named := stored candidate.generation
      (origin.imp_left fun listed => (List.mem_filter.1 listed).1)
    cases given with
    | unresolved _ => exact distinctNames_nil
    | resolved _ _ => exact named
    | target _ _ => exact distinctNames_nil
    | reopened _ _ => exact named
  have everywhere : Search.Everywhere
      (fun candidate => DistinctNames candidate.fragments)
        ⟨.finished, final⟩ := by
    refine Search.everywhere_of_line run.line run.scheduled initial ?_
    intro position result earlier candidate _ evolution distinct
    cases evolution with
    | keep => exact distinct
    | opening opened taken _ _ _ =>
        exact taken.distinctNames (opened.distinctNames distinct)
    | @deciding bound new step =>
        change DistinctNames new.fragments
        rw [step.fragments]
        exact distinct
  obtain ⟨bound, found, rfl⟩ := Draft.candidate?_of_mem_solutions member
  exact everywhere found

end Resolver

theorem Solution.fragments_sublist_of_restrict
    {solution left : Solution} {present : Generation → Bool}
    (kept : solution.restrict present = some left) :
    left.fragments.Sublist solution.fragments := by
  unfold restrict at kept
  split at kept
  · cases kept
    exact List.filter_sublist
  · cases kept

namespace World

variable {world : World}

/-- The fragments that an installation has been wired with are some of those that
an answer has listed. -/
theorem IsConsistent.distinctNames_fragments
    (consistent : world.IsConsistent)
    (answered : ∀ solution ∈ world.answers,
      DistinctNames solution.fragments)
    {generation : Generation} (made : generation ∈ world.made) :
    DistinctNames (world.store.fragments generation) := by
  unfold Store.fragments
  split
  · exact distinctNames_nil
  · rename_i left wired
    obtain ⟨solution, member, _, kept⟩ :=
      consistent.exists_of_wiring? made wired
    exact (answered solution member).sublist
      (Solution.fragments_sublist_of_restrict kept)

/-- No answered solution lists two fragments of one name. -/
theorem Reachable.distinctNames
    (reachable : world.Reachable) :
    ∀ solution ∈ world.answers, DistinctNames solution.fragments := by
  refine reachable.forall_answers ?_
  intro world target framework start final consistent answered made run
  have stored : ∀ generation,
      generation ∈ world.resolver.tracked ∨ generation = target →
        DistinctNames (world.store.fragments generation) := by
    intro generation origin
    refine consistent.distinctNames_fragments answered ?_
    rcases origin with tracked | rfl
    · exact consistent.tracked tracked
    · exact made
  exact fun solution member => run.distinctNames stored member

end World

end ModuleWiring
