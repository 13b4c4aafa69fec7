import ModuleWiring.Proofs.Inquiry
import ModuleWiring.Proofs.Session

/-!
# Fragments and the hosts they ask for

A solution should be about a bundle, with fragments that ask for that bundle.
All are, except for one kind: who asks for more packages on behalf of a fragment
gets a solution about the fragment.
-/

namespace ModuleWiring

namespace Framework

/-- A fragment asks for this host: by name or, where the host is the framework's
own module, by the alias for that.  Extensions of the framework go nowhere
else. -/
def Houses (framework : Framework) (host fragment : Generation) : Prop :=
  ∃ wanted, fragment.manifest.fragmentHost = some wanted ∧
    (wanted.host = host.symbolicName ∨
      wanted.host = systemBundleAlias ∧
        framework.isSystemBundle host = true) ∧
    wanted.range.includes host.version = true ∧
    (fragment.kind = .frameworkExtension →
      framework.isSystemBundle host = true)

variable {framework : Framework} {host fragment : Generation}

theorem isHostOf_iff :
    framework.isHostOf fragment host = true ↔
      host.isFragment = false ∧ framework.Houses host fragment := by
  unfold isHostOf Houses
  cases asks : fragment.manifest.fragmentHost with
  | none => simp
  | some wanted =>
      simp only [Bool.and_eq_true, Bool.or_eq_true, Bool.not_eq_true',
        decide_eq_true_eq, Option.some.injEq, exists_eq_left',
        or_iff_not_imp_left, ne_eq, Decidable.not_not]
      tauto

theorem Houses.isFragment (houses : framework.Houses host fragment) :
    fragment.isFragment = true := by
  obtain ⟨wanted, asks, _⟩ := houses
  unfold Generation.isFragment Generation.kind
  rw [asks]
  cases extension : wanted.extensionKind <;> simp [extension]

end Framework

/-- A solution for a bundle, with fragments that ask for it. -/
structure Solution.IsLawful (framework : Framework) (solution : Solution) :
    Prop where
  isBundle : solution.host.isFragment = false
  housed : ∀ fragment ∈ solution.fragments,
    fragment.isFragment = true ∧ framework.Houses solution.host fragment

open Search

namespace World

variable {world : World} {framework : Framework} {target : Generation}
  {start : Node} {final : Draft}

/-- The solutions about bundles that were answered until now are lawful. -/
def IsLawful (framework : Framework) (world : World) : Prop :=
  ∀ solution ∈ world.answers, solution.host.isFragment = false →
    solution.IsLawful framework

/-- The fragments that a bundle was resolved with ask for it. -/
theorem IsLawful.houses_of_carried
    (lawful : world.IsLawful framework) (consistent : world.IsConsistent)
    {host fragment : Generation} (made : host ∈ world.made)
    (isBundle : host.isFragment = false)
    (carried : fragment ∈ world.store.carried host) :
    framework.Houses host fragment := by
  obtain ⟨solution, answered, member, listed⟩ :=
    consistent.exists_of_carried made carried
  rcases List.mem_cons.1 member with rfl | joined
  · exact ((lawful solution answered isBundle).housed fragment listed).2
  · have isFragment :=
      (consistent.answers solution answered).fragments host joined
    rw [isBundle] at isFragment
    cases isFragment

/-- What is answered about a bundle is lawful if that was so before. -/
theorem Inquires.isLawful
    (inquires : world.Inquires target framework start final)
    (lawful : world.IsLawful framework) {solution : Solution}
    (answered : solution ∈ final.solutions)
    (isBundle : solution.host.isFragment = false) :
    solution.IsLawful framework where
  isBundle := isBundle
  housed := by
    intro fragment listed
    have made : solution.host ∈ world.made :=
      (inquires.run.isProper inquires.consistent.sound inquires.made
        (fun _ tracked => inquires.consistent.tracked tracked)
        answered).members _ List.mem_cons_self
    have houses : framework.Houses solution.host fragment := by
      rcases inquires.carried_or_admits answered listed with
        carried | admits
      · exact lawful.houses_of_carried inquires.consistent made isBundle
          carried
      · exact (Framework.isHostOf_iff.1 admits.hosted).2
    exact ⟨houses.isFragment, houses⟩

namespace Session

/-- A search of the session is one within its framework. -/
theorem inquires_eq
    {other : Framework} (session : world.Session framework)
    (inquires : world.Inquires target other start final) :
    other = framework :=
  Option.some.inj (inquires.run.started.symm.trans session.framework_eq)

/-- An answer that is applied leaves what has been answered lawful. -/
theorem isLawful_answered
    (session : world.Session framework) (lawful : world.IsLawful framework)
    (made : target ∈ world.made) {answer : List Solution}
    (answers : world.resolver.Answers world.store target answer) :
    (world.answered answer).IsLawful framework := by
  obtain ⟨other, start, final, rfl, inquires⟩ :=
    session.reachable.isConsistent.exists_inquires made answers
  obtain rfl := session.inquires_eq inquires
  intro solution member isBundle
  rcases List.mem_append.1 member with earlier | answered
  · exact lawful solution earlier isBundle
  · exact inquires.isLawful lawful answered isBundle

theorem isLawful (session : world.Session framework) :
    world.IsLawful framework := by
  induction session with
  | start policy => exact fun _ member => by cases member
  | install _ _ _ inductionHypothesis => exact inductionHypothesis
  | add _ _ _ inductionHypothesis => exact inductionHypothesis
  | resolve session made solved inductionHypothesis =>
      exact session.isLawful_answered inductionHypothesis made
        (.resolve solved)
  | resolveDynamic session made solved inductionHypothesis =>
      exact session.isLawful_answered inductionHypothesis made
        (.dynamic _ solved)

end Session

/-- All solutions for a target are lawful.  So are all for who asks for more
packages, unless it is a fragment: then there is a solution about the fragment,
and only the others are lawful. -/
theorem Session.lawful_unless_fragment_asks
    (session : world.Session framework) (made : target ∈ world.made)
    {answer : List Solution} :
    (world.resolver.resolve world.store target = .ok answer →
      ∀ solution ∈ answer, solution.IsLawful framework) ∧
    ∀ wanted,
      world.resolver.resolveDynamic world.store target wanted = .ok answer →
      target ∈ answer.map Solution.host ∧
        ∀ solution ∈ answer, solution.IsLawful framework ↔
          ¬ (solution.host = target ∧ target.isFragment = true) := by
  have consistent := session.reachable.isConsistent
  constructor
  · intro solved
    obtain ⟨other, start, final, rfl, _, hosts, inquires⟩ :=
      consistent.inquires_resolve made solved
    obtain rfl := session.inquires_eq inquires
    intro solution answered
    obtain ⟨bound, found, rfl⟩ := Draft.candidate?_of_mem_solutions answered
    have isHost := everywhere_of_line inquires.run.line
      inquires.run.scheduled hosts (fun _ => isHost_of_evolution) found
    exact inquires.isLawful session.isLawful answered isHost
  · intro wanted solved
    obtain ⟨other, start, final, rfl, _, ⟨bound, found, isTarget, _⟩,
      inquires⟩ := consistent.inquires_resolveDynamic made solved
    obtain rfl := session.inquires_eq inquires
    obtain ⟨own, answered, ownHost, _⟩ := inquires.exists_solution found
    refine ⟨isTarget ▸ ownHost ▸ List.mem_map_of_mem answered, ?_⟩
    intro solution answered
    constructor
    · rintro lawful ⟨host, isFragment⟩
      rw [← host, lawful.isBundle] at isFragment
      cases isFragment
    · intro other
      refine inquires.isLawful session.isLawful answered ?_
      rw [Bool.eq_false_iff]
      intro isFragment
      have host := inquires.host_eq_target answered isFragment
      exact other ⟨host, host ▸ isFragment⟩

end World

namespace Sample

/-- A bundle without any demands. -/
def plainHost : Manifest :=
  bundle "h" [] []

/-- A fragment of it. -/
def plainFragment : Manifest :=
  fragment "f" "h" [] []

/-- How the two are resolved. -/
def joinedWiring : Solution :=
  ⟨generation 0 plainHost, [generation 1 plainFragment], [], []⟩

/-- The world in which they are, and an exporter is not. -/
def joinedWorld : World :=
  (world [plainHost, plainFragment, exporter]).answered [joinedWiring]

/-- What comes out for a package that the fragment asks for. -/
def misdirected : Solution :=
  ⟨generation 1 plainFragment, [generation 1 plainFragment],
    [⟨"p", offer "p" 1, generation 2 exporter⟩], []⟩

end Sample

/-- A fragment that asks for a package becomes the module of a solution. -/
theorem World.fragment_as_module :
    Sample.joinedWorld.Session ⟨"system.bundle", BootDelegation.none⟩ ∧
      Sample.generation 1 Sample.plainFragment ∈ Sample.joinedWorld.made ∧
      Sample.joinedWorld.resolver.resolveDynamic Sample.joinedWorld.store
          (Sample.generation 1 Sample.plainFragment) (Sample.wish "p" 1) =
        .ok [Sample.misdirected,
          ⟨Sample.generation 2 Sample.exporter, [], [], []⟩] ∧
      ¬ Sample.misdirected.IsLawful
        ⟨"system.bundle", BootDelegation.none⟩ := by
  have resolved :
      (Sample.world [Sample.plainHost, Sample.plainFragment,
        Sample.exporter]).resolver.resolve
          (Sample.world [Sample.plainHost, Sample.plainFragment,
            Sample.exporter]).store
          (Sample.generation 0 Sample.plainHost) =
        .ok [Sample.joinedWiring] :=
    Search.eq_ok_of_toOption (by decide +kernel)
  have session : Sample.joinedWorld.Session
      ⟨"system.bundle", BootDelegation.none⟩ :=
    (Sample.session_world _).resolve (by decide +kernel) resolved
  have made : Sample.generation 1 Sample.plainFragment ∈
      Sample.joinedWorld.made := by decide +kernel
  have asked : Sample.joinedWorld.resolver.resolveDynamic
      Sample.joinedWorld.store (Sample.generation 1 Sample.plainFragment)
        (Sample.wish "p" 1) = .ok [Sample.misdirected,
          ⟨Sample.generation 2 Sample.exporter, [], [], []⟩] :=
    Search.eq_ok_of_toOption (by decide +kernel)
  refine ⟨session, made, asked, fun lawful => ?_⟩
  have answered := (session.lawful_unless_fragment_asks made).2 _ asked
  exact (answered.2 Sample.misdirected List.mem_cons_self).1 lawful
    ⟨rfl, by decide⟩

end ModuleWiring
