import ModuleWiring.Proofs.Reachability

/-!
# Sessions

Whoever takes nothing back installs and adds generations, asks for answers and
applies each of them as a whole, all within one framework.
-/

namespace ModuleWiring

namespace World

/-- A generation has been installed. -/
def installed (world : World) (id : GenerationId) (manifest : Manifest) :
    World :=
  { world with
    store := (world.store.install id manifest).2
    made := world.made ++ [(world.store.install id manifest).1] }

/-- An answer has been given and applied as a whole. -/
def answered (world : World) (answer : List Solution) : World :=
  { world with
    answers := world.answers ++ answer
    store := world.store.applyAll answer }

variable {world : World} {framework : Framework} {answer : List Solution}

theorem Reachable.answered
    (reachable : { world with
      answers := world.answers ++ answer }.Reachable) :
    (world.answered answer).Reachable :=
  reachable.applyAll (List.subset_append_right _ _)

/-- The worlds of who installs and adds generations, resolves targets, asks for
more packages on behalf of anyone, and applies each answer as a whole, all within
one framework. -/
inductive Session (framework : Framework) : World → Prop where
  | start (policy : Policy) : Session framework (ofModules policy framework [])
  | install {world : World} (id : GenerationId) (manifest : Manifest) :
      Session framework world →
      Session framework (world.installed id manifest)
  | add {world : World} {generation : Generation} {resolver : Resolver} :
      Session framework world → generation ∈ world.made →
      world.resolver.add generation = .ok resolver →
      Session framework { world with resolver := resolver }
  | resolve {world : World} {target : Generation} {answer : List Solution} :
      Session framework world → target ∈ world.made →
      world.resolver.resolve world.store target = .ok answer →
      Session framework (world.answered answer)
  | resolveDynamic {world : World} {target : Generation} {wanted : Import}
      {answer : List Solution} :
      Session framework world → target ∈ world.made →
      world.resolver.resolveDynamic world.store target wanted = .ok answer →
      Session framework (world.answered answer)

namespace Session

theorem reachable (session : world.Session framework) : world.Reachable := by
  induction session with
  | start policy =>
      exact reachable_ofModules policy framework [] List.nodup_nil
  | install id manifest _ inductionHypothesis =>
      exact inductionHypothesis.step (.install _ id manifest)
  | add _ made added inductionHypothesis =>
      exact inductionHypothesis.step (.add made added)
  | resolve _ made solved inductionHypothesis =>
      exact (inductionHypothesis.step (.resolve made solved)).answered
  | resolveDynamic _ made solved inductionHypothesis =>
      exact (inductionHypothesis.step (.resolveDynamic made solved)).answered

theorem framework_eq (session : world.Session framework) :
    world.resolver.framework = some framework := by
  induction session with
  | start policy => rfl
  | install _ _ _ inductionHypothesis => exact inductionHypothesis
  | add _ _ added inductionHypothesis =>
      rw [(Resolver.eq_of_add added).2]
      exact inductionHypothesis
  | resolve _ _ _ inductionHypothesis => exact inductionHypothesis
  | resolveDynamic _ _ _ inductionHypothesis => exact inductionHypothesis

/-- A module can be installed and added under a new identity. -/
theorem installing
    {module : GenerationId × Manifest} (session : world.Session framework)
    (started : world.resolver.framework.isSome = true)
    (new : ∀ generation ∈ world.resolver.tracked,
      generation.id ≠ module.1) :
    (world.installing module).Session framework :=
  (session.install module.1 module.2).add
    (List.mem_append_right _ List.mem_cons_self) (add_installed started new)

end Session

end World

namespace Sample

theorem session_world (modules : List Manifest) :
    (world modules).Session ⟨"system.bundle", BootDelegation.none⟩ :=
  @World.ofModules_induction (World.Session _) _ _ _ (nodup_ids modules)
    (.start _) fun _ _ session => session.installing

end Sample

end ModuleWiring
