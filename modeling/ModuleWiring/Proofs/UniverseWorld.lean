import ModuleWiring.CommandLine.Resolve
import ModuleWiring.Proofs.Hosting
import ModuleWiring.Proofs.Newcomer

/-!
# The world of a universe

The generations of a universe are installed one after the other, and then a
resolver tracks them all.  What comes out is the world of a session that has just
begun.
-/

namespace ModuleWiring

/-- Generations of new and distinct identities can be added in order. -/
theorem World.Session.exists_addAll
    {world : World} {framework : Framework} {generations : List Generation}
    (session : world.Session framework) (made : generations ⊆ world.made)
    (distinct :
      ((world.resolver.tracked ++ generations).map Generation.id).Nodup) :
    ∃ resolver,
      generations.foldlM Resolver.add world.resolver = .ok resolver ∧
        { world with resolver := resolver }.Session framework := by
  induction generations generalizing world with
  | nil => exact ⟨world.resolver, rfl, session⟩
  | cons first rest inductionHypothesis =>
      have new : ∀ other ∈ world.resolver.tracked, other.id ≠ first.id := by
        intro other member
        rw [List.map_append, List.nodup_append] at distinct
        exact distinct.2.2 _ (List.mem_map_of_mem member) _
          (List.mem_map_of_mem List.mem_cons_self)
      obtain ⟨larger, added⟩ := Resolver.exists_add
        (Option.isSome_iff_exists.2 ⟨framework, session.framework_eq⟩) new
      rw [List.foldlM_cons, added]
      refine inductionHypothesis
        (session.add (made List.mem_cons_self) added)
        (List.subset_of_cons_subset made) ?_
      obtain ⟨_, rfl⟩ := Resolver.eq_of_add added
      rw [List.append_assoc]
      exact distinct

namespace Universe

/-- The world in which the generations of a universe are installed. -/
def world (listed : Universe) (resolver : Resolver) : World :=
  ⟨resolver, listed.store, listed.generations, []⟩

/-- The generations of a universe are only installed, and no two of them bear one
identity. -/
structure IsInstalled (listed : Universe) : Prop where
  distinct : (listed.generations.map Generation.id).Nodup
  recorded : ∀ generation ∈ listed.generations,
    listed.store.records.find? generation.serial = some ⟨.installed, none⟩
  session : ∀ policy framework, (listed.world
    { Resolver.create policy with framework := some framework }).Session
      framework

variable {listed next : Universe} {entry : BundleEntry} {text : String}

theorem eq_of_install
    (done : listed.install entry = .ok next) :
    (∀ generation ∈ listed.generations, generation.id ≠ entry.id) ∧
      ∃ manifest, next =
        ⟨(listed.store.install entry.id manifest).2, listed.generations ++
          [(listed.store.install entry.id manifest).1]⟩ := by
  unfold install at done
  split at done
  · cases done
  · rename_i unknown
    split at done
    · cases done
    · rename_i manifest _
      cases done
      exact ⟨by simpa using unknown, manifest, rfl⟩

theorem isInstalled_empty : empty.IsInstalled :=
  ⟨List.nodup_nil, fun _ member => (by cases member),
    fun policy _ => .start policy⟩

theorem IsInstalled.install
    (installed : listed.IsInstalled)
    (done : listed.install entry = .ok next) :
    next.IsInstalled := by
  obtain ⟨new, manifest, rfl⟩ := eq_of_install done
  refine ⟨?_, ?_, fun policy framework =>
    (installed.session policy framework).install entry.id manifest⟩
  · rw [List.map_append, List.nodup_append]
    refine ⟨installed.distinct, List.nodup_singleton _, ?_⟩
    rintro first member last lastMember rfl
    obtain ⟨other, listedOther, same⟩ := List.mem_map.1 member
    exact new other listedOther (same.trans (List.mem_singleton.1 lastMember))
  · intro generation member
    change (listed.store.records.insert listed.store.nextSerial _).find?
      generation.serial = _
    rw [Table.find?_insert]
    rcases List.mem_append.1 member with old | isNew
    · have consistent := (installed.session ⟨false⟩
        (Framework.ofSettings .standard)).reachable.isConsistent
      have older : generation.serial < listed.store.nextSerial :=
        consistent.below generation old
      rw [if_neg (Nat.ne_of_lt older).symm]
      exact installed.recorded generation old
    · rw [List.mem_singleton.1 isNew]
      exact if_pos rfl

/-- What has been read as a universe is installed. -/
theorem isInstalled_of_parse
    (valid : parse text = .ok listed) : listed.IsInstalled := by
  unfold parse at valid
  split at valid
  · cases valid
  · exact holds_of_foldlM IsInstalled isInstalled_empty
      (fun _ installed done => installed.install done) valid

/-- A resolver can be started that tracks the universe. -/
theorem IsInstalled.exists_resolver
    (installed : listed.IsInstalled) (settings : Settings) :
    ∃ resolver, listed.resolver settings = .ok resolver ∧
      (listed.world resolver).Session (Framework.ofSettings settings) := by
  obtain ⟨resolver, added, session⟩ := (installed.session
    ⟨settings.preferLowest⟩ (Framework.ofSettings settings)).exists_addAll
      (List.Subset.refl listed.generations) installed.distinct
  exact ⟨resolver, added, session⟩

/-- Targets are generations of the universe. -/
theorem targets_subset
    {selectors : List Selector} {chosen : List Generation}
    (selected : listed.targets selectors = .ok chosen) :
    chosen ⊆ listed.generations := by
  have added : ∀ before more : List Generation,
      before ⊆ listed.generations → more ⊆ listed.generations →
        addNew before more ⊆ listed.generations := by
    intro before more
    unfold addNew
    induction more generalizing before with
    | nil => exact fun old _ => old
    | cons first rest inductionHypothesis =>
        intro old new
        refine inductionHypothesis _ ?_ (List.subset_of_cons_subset new)
        dsimp only
        split
        · exact old
        · exact List.append_subset.2
            ⟨old, by simpa using new List.mem_cons_self⟩
  unfold Universe.targets at selected
  split at selected
  · cases selected
    exact List.Subset.refl _
  · refine holds_of_foldlM (· ⊆ listed.generations) (List.nil_subset _) ?_
      selected
    intro before after selector _ old done
    unfold addSelected at done
    split at done
    · cases done
    · cases done
      exact added before _ old (List.filter_subset_self _)

end Universe

end ModuleWiring
