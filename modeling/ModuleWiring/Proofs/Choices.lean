import ModuleWiring.Search.Basic

/-!
# What the choices of a search promise

An export that may be chosen is offered by its exporter and accepted by the
import.  One that is consistent leaves one exporter for each package.
-/

namespace ModuleWiring

theorem PackageImport.mem_packages_of_accepts
    {requirement : PackageImport} {declared : Export} {exporter : Generation}
    (accepted : requirement.accepts declared exporter = true) :
    requirement.package ∈ declared.packages := by
  simp only [accepts, Bool.and_eq_true] at accepted
  simpa [Export.exportsPackage] using accepted.1.1.1.1

theorem Generation.mem_offers_of_mem_exports
    {generation : Generation} {declared : Export} {package : String}
    (listed : declared ∈ generation.manifest.exports)
    (exports : package ∈ declared.packages) :
    (⟨package, declared, none⟩ : Offer) ∈ generation.offers :=
  List.mem_flatMap.2 ⟨_, listed, List.mem_map.2 ⟨_, exports, rfl⟩⟩

namespace Draft

variable {draft : Draft} {wires : List Wire} {wire other : Wire}

/-- A wire of a candidate that takes part. -/
def InUse (draft : Draft) (wire : Wire) : Prop :=
  ∃ id candidate, draft.used.contains id = true ∧
    draft.candidate? id = some candidate ∧
    wire ∈ candidate.wirings.values

theorem agreesWith_of_agrees
    (agrees : draft.agrees wires = true)
    (known : wire ∈ wires ∨ draft.InUse wire) :
    agreesWith wires wire = true := by
  unfold Draft.agrees at agrees
  rw [Bool.and_eq_true, List.all_eq_true, List.all_eq_true] at agrees
  rcases known with member | ⟨id, candidate, used, found, member⟩
  · exact agrees.1 wire member
  · obtain ⟨listed, hit⟩ := Option.isSome_iff_exists.1 used
    have sameId : listed = id := Roster.key_of_find? hit
    have usedMember := agrees.2 listed (Roster.mem_of_find? hit)
    rw [sameId, found] at usedMember
    exact List.all_eq_true.1 usedMember wire member

/-- Wires that agree name one exporter for each package that occurs among
them. -/
theorem exporter_eq_of_agrees
    (agrees : draft.agrees wires = true)
    (member : wire ∈ wires)
    (known : other ∈ wires ∨ draft.InUse other)
    (samePackage : other.package = wire.package) :
    other.exporter.id = wire.exporter.id := by
  have wireAgrees := agreesWith_of_agrees agrees (.inl member)
  have otherAgrees := agreesWith_of_agrees agrees known
  unfold agreesWith at wireAgrees otherAgrees
  rw [samePackage] at otherAgrees
  cases found : wires.find? fun first => first.package = wire.package with
  | none =>
      have missed := List.find?_eq_none.1 found wire member
      simp at missed
  | some first =>
      rw [found] at wireAgrees otherAgrees
      simp only [Option.all_some, decide_eq_true_eq] at wireAgrees otherAgrees
      exact otherAgrees.symm.trans wireAgrees

/-- Wires that name one exporter for each package agree, if none of them
contradicts a candidate in use. -/
theorem agrees_of_exporter_eq
    (single : ∀ wire ∈ wires, ∀ other ∈ wires,
      other.package = wire.package → other.exporter.id = wire.exporter.id)
    (used : ∀ wire ∈ wires, ∀ other, draft.InUse other →
      other.package = wire.package →
        other.exporter.id = wire.exporter.id) :
    draft.agrees wires = true := by
  have kept : ∀ other : Wire,
      (∀ wire ∈ wires, other.package = wire.package →
        other.exporter.id = wire.exporter.id) →
          agreesWith wires other = true := by
    intro other same
    unfold agreesWith
    rw [Option.all_eq_true]
    intro first found
    have package := List.find?_some found
    simp only [decide_eq_true_eq] at package ⊢
    exact (same first (List.mem_of_find?_eq_some found) package.symm).symm
  unfold Draft.agrees
  rw [Bool.and_eq_true, List.all_eq_true, List.all_eq_true]
  constructor
  · intro other member
    exact kept other fun wire listed => single wire listed other member
  · intro id member
    split
    · rfl
    · rename_i candidate found
      rw [List.all_eq_true]
      intro other listed
      have isUsed : draft.used.contains id = true :=
        Option.isSome_iff_exists.2 ⟨id, Roster.find?_of_mem member⟩
      exact kept other fun wire inWires =>
        used wire inWires other ⟨id, candidate, isUsed, found, listed⟩

/-- A fragment that a host may take on. -/
structure IsAvailable (draft : Draft) (fragment : Generation) : Prop where
  found : draft.candidate? fragment.id = some (.unresolved fragment)
  isFragment : fragment.isFragment = true
  unattached : draft.hostOf? fragment.id = none

end Draft

namespace Search

variable {search : Search} {draft : Draft}

/-- A candidate that is not in charge may be an exporter, unless it is a fragment
or not free to be bound. -/
theorem isSome_group?
    {candidate : Candidate} (other : draft.resolving ≠ some candidate.id)
    (free : ∀ installed, candidate = .unresolved installed →
      installed.isFragment = false ∧
        draft.unused.contains candidate.id = true) :
    (group? draft candidate).isSome = true := by
  unfold group?
  rw [if_neg other]
  cases candidate with
  | resolved _ =>
      dsimp only
      split <;> rfl
  | bound _ =>
      dsimp only
      split <;> rfl
  | unresolved installed =>
      obtain ⟨notFragment, unused⟩ := free installed rfl
      simp [notFragment, unused]

/-- An export that the import accepts is a choice, if its exporter is one of the
groups that are asked. -/
theorem mem_wireChoices_of_offer
    {requirement : PackageImport} {candidate : Candidate} {offer : Offer}
    (present : candidate ∈ draft.candidates.members)
    (grouped : (group? draft candidate).isSome = true)
    (mayExport : search.mayExport candidate requirement.package = true)
    (offered : offer ∈ candidate.offers) (own : offer.source = none)
    (package : offer.package = requirement.package)
    (accepted : requirement.accepts offer.declared candidate.generation =
      true) :
    ⟨candidate.generation, offer.declared⟩ ∈
      search.wireChoices draft requirement := by
  obtain ⟨group, isGroup⟩ := Option.isSome_iff_exists.1 grouped
  refine List.mem_flatMap.2 ⟨group, by cases group <;> simp, ?_⟩
  refine Policy.mem_sort.2 (List.mem_flatMap.2 ⟨candidate, ?_, ?_⟩)
  · exact List.mem_filter.2 ⟨present, by simp [isGroup, mayExport]⟩
  · refine List.mem_map.2 ⟨offer, ?_, rfl⟩
    exact List.mem_filter.2 ⟨offered, by simp [own, package, accepted]⟩

theorem ne_resolving_of_mem_wireChoices
    {requirement : PackageImport} {choice : WireChoice}
    (member : choice ∈ search.wireChoices draft requirement) :
    draft.resolving ≠ some choice.exporter.id := by
  obtain ⟨candidate, _, exporter, grouped⟩ := mem_wireChoices member
  rw [exporter]
  exact ne_of_group? grouped

/-- A choice for an import is an offer of its exporter that the import
accepts. -/
theorem exists_offer_of_mem_wireChoices
    {requirement : PackageImport} {choice : WireChoice}
    (member : choice ∈ search.wireChoices draft requirement) :
    ∃ candidate,
      draft.candidate? choice.exporter.id = some candidate ∧
        candidate.generation = choice.exporter ∧
        (group? draft candidate).isSome = true ∧
        ∃ offer ∈ candidate.offers, offer.source = none ∧
          offer.package = requirement.package ∧
          offer.declared = choice.declared ∧
          requirement.accepts choice.declared choice.exporter = true := by
  obtain ⟨group, _, grouped⟩ := List.mem_flatMap.1 member
  obtain ⟨candidate, listed, chosen⟩ :=
    List.mem_flatMap.1 (Policy.mem_sort.1 grouped)
  obtain ⟨present, allowed⟩ := List.mem_filter.1 listed
  obtain ⟨offer, offered, rfl⟩ := List.mem_map.1 chosen
  obtain ⟨offerMember, fits⟩ := List.mem_filter.1 offered
  simp only [Bool.and_eq_true, decide_eq_true_eq] at allowed
  simp only [Bool.and_eq_true, Option.isNone_iff_eq_none,
    decide_eq_true_eq] at fits
  obtain ⟨⟨own, package⟩, accepted⟩ := fits
  exact ⟨candidate, Roster.find?_of_mem present, rfl, by simp [allowed.1],
    offer, offerMember, own, package, rfl, accepted⟩

theorem notFragment_of_mem_wireChoices
    {requirement : PackageImport} {choice : WireChoice}
    (offered : choice ∈ search.wireChoices draft requirement)
    (installed : Generation)
    (found : draft.candidate? choice.exporter.id =
      some (.unresolved installed)) :
    installed.isFragment = false := by
  obtain ⟨candidate, hit, _, grouped, _⟩ :=
    exists_offer_of_mem_wireChoices offered
  rw [found] at hit
  cases hit
  exact notFragment_of_group? grouped

/-- A generation that could be the required bundle is a choice, if it is not in
charge and takes part or may come to do so. -/
theorem mem_requireChoices_of_provides
    {require : Require} {provider : Generation}
    (known : draft.generation? provider.id = some provider)
    (other : draft.resolving ≠ some provider.id)
    (provided : provides require provider = true)
    (present : draft.used.contains provider.id = true ∨
      draft.unused.contains provider.id = true) :
    provider ∈ search.requireChoices draft require := by
  have among : ∀ ids : IdSet, ids.contains provider.id = true →
      provider ∈ search.providersAmong draft require ids := by
    intro ids contained
    obtain ⟨id, found⟩ := Option.isSome_iff_exists.1 contained
    have listed : provider.id ∈ ids.members :=
      Roster.key_of_find? found ▸ Roster.mem_of_find? found
    refine Policy.mem_sort.2 (List.mem_filter.2
      ⟨List.mem_filterMap.2 ⟨provider.id, listed, known⟩, ?_⟩)
    simp [other, provided]
  exact List.mem_append.2 (present.imp (among _) (among _))

theorem notFragment_of_mem_requireChoices
    {require : Require} {provider : Generation}
    (offered : provider ∈ search.requireChoices draft require)
    (installed : Generation)
    (found : draft.candidate? provider.id = some (.unresolved installed)) :
    installed.isFragment = false := by
  obtain ⟨known, _, provided⟩ := mem_requireChoices offered
  have same : installed = provider := by
    simpa [Draft.generation?, found, Candidate.generation] using known
  simp only [provides, Bool.and_eq_true, Bool.not_eq_true'] at provided
  rw [same]
  exact provided.1.1

theorem isAvailable_of_mem_fragmentChoices
    {host fragment : Generation}
    (member : fragment ∈ search.fragmentChoices draft host) :
    draft.IsAvailable fragment := by
  obtain ⟨listed, _⟩ := List.mem_filter.1 (Policy.mem_sort.1 member)
  obtain ⟨candidate, free, rfl⟩ := List.mem_map.1 listed
  obtain ⟨present, allowed⟩ := List.mem_filter.1 free
  simp only [isFreeFragment, Bool.and_eq_true, Bool.not_eq_true'] at allowed
  obtain ⟨⟨⟨unresolved, isFragment⟩, _⟩, vacant⟩ := allowed
  have unattached : draft.hostOf? candidate.id = none := by
    simpa [Table.contains, Draft.hostOf?] using vacant
  cases candidate with
  | unresolved installed =>
      exact ⟨Roster.find?_of_mem present, isFragment, unattached⟩
  | resolved wired => simp [isUnresolved] at unresolved
  | bound binding => simp [isUnresolved] at unresolved

/-- A choice that is consistent keeps to the exporter that any candidate in use
has for the package. -/
theorem exporter_eq_of_isWireConsistent
    {bound : BoundModule} {package : String} {choice : WireChoice}
    {wire : Wire}
    (consistent : isWireConsistent draft bound package choice = true)
    (inUse : draft.InUse wire) (samePackage : wire.package = package) :
    wire.exporter.id = choice.exporter.id := by
  have member : (⟨package, choice.declared, choice.exporter⟩ : Wire) ∈
      draft.implied ⟨package, choice.declared, choice.exporter⟩ ++
        draft.accepted bound :=
    List.mem_append_left _ List.mem_cons_self
  exact Draft.exporter_eq_of_agrees consistent member (.inr inUse)
    samePackage

end Search

end ModuleWiring
