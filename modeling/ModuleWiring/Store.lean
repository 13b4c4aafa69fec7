import ModuleWiring.Solution

/-!
# The store of generations

The store knows which installations still exist, in which state each is, and
with which wiring it was resolved. A wiring does not keep the generations alive
that it speaks of: those that are gone drop out of it.
-/

namespace ModuleWiring

/-- What may change about an installation. -/
structure Record where
  state : State
  wiring : Option Solution

/-- The installations that exist, by serial number. -/
structure Store where
  records : Table Nat Record
  nextSerial : Nat

namespace Store

def empty : Store :=
  ⟨∅, 0⟩

instance : Inhabited Store :=
  ⟨empty⟩

/-- Install a module under an identity. -/
def install (store : Store) (id : GenerationId) (manifest : Manifest) :
    Generation × Store :=
  (⟨store.nextSerial, id, manifest⟩,
    ⟨store.records.insert store.nextSerial ⟨.installed, none⟩,
      store.nextSerial + 1⟩)

def holds (store : Store) (generation : Generation) : Bool :=
  store.records.contains generation.serial

def state (store : Store) (generation : Generation) : State :=
  match store.records.find? generation.serial with
  | none => .installed
  | some record => record.state

/-- Change what may change about a generation that exists. -/
def update (store : Store) (change : Record → Record)
    (generation : Generation) : Store :=
  match store.records.find? generation.serial with
  | none => store
  | some record =>
      { store with
        records := store.records.insert generation.serial (change record) }

def setState (store : Store) (generation : Generation) (state : State) :
    Store :=
  store.update (fun record => { record with state := state }) generation

/-- The solution that a generation was resolved with, as far as it still
stands. -/
def wiring? (store : Store) (generation : Generation) : Option Solution :=
  match store.records.find? generation.serial with
  | none => none
  | some record =>
      record.wiring.bind fun solution => solution.restrict store.holds

def wires (store : Store) (generation : Generation) : List Wire :=
  match store.wiring? generation with
  | none => []
  | some solution => solution.wires

def requiredWires (store : Store) (generation : Generation) :
    List RequiredWire :=
  match store.wiring? generation with
  | none => []
  | some solution => solution.required

def fragments (store : Store) (generation : Generation) :
    List Generation :=
  match store.wiring? generation with
  | none => []
  | some solution => solution.fragments

/-- Every solution that some generation was resolved with. -/
def solutions (store : Store) : List Solution :=
  store.records.values.filterMap Record.wiring

theorem exists_of_wiring? {store : Store} {generation : Generation}
    {left : Solution} (wired : store.wiring? generation = some left) :
    ∃ solution ∈ store.solutions,
      solution.restrict store.holds = some left := by
  unfold wiring? at wired
  split at wired
  · cases wired
  · rename_i record found
    obtain ⟨solution, recorded, kept⟩ := Option.bind_eq_some_iff.1 wired
    refine ⟨solution, ?_, kept⟩
    exact List.mem_filterMap.2
      ⟨record, Table.mem_values_of_find? found, recorded⟩

theorem wires_sublist (store : Store) (generation : Generation) :
    store.wires generation = [] ∨
      ∃ solution ∈ store.solutions,
        (store.wires generation).Sublist solution.wires := by
  unfold wires
  split
  · exact .inl rfl
  · rename_i left wired
    obtain ⟨solution, member, kept⟩ := exists_of_wiring? wired
    exact .inr ⟨solution, member, Solution.wires_sublist_of_restrict kept⟩

theorem requiredWires_sublist (store : Store) (generation : Generation) :
    store.requiredWires generation = [] ∨
      ∃ solution ∈ store.solutions,
        ((store.requiredWires generation).map
          RequiredWire.exporter).Sublist
            (solution.required.map RequiredWire.exporter) := by
  unfold requiredWires
  split
  · exact .inl rfl
  · rename_i left wired
    obtain ⟨solution, member, kept⟩ := exists_of_wiring? wired
    exact .inr ⟨solution, member,
      Solution.required_exporters_sublist_of_restrict kept⟩

/-- Forget the installations that are not listed. -/
def retain (store : Store) (alive : List Generation) : Store :=
  let serials := alive.map Generation.serial
  { store with records := store.records.filter (serials.contains ·.1) }

end Store

namespace Solution

/-- What a generation is once it is resolved with this wiring. -/
def settle (solution : Solution) (record : Record) : Record where
  state := if record.state.isResolved then record.state else .resolved
  wiring := some solution

/-- Resolve the host and its fragments with this wiring. -/
def apply (solution : Solution) (store : Store) : Store :=
  solution.members.foldl
    (fun store member => store.update solution.settle member) store

/-- Take the wiring from the host and its fragments, which are only installed
after that. -/
def unapply (solution : Solution) (store : Store) : Store :=
  solution.members.foldl
    (fun store member => store.update (fun _ => ⟨.installed, none⟩) member)
    store

end Solution

namespace Store

def applyAll (store : Store) (solutions : List Solution) : Store :=
  solutions.foldl (fun store solution => solution.apply store) store

def unapplyAll (store : Store) (solutions : List Solution) : Store :=
  solutions.foldl (fun store solution => solution.unapply store) store

end Store

end ModuleWiring
