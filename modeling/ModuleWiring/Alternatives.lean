/-!
# Alternatives

What a search can try, in an order of preference. Each alternative is worked
out only when the ones before it have been tried, so that a long enumeration
costs no more than the part of it that is used. What is offered is said by
`Alternatives.toList`.
-/

namespace ModuleWiring

/-- Alternatives in an order of preference. -/
inductive Alternatives (α : Type) where
  | none
  | offer (first : α) (others : Unit → Alternatives α)

namespace Alternatives

variable {α β : Type}

def toList : Alternatives α → List α
  | .none => []
  | .offer first others => first :: (others ()).toList

def ofList : List α → Alternatives α
  | [] => .none
  | first :: others => .offer first fun _ => ofList others

def only (alternative : α) : Alternatives α :=
  .offer alternative fun _ => .none

def map (transform : α → β) : Alternatives α → Alternatives β
  | .none => .none
  | .offer first others =>
      .offer (transform first) fun _ => (others ()).map transform

/-- Further alternatives after all of these. -/
def orElse : Alternatives α → (Unit → Alternatives α) → Alternatives α
  | .none, further => further ()
  | .offer first others, further =>
      .offer first fun _ => (others ()).orElse further

@[simp] theorem toList_none : (none : Alternatives α).toList = [] := rfl

@[simp] theorem toList_only (alternative : α) :
    (only alternative).toList = [alternative] := rfl

@[simp] theorem toList_ofList (items : List α) :
    (ofList items).toList = items := by
  induction items with
  | nil => rfl
  | cons item rest ih => simp [ofList, toList, ih]

@[simp] theorem toList_map (transform : α → β)
    (alternatives : Alternatives α) :
    (alternatives.map transform).toList =
      alternatives.toList.map transform := by
  induction alternatives with
  | none => rfl
  | offer first others ih => simp [map, toList, ih]

@[simp] theorem toList_orElse (alternatives : Alternatives α)
    (further : Unit → Alternatives α) :
    (alternatives.orElse further).toList =
      alternatives.toList ++ (further ()).toList := by
  induction alternatives with
  | none => rfl
  | offer first others ih => simp [orElse, toList, ih]

end Alternatives

end ModuleWiring
