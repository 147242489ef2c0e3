import FormulaGrid.Evaluation.Outcome

/-!
# Memo of outcomes

The memo of a pass holds at most one outcome for each cell.
-/

set_option autoImplicit false

namespace FormulaGrid

structure Memo where
  outcomes : Std.ExtTreeMap Address Outcome

namespace Memo

def empty : Memo := ⟨∅⟩

def get? (memo : Memo) (cell : Address) : Option Outcome := memo.outcomes[cell]?

def value? (memo : Memo) (cell : Address) : Option Value := (memo.get? cell).map Outcome.value

def contains (memo : Memo) (cell : Address) : Bool := memo.outcomes.contains cell

def size (memo : Memo) : Nat := memo.outcomes.size

def insert (memo : Memo) (cell : Address) (outcome : Outcome) : Memo :=
  ⟨memo.outcomes.insert cell outcome⟩

theorem get?_empty (cell : Address) : empty.get? cell = none := by
  simp [get?, empty]

theorem get?_insert (memo : Memo) (cell other : Address) (outcome : Outcome) :
    (memo.insert cell outcome).get? other =
      if cell = other then some outcome else memo.get? other := by
  simp only [get?, insert, Std.ExtTreeMap.getElem?_insert, Std.LawfulEqCmp.compare_eq_iff_eq]

theorem contains_eq_isSome (memo : Memo) (cell : Address) :
    memo.contains cell = (memo.get? cell).isSome :=
  Std.ExtTreeMap.contains_eq_isSome_getElem?

end Memo
end FormulaGrid
