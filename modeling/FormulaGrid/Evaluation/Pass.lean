import FormulaGrid.Evaluation.Query

/-!
# Evaluation passes

A pass evaluates over one sheet and keeps its memo from query to query, so that no formula cell is
computed twice. A pass must not outlive a change to its sheet.
-/

set_option autoImplicit false

namespace FormulaGrid

structure Pass where
  sheet : Sheet
  memo : Memo
  /-- The cells in progress between queries. -/
  trail : Trail

namespace Pass

/-- How many cells nest in one attempt. -/
def nestingLimit : Nat := 256

def start (sheet : Sheet) : Pass := ⟨sheet, .empty, ∅⟩

def ask (query : Query) : StateM Pass Value := fun pass =>
  let (value, memo) := pass.sheet.settle nestingLimit pass.trail query pass.memo
  (value, { pass with memo })

def display (cell : Address) : StateM Pass String :=
  return (← ask (.stored cell)).display

def displayGrid : StateM Pass (List (List String)) := do
  (← get).sheet.addresses.mapM fun row => row.mapM display

def remember (cell : Address) (value : Value) (pass : Pass) : Pass :=
  { pass with memo := pass.memo.insert cell (.settled value) }

def forget (pass : Pass) : Pass := { pass with memo := .empty }

end Pass
end FormulaGrid
