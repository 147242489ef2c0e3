import FormulaGrid.Evaluation.Outcome
import FormulaGrid.Formula.Basic
import FormulaGrid.Sheet

/-!
# Formulas over the outcomes of cells

How a formula comes to its outcome, given a way `visit` to reach the outcome of any cell. A sum
visits the cells of its block in reading order and skips those without a number. A chain visits its
operands from left to right, and the first without a number decides: on an open loop its outcome is
that of the whole chain, otherwise the chain has a wrong reference.
-/

set_option autoImplicit false

namespace FormulaGrid

variable {m : Type → Type} [Monad m]

def addReading (total : Float) (outcome : Outcome) : Float :=
  match outcome.value.toNumber with
  | .ok x => total + x.toFloat
  | .error _ => total

def sumOver (visit : Address → m Outcome) (cells : List Address) : m Float :=
  cells.foldlM (fun total cell => do return addReading total (← visit cell)) 0.0

/-- The number of an operand cell, or the outcome of the chain that it ends. -/
def Outcome.toOperand (outcome : Outcome) : Except Outcome Float :=
  if outcome.root.isSome then .error outcome
  else (outcome.value.toNumber.map Number.Datum.toFloat).mapError Outcome.fault

def Operand.read (visit : Address → m Outcome) : Operand → ExceptT Outcome m Float
  | .number x => pure x
  | .cell address => do ExceptT.mk (return (← visit address).toOperand)
  | .unreadable => throw (.fault .reference)

def Formula.outcome (formula : Formula) (sheet : Sheet) (visit : Address → m Outcome) :
    m Outcome :=
  match formula with
  | .blank => return .settled (.number (.float 0.0))
  | .sum block => do return .settled (.ofFloat (← sumOver visit (sheet.cellsIn block)))
  | .chain operands => do
    match ← (operands.mapM (Operand.read visit)).run with
    | .ok numbers => return .settled (.ofResult numbers.total)
    | .error outcome => return outcome
  | .malformed => return .fault .invalid

end FormulaGrid
