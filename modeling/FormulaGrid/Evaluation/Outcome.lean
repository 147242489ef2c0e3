import FormulaGrid.Address.Basic
import FormulaGrid.Value

/-!
# Outcomes of cells

An outcome is the value of a cell, and while the cell lies on a loop of references that is still
being unwound, also the root of that loop: the cell whose second visit closed it.
-/

set_option autoImplicit false

namespace FormulaGrid

structure Outcome where
  value : Value
  root : Option Address
deriving DecidableEq

namespace Outcome

def settled (value : Value) : Outcome := ⟨value, none⟩

def fault (f : Fault) : Outcome := settled (.fault f)

/-- The outcome of a second visit to a cell in progress. -/
def loop (cell : Address) : Outcome := ⟨.fault .circular, some cell⟩

/-- The outcome of a cell when it is left: a loop that it is the root of is over. -/
def closeLoop (cell : Address) (outcome : Outcome) : Outcome :=
  if outcome.root = some cell then settled outcome.value else outcome

end Outcome
end FormulaGrid
