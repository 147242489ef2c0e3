import FormulaGrid.Formula.Chain
import FormulaGrid.Value

/-!
# Arithmetic of a chain

Products and quotients bind tighter than sums and differences, and operators of one rank work from
left to right. Division by a zero of either sign fails, wherever it stands.
-/

set_option autoImplicit false

namespace FormulaGrid.Chain

/-- Works through the links with a product `term` under way; `combine` adds a finished product to
the sum to its left. -/
def totalAfter (combine : Float → Float) (term : Float) :
    List (Operator × Float) → Except Fault Float
  | [] => .ok (combine term)
  | (.add, x) :: rest =>
    let sum := combine term
    totalAfter (sum + ·) x rest
  | (.sub, x) :: rest =>
    let sum := combine term
    totalAfter (sum - ·) x rest
  | (.mul, x) :: rest => totalAfter combine (term * x) rest
  | (.div, x) :: rest =>
    if x == 0.0 then .error .zeroDivisor else totalAfter combine (term / x) rest

def total (chain : Chain Float) : Except Fault Float :=
  totalAfter id chain.first chain.links

end FormulaGrid.Chain
