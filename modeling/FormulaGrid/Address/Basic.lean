import Std.Data.ExtTreeMap

/-!
# Cell addresses

A cell is named by its row and its column, both counted from zero. Addresses are ordered by row and
then by column, the order in which a grid is read.
-/

set_option autoImplicit false

namespace FormulaGrid

structure Address where
  row : Nat
  col : Nat
deriving DecidableEq, Repr, Inhabited

namespace Address

/-- The largest row or column that an address can have. -/
def maxIndex : Nat := 0xffffffffffffffff

def InBounds (cell : Address) : Prop := cell.row ≤ maxIndex ∧ cell.col ≤ maxIndex

instance (cell : Address) : Decidable cell.InBounds := inferInstanceAs (Decidable (_ ∧ _))

def compare (a b : Address) : Ordering :=
  (Ord.compare a.row b.row).then (Ord.compare a.col b.col)

instance : Ord Address := ⟨compare⟩

instance : Std.TransOrd Address :=
  inferInstanceAs (Std.TransCmp (compareLex (compareOn Address.row) (compareOn Address.col)))

instance : Std.LawfulEqOrd Address where
  eq_of_compare {a b} h := by
    obtain ⟨hrow, hcol⟩ := Ordering.then_eq_eq.1 h
    cases a
    cases b
    simp_all

end Address
end FormulaGrid
