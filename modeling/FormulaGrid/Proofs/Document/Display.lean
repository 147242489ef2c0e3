import FormulaGrid.Document.Display
import FormulaGrid.Proofs.Evaluation.Order

/-!
# Cells and grids of documents

A cell is displayed by a pass of its own, a grid by one pass for all cells. Where no sum lies on a
loop that makes no difference. A sum on a loop takes the other cells of the loop for what they are
while the sum is in progress, and they keep these values for the rest of the pass.
-/

set_option autoImplicit false

namespace FormulaGrid

theorem Sheet.getElem?_addresses {sheet : Sheet} {row col : Nat} (hRow : row < sheet.rowCount)
    (hCol : col < sheet.rowLength row) :
    sheet.addresses[row]?.bind (·[col]?) = some ⟨row, col⟩ := by
  simp [addresses, hRow, hCol]

namespace Document

/-- Where no sum lies on a loop, a cell looks the same by itself and in the grid, and has the same
value in a fresh pass and in any other. -/
theorem display_independent_of_order (doc : Document) (hSums : doc.sheet.SumsOffLoops) :
    (∀ row col, row < doc.sheet.rowCount → col < doc.sheet.rowLength row →
      doc.displayGrid[row]?.bind (·[col]?) = some (doc.display ⟨row, col⟩)) ∧
    ∀ pass, Pass.Reachable doc.sheet pass → ∀ cell,
      ((Pass.ask (.stored cell)).run pass).1 =
        ((Pass.ask (.stored cell)).run (.start doc.sheet)).1 := by
  have hAgrees : ∀ pass, Pass.Reachable doc.sheet pass →
      pass.Agrees doc.sheet doc.sheet.trueValue :=
    fun _ hPass => (hPass.settled hSums.grounded).agrees hSums.grounded
  constructor
  · intro row col hRow hCol
    have hGrid : doc.displayGrid = _ := (hAgrees _ .start).displayGrid
    have hCell : doc.display ⟨row, col⟩ = _ := (hAgrees _ .start).display ⟨row, col⟩
    obtain ⟨cells, hCells, hAddress⟩ :=
      Option.bind_eq_some_iff.mp (Sheet.getElem?_addresses hRow hCol)
    rw [hGrid, hCell, List.getElem?_map, hCells]
    simp only [Option.map_some, Option.bind_some, List.getElem?_map, hAddress]
  · intro pass hPass cell
    rw [(hAgrees pass hPass).stored cell, (hAgrees _ .start).stored cell]

theorem display_independent_of_order_on_loop :
    (ofSheet Pass.loopBelowSum).sheet.SumsOffLoops ∧
      (ofSheet Pass.loopBelowSum).displayGrid[1]?.bind (·[0]?) =
        some ((ofSheet Pass.loopBelowSum).display ⟨1, 0⟩) := by
  have hSums : Pass.loopBelowSum.SumsOffLoops :=
    Sheet.sumsOffLoops_of_levels Address.row (by decide +kernel)
  exact ⟨hSums, (display_independent_of_order (ofSheet Pass.loopBelowSum) hSums).1 1 0
    (by decide) (by decide)⟩

/-- A sum and a chain that read each other: by itself the chain adds to the sum, and in the grid it
has been found on a loop by then. -/
theorem display_depends_on_order :
    (ofSheet ⟨[["=SUM(B1:B1)", "=A1+1"]]⟩).display ⟨0, 1⟩ = "1" ∧
      (ofSheet ⟨[["=SUM(B1:B1)", "=A1+1"]]⟩).displayGrid = [["0", "#CIRC!"]] := by
  decide +kernel

end Document
end FormulaGrid
