import FormulaGrid.Address.Block

/-!
# Sheets

A sheet is rows of cell text as it was typed. Rows may differ in length, and a cell outside its row
or outside the rows has no text.
-/

set_option autoImplicit false

namespace FormulaGrid

structure Sheet where
  rows : List (List String)
deriving DecidableEq, Repr, Inhabited

namespace Sheet

def rowCount (sheet : Sheet) : Nat := sheet.rows.length

def rowLength (sheet : Sheet) (row : Nat) : Nat :=
  (sheet.rows[row]?).elim 0 List.length

def text? (sheet : Sheet) (cell : Address) : Option String := do
  (← sheet.rows[cell.row]?)[cell.col]?

def text (sheet : Sheet) (cell : Address) : String :=
  (sheet.text? cell).getD ""

def put (sheet : Sheet) (cell : Address) (text : String) : Sheet :=
  ⟨sheet.rows.modify cell.row (·.set cell.col text)⟩

def width (sheet : Sheet) : Nat :=
  sheet.rows.foldl (fun width row => max width row.length) 0

def cellCount (sheet : Sheet) : Nat :=
  sheet.rows.foldr (fun row count => row.length + count) 0

/-- The cells of a block that lie in the sheet, in reading order. -/
def cellsIn (sheet : Sheet) (block : Block) : List Address :=
  let upTo (bound first last : Nat) := List.range' first (min (last + 1) bound - first)
  (upTo sheet.rowCount block.first.row block.last.row).flatMap fun row =>
    (upTo (sheet.rowLength row) block.first.col block.last.col).map fun col => ⟨row, col⟩

def addresses (sheet : Sheet) : List (List Address) :=
  (List.range sheet.rowCount).map fun row =>
    (List.range (sheet.rowLength row)).map fun col => ⟨row, col⟩

end Sheet
end FormulaGrid
