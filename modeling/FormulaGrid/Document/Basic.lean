import FormulaGrid.Document.Error
import FormulaGrid.Sheet

/-!
# Documents

A document is a sheet, the file it was loaded from and whether it was changed since. The number of
its columns is the length of its first row.
-/

set_option autoImplicit false

namespace FormulaGrid

def padRow (width : Nat) (row : List String) : List String :=
  row ++ List.replicate (width - row.length) ""

namespace Sheet

def blank (rows cols : Nat) : Sheet :=
  ⟨List.replicate rows (List.replicate cols "")⟩

def colCount (sheet : Sheet) : Nat := sheet.rowLength 0

def isEmpty (sheet : Sheet) : Bool := sheet.rows.all fun row => row.all (· == "")

def padded (sheet : Sheet) : Sheet :=
  ⟨sheet.rows.map (padRow sheet.width)⟩

end Sheet

structure Document where
  sheet : Sheet
  file : Option String
  modified : Bool
deriving DecidableEq, Repr

namespace Document

/-- A document that was not changed since it was made. -/
def ofSheet (sheet : Sheet) : Document := ⟨sheet, none, false⟩

def new (rows cols : Nat) : Document := ofSheet (.blank rows cols)

def standardRows : Nat := 20

def standardCols : Nat := 10

def standard : Document := new standardRows standardCols

def ofRows (rows : List (List String)) : Document := ofSheet (Sheet.padded ⟨rows⟩)

def rows (doc : Document) : Nat := doc.sheet.rowCount

def cols (doc : Document) : Nat := doc.sheet.colCount

def isEmpty (doc : Document) : Bool := doc.sheet.isEmpty

def get (doc : Document) (cell : Address) : String := doc.sheet.text cell

end Document
end FormulaGrid
