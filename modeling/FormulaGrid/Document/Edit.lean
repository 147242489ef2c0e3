import FormulaGrid.Address.Block
import FormulaGrid.Document.Basic

/-!
# Edits of documents

Text can be set in any cell and pasted in blocks; the sheet grows as far as needed, and all its
rows with it. An edit that fails leaves no trace. The largest index cannot be written, since the
count of rows or columns would not be an index any more.
-/

set_option autoImplicit false

namespace FormulaGrid

namespace Sheet

/-- A sheet with at least so many rows, each at least so long and as long as the first one. -/
def grow (sheet : Sheet) (rows cols : Nat) : Sheet :=
  let cols := max cols sheet.colCount
  ⟨(sheet.rows ++ List.replicate (rows - sheet.rowCount) []).map (padRow cols)⟩

/-- Writes a block of texts from a cell on; where the block has no text, the sheet keeps its own. -/
def overlay (sheet : Sheet) (base : Address) (block : Sheet) : Sheet :=
  ⟨sheet.rows.mapIdx fun row texts =>
    if row < base.row then texts
    else texts.mapIdx fun col text =>
      if col < base.col then text
      else (block.text? ⟨row - base.row, col - base.col⟩).getD text⟩

end Sheet

namespace Document

def change (doc : Document) (sheet : Sheet) : Document :=
  { doc with sheet, modified := true }

def set (doc : Document) (cell : Address) (text : String) : Except DocumentError Document :=
  if cell.row < Address.maxIndex ∧ cell.col < Address.maxIndex then
    .ok (doc.change ((doc.sheet.grow (cell.row + 1) (cell.col + 1)).put cell text))
  else .error (.invalidCell cell.label)

/-- Empties a cell; a cell without text is no change. -/
def clear (doc : Document) (cell : Address) : Document :=
  if doc.get cell = "" then doc else doc.change (doc.sheet.put cell "")

def addRow (doc : Document) : Document :=
  doc.change ⟨doc.sheet.rows ++ [List.replicate doc.cols ""]⟩

def addCol (doc : Document) : Document :=
  doc.change ⟨doc.sheet.rows.map (· ++ [""])⟩

def paste (doc : Document) (base : Address) (block : List (List String)) :
    Except DocumentError (Block × Document) :=
  let texts : Sheet := ⟨block⟩
  let rows := base.row + texts.rowCount
  let cols := base.col + texts.width
  if texts.width = 0 then .error .emptyBlock
  else if rows ≤ Address.maxIndex ∧ cols ≤ Address.maxIndex then
    .ok (.spanning base ⟨rows - 1, cols - 1⟩,
      doc.change ((doc.sheet.grow rows cols).overlay base texts))
  else .error (.blockTooLarge base)

def cellNamed (label : String) : Except DocumentError Address :=
  match Address.ofChars? (Text.trim label.toList) with
  | some cell => .ok cell
  | none => .error (.invalidCell label)

def blockNamed (text : String) : Except DocumentError Block :=
  match Block.ofChars? (Text.trim text.toList) with
  | some block => .ok block
  | none => .error (.invalidRange text)

end Document
end FormulaGrid
