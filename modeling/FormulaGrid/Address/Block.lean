import FormulaGrid.Address.Label
import FormulaGrid.Text.Blank

/-!
# Blocks of cells

A block is a rectangle of cells with its first and its last corner included. Any two opposite
corners span it, and its text is the labels of the first and the last corner with a colon between.
-/

set_option autoImplicit false

namespace FormulaGrid

structure Block where
  first : Address
  last : Address
deriving DecidableEq, Repr

namespace Block

/-- The smallest block with both cells. -/
def spanning (a b : Address) : Block :=
  ⟨⟨min a.row b.row, min a.col b.col⟩, ⟨max a.row b.row, max a.col b.col⟩⟩

def contains (block : Block) (cell : Address) : Bool :=
  (block.first.row ≤ cell.row && cell.row ≤ block.last.row) &&
  (block.first.col ≤ cell.col && cell.col ≤ block.last.col)

def height (block : Block) : Nat := block.last.row - block.first.row + 1

def width (block : Block) : Nat := block.last.col - block.first.col + 1

def count? (n : Nat) : Option Nat :=
  if n ≤ Address.maxIndex then some n else none

/-- The height as a count; the full span of the indices has none. -/
def rows? (block : Block) : Option Nat := count? block.height

def cols? (block : Block) : Option Nat := count? block.width

def cellAt (block : Block) (place : Nat) : Address :=
  ⟨block.first.row + place / block.width, block.first.col + place % block.width⟩

def firstCells (block : Block) (n : Nat) : List Address :=
  (List.range (min n (block.height * block.width))).map block.cellAt

def cells (block : Block) : List Address :=
  block.firstCells (block.height * block.width)

def ofChars? (text : List Char) : Option Block :=
  match text.dropWhile (· ≠ ':') with
  | _ :: right => do
    let left := text.takeWhile (· ≠ ':')
    return spanning (← Address.ofChars? (Text.trim left)) (← Address.ofChars? (Text.trim right))
  | [] => none

def ofText? (text : String) : Option Block :=
  ofChars? text.toList

def label (block : Block) : String :=
  block.first.label ++ ":" ++ block.last.label

end Block
end FormulaGrid
