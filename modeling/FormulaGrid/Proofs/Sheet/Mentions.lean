import FormulaGrid.Proofs.Address.Block
import FormulaGrid.Proofs.Sheet.References

/-!
# Cells that formulas mention

A chain mentions the cells among its operands, and a sum all cells of its block, in the sheet or not.
The cells of a block come in reading order, so those with a text are the same for two sheets that have
the same texts there, whatever their shapes.
-/

set_option autoImplicit false

namespace FormulaGrid

def Formula.Mentions : Formula → Address → Prop
  | sum block, cell => block.contains cell = true
  | chain operands, cell => .cell cell ∈ operands.toList
  | _, _ => False

namespace Sheet

def Mentions (sheet : Sheet) (cell other : Address) : Prop :=
  ∃ formula, sheet.formula? cell = some formula ∧ formula.Mentions other

variable {sheet : Sheet} {block : Block} {cell : Address}

theorem mem_upTo {bound first last place : Nat} :
    place ∈ List.range' first (min (last + 1) bound - first) ↔
      (first ≤ place ∧ place ≤ last) ∧ place < bound := by
  rw [List.mem_range'_1]
  omega

theorem mem_cellsIn : cell ∈ sheet.cellsIn block ↔
    block.contains cell = true ∧ (sheet.text? cell).isSome := by
  simp only [cellsIn, List.mem_flatMap, List.mem_map, mem_upTo, isSome_text?, Block.contains,
    Bool.and_eq_true, decide_eq_true_eq]
  constructor
  · rintro ⟨row, ⟨hRow, hRow'⟩, col, ⟨hCol, hCol'⟩, rfl⟩
    exact ⟨⟨hRow, hCol⟩, hRow', hCol'⟩
  · rintro ⟨⟨hRow, hCol⟩, hRow', hCol'⟩
    exact ⟨cell.row, ⟨hRow, hRow'⟩, cell.col, ⟨hCol, hCol'⟩, rfl⟩

theorem pairwise_cellsIn (sheet : Sheet) (block : Block) :
    (sheet.cellsIn block).Pairwise Address.Precedes :=
  Address.pairwise_rows (List.pairwise_lt_range' 1) fun _ => List.pairwise_lt_range' 1

def writtenIn (sheet : Sheet) (block : Block) : List Address :=
  (sheet.cellsIn block).filter fun cell => sheet.text cell ≠ ""

theorem mem_writtenIn : cell ∈ sheet.writtenIn block ↔
    block.contains cell = true ∧ sheet.text cell ≠ "" := by
  rw [writtenIn, List.mem_filter, mem_cellsIn, decide_eq_true_eq]
  constructor
  · rintro ⟨⟨hBlock, _⟩, hText⟩
    exact ⟨hBlock, hText⟩
  · rintro ⟨hBlock, hText⟩
    refine ⟨⟨hBlock, ?_⟩, hText⟩
    cases hCell : sheet.text? cell with
    | some text => rfl
    | none =>
      rw [text, hCell] at hText
      exact absurd rfl hText

theorem writtenIn_congr {other : Sheet}
    (h : ∀ cell, block.contains cell = true → other.text cell = sheet.text cell) :
    other.writtenIn block = sheet.writtenIn block := by
  apply List.Pairwise.eq_of_mem_iff ((other.pairwise_cellsIn block).filter _)
    ((sheet.pairwise_cellsIn block).filter _)
  intro cell
  rw [← writtenIn, ← writtenIn, mem_writtenIn, mem_writtenIn]
  constructor
  · rintro ⟨hBlock, hText⟩
    exact ⟨hBlock, h cell hBlock ▸ hText⟩
  · rintro ⟨hBlock, hText⟩
    exact ⟨hBlock, (h cell hBlock).symm ▸ hText⟩

theorem mentions_of_mem_references {formula : Formula} (h : cell ∈ formula.references sheet) :
    formula.Mentions cell := by
  cases formula with
  | blank => cases h
  | malformed => cases h
  | sum block => exact (mem_cellsIn.mp h).1
  | chain operands =>
    obtain ⟨x, hx, hCell⟩ := List.mem_filterMap.mp h
    cases x <;> cases hCell
    exact hx

end Sheet
end FormulaGrid
