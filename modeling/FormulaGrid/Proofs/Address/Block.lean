import FormulaGrid.Address.Block
import FormulaGrid.Proofs.Text.Pieces
import FormulaGrid.Proofs.Text.Words
import Mathlib.Data.List.Sort

/-!
# Rectangles of cells

A block is told by any two of its opposite corners, by the list of its cells, by a test for its cells and
by its height and width, and these agree: the list has in reading order just the cells that pass the
test, and has as many as height times width. The counts are words unless the block spans all indices.
-/

set_option autoImplicit false

namespace FormulaGrid

namespace Address

def Precedes (a b : Address) : Prop := a.row < b.row ∨ a.row = b.row ∧ a.col < b.col

instance : Std.Irrefl Precedes where
  irrefl a h := by
    rcases h with h | ⟨_, h⟩ <;> omega

instance : Std.Antisymm Precedes where
  antisymm a b h h' := by
    rcases h with h | ⟨_, h⟩ <;> rcases h' with h' | ⟨_, h'⟩ <;> omega

/-- The indices from `first` up to `last`. None past `last` is formed, so it may be the largest of all. -/
def through (first last : Nat) : List Nat :=
  if first < last then first :: through (first + 1) last
  else if first = last then [first] else []

theorem through_eq (first last : Nat) : through first last = List.range' first (last + 1 - first) := by
  fun_induction through first last with
  | case1 first hLess ih =>
    rw [ih, show last + 1 - first = last + 1 - (first + 1) + 1 by omega, List.range'_succ]
  | case2 => rw [Nat.add_sub_cancel_left, List.range'_one]
  | case3 first hLess hSame => rw [Nat.sub_eq_zero_of_le (by omega), List.range'_zero]

theorem mem_through {first last index : Nat} :
    index ∈ through first last ↔ first ≤ index ∧ index ≤ last := by
  rw [through_eq, List.mem_range'_1]
  omega

theorem pairwise_rows {rows : List Nat} {cols : Nat → List Nat} (hRows : rows.Pairwise (· < ·))
    (hCols : ∀ row, (cols row).Pairwise (· < ·)) :
    (rows.flatMap fun row => (cols row).map (Address.mk row)).Pairwise Precedes := by
  rw [List.pairwise_flatMap]
  constructor
  · intro row _
    rw [List.pairwise_map]
    exact (hCols row).imp fun h => .inr ⟨rfl, h⟩
  · apply hRows.imp
    rintro row row' hRow _ hCell _ hCell'
    obtain ⟨col, _, rfl⟩ := List.mem_map.mp hCell
    obtain ⟨col', _, rfl⟩ := List.mem_map.mp hCell'
    exact .inl hRow

end Address

namespace Block

open Address (maxIndex)

structure Ordered (block : Block) : Prop where
  row_le : block.first.row ≤ block.last.row
  col_le : block.first.col ≤ block.last.col

variable {block : Block} {cell : Address}

theorem ordered_spanning (a b : Address) : (spanning a b).Ordered where
  row_le := Nat.le_trans (Nat.min_le_left ..) (Nat.le_max_left ..)
  col_le := Nat.le_trans (Nat.min_le_left ..) (Nat.le_max_left ..)

theorem Ordered.spanning_eq (h : block.Ordered) : spanning block.first block.last = block := by
  simp [spanning, h.row_le, h.col_le]

theorem spanning_comm (a b : Address) : spanning a b = spanning b a := by
  simp [spanning, Nat.min_comm, Nat.max_comm]

theorem spanning_across (a b : Address) : spanning ⟨a.row, b.col⟩ ⟨b.row, a.col⟩ = spanning a b := by
  simp [spanning, Nat.min_comm, Nat.max_comm]

theorem contains_iff : block.contains cell = true ↔
    (block.first.row ≤ cell.row ∧ cell.row ≤ block.last.row) ∧
      block.first.col ≤ cell.col ∧ cell.col ≤ block.last.col := by
  simp only [contains, Bool.and_eq_true, decide_eq_true_eq]

theorem cells_eq_map (block : Block) :
    block.cells = (List.range (block.height * block.width)).map block.cellAt := by
  rw [cells, firstCells, Nat.min_self]

theorem length_cells (block : Block) : block.cells.length = block.height * block.width := by
  rw [cells_eq_map, List.length_map, List.length_range]

theorem cellAt_precedes {place place' : Nat} (h : place < place') :
    (block.cellAt place).Precedes (block.cellAt place') := by
  have hPlace := Nat.div_add_mod place block.width
  have hPlace' := Nat.div_add_mod place' block.width
  rcases Nat.lt_or_eq_of_le (Nat.div_le_div_right (c := block.width) h.le) with hRow | hRow
  · exact .inl (Nat.add_lt_add_left hRow _)
  · rw [← hRow] at hPlace'
    exact .inr ⟨congrArg (block.first.row + ·) hRow, Nat.add_lt_add_left (by omega) _⟩

theorem pairwise_cells (block : Block) : block.cells.Pairwise Address.Precedes := by
  rw [cells_eq_map, List.pairwise_map]
  exact List.pairwise_lt_range.imp cellAt_precedes

theorem cellAt_eq (hRow : block.first.row ≤ cell.row) (hCol : block.first.col ≤ cell.col)
    (hLast : cell.col ≤ block.last.col) :
    block.cellAt (block.width * (cell.row - block.first.row) + (cell.col - block.first.col)) =
      cell := by
  have hWidth : cell.col - block.first.col < block.width := by
    rw [width]
    omega
  rw [cellAt, Nat.mul_add_div (by omega), Nat.mul_add_mod, Nat.div_eq_of_lt hWidth,
    Nat.mod_eq_of_lt hWidth, Nat.add_zero, Nat.add_sub_cancel' hRow, Nat.add_sub_cancel' hCol]

theorem Ordered.mem_cells (h : block.Ordered) :
    cell ∈ block.cells ↔ block.contains cell = true := by
  have hRows := h.row_le
  have hCols := h.col_le
  rw [cells_eq_map, List.mem_map, contains_iff]
  constructor
  · rintro ⟨place, hPlace, rfl⟩
    have hDown : place / block.width < block.last.row - block.first.row + 1 :=
      Nat.div_lt_of_lt_mul (Nat.mul_comm .. ▸ List.mem_range.mp hPlace)
    have hRight : place % block.width < block.last.col - block.first.col + 1 :=
      Nat.mod_lt _ (Nat.succ_pos _)
    simp only [cellAt]
    generalize place / block.width = down at hDown ⊢
    generalize place % block.width = right at hRight ⊢
    omega
  · rintro ⟨⟨hRow, hRow'⟩, hCol, hCol'⟩
    refine ⟨_, List.mem_range.mpr ?_, cellAt_eq hRow hCol hCol'⟩
    have hLess : cell.col - block.first.col < block.width := by
      rw [width]
      omega
    calc
      _ < block.width * (cell.row - block.first.row) + block.width := Nat.add_lt_add_left hLess _
      _ = block.width * (cell.row - block.first.row + 1) := (Nat.mul_succ ..).symm
      _ ≤ block.width * block.height := by
        apply Nat.mul_le_mul_left
        rw [height]
        omega
      _ = block.height * block.width := Nat.mul_comm ..

def rowByRow (block : Block) : List Address :=
  (Address.through block.first.row block.last.row).flatMap fun row =>
    (Address.through block.first.col block.last.col).map (Address.mk row)

theorem mem_rowByRow : cell ∈ block.rowByRow ↔ block.contains cell = true := by
  simp only [rowByRow, List.mem_flatMap, List.mem_map, Address.mem_through, contains_iff]
  constructor
  · rintro ⟨row, hRow, col, hCol, rfl⟩
    exact ⟨hRow, hCol⟩
  · rintro ⟨hRow, hCol⟩
    exact ⟨cell.row, hRow, cell.col, hCol, rfl⟩

theorem Ordered.rowByRow_eq (h : block.Ordered) : block.rowByRow = block.cells := by
  have hLess : ∀ first last, (Address.through first last).Pairwise (· < ·) := by
    intro first last
    rw [Address.through_eq]
    exact List.pairwise_lt_range' 1
  apply (Address.pairwise_rows (hLess ..) fun _ => hLess ..).eq_of_mem_iff block.pairwise_cells
  intro cell
  rw [h.mem_cells, ← mem_rowByRow]
  rfl

/-- The number of indices from `first` to `last` in words of 64 bits. It fails at a difference below zero
and at a sum that no word holds. -/
def extentHeld? (first last : Nat) : Option Nat := do
  Address.held? 64 ((← Nat.psub last first) + 1)

theorem extentHeld?_eq {first last : Nat} (h : first ≤ last) :
    extentHeld? first last = count? (last - first + 1) := by
  have hWord : last - first + 1 < 2 ^ 64 ↔ last - first + 1 ≤ maxIndex := Nat.lt_succ_iff
  have hBetween : Nat.psub last first = some (last - first) :=
    Nat.psub_eq_some.mpr (Nat.sub_add_cancel h)
  simp only [extentHeld?, hBetween, Option.bind_eq_bind, Option.bind_some, Address.held?, count?,
    hWord]

theorem count?_eq_none_iff {first last : Nat} (h : first ≤ last) (hLast : last ≤ maxIndex) :
    count? (last - first + 1) = none ↔ first = 0 ∧ last = maxIndex := by
  rw [count?]
  split <;> simp <;> omega

theorem count?_eq_some {n count : Nat} (h : count? n = some count) : count = n := by
  rw [count?] at h
  split at h
  · exact (Option.some.inj h).symm
  · cases h

/-- The corners are in order and short of the last index, so they have labels that can be read. -/
structure Labelled (block : Block) : Prop extends block.Ordered where
  row_lt : block.last.row < maxIndex
  col_lt : block.last.col < maxIndex

theorem Labelled.counts (h : block.Labelled) :
    block.rows? = some block.height ∧ block.cols? = some block.width := by
  have hRows := h.row_lt
  have hCols := h.col_lt
  constructor
  · rw [rows?, count?, if_pos]
    rw [height]
    omega
  · rw [cols?, count?, if_pos]
    rw [width]
    omega

theorem labelled_spanning {a b : Address} (ha : a.row < maxIndex ∧ a.col < maxIndex)
    (hb : b.row < maxIndex ∧ b.col < maxIndex) : (spanning a b).Labelled where
  toOrdered := ordered_spanning a b
  row_lt := Nat.max_lt.mpr ⟨ha.1, hb.1⟩
  col_lt := Nat.max_lt.mpr ⟨ha.2, hb.2⟩

theorem lt_maxIndex_of_ofChars? {label : List Char} (h : Address.ofChars? label = some cell) :
    cell.row < maxIndex ∧ cell.col < maxIndex := by
  obtain ⟨hRow, hCol, -⟩ := Address.ofChars?_eq_some_iff.mp h
  exact ⟨hRow, hCol⟩

theorem labelled_of_corners {left right : List Char}
    (h : (do return spanning (← Address.ofChars? left) (← Address.ofChars? right)) = some block) :
    block.Labelled := by
  obtain ⟨a, ha, h⟩ := Option.bind_eq_some_iff.mp h
  obtain ⟨b, hb, h⟩ := Option.bind_eq_some_iff.mp h
  cases h
  exact labelled_spanning (lt_maxIndex_of_ofChars? ha) (lt_maxIndex_of_ofChars? hb)

theorem labelled_of_ofChars? {text : List Char} (h : ofChars? text = some block) :
    block.Labelled := by
  rw [ofChars?] at h
  split at h
  · exact labelled_of_corners h
  · cases h

theorem ofChars?_append {left : List Char} (hLeft : ':' ∉ left) (right : List Char) :
    ofChars? (left ++ ':' :: right) = do
      return spanning (← Address.ofChars? (Text.trim left)) (← Address.ofChars? (Text.trim right)) := by
  obtain ⟨hTake, hDrop⟩ := Text.cut_append hLeft right
  rw [ofChars?, hTake, hDrop]

theorem Labelled.ofText?_label (h : block.Labelled) : ofText? block.label = some block := by
  have hLabel : block.label.toList = block.first.labelChars ++ ':' :: block.last.labelChars := by
    simp [label, Address.label]
  have hFirst : Address.ofChars? block.first.labelChars = some block.first := by
    rw [(Address.names_labelChars block.first).ofChars?_eq,
      if_pos ⟨Nat.lt_of_le_of_lt h.row_le h.row_lt, Nat.lt_of_le_of_lt h.col_le h.col_lt⟩]
  have hLast : Address.ofChars? block.last.labelChars = some block.last := by
    rw [(Address.names_labelChars block.last).ofChars?_eq, if_pos ⟨h.row_lt, h.col_lt⟩]
  have hColon : ':' ∉ block.first.labelChars :=
    (Address.isWord_labelChars block.first).not_mem rfl (by decide)
  rw [ofText?, hLabel, ofChars?_append hColon, (Address.isWord_labelChars block.first).trim_eq,
    (Address.isWord_labelChars block.last).trim_eq, hFirst, hLast]
  exact congrArg some h.spanning_eq

end Block
end FormulaGrid
