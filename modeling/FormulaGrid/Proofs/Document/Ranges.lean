import FormulaGrid.Proofs.Address.Block
import FormulaGrid.Proofs.Document.Texts
import FormulaGrid.Proofs.Formula.SumCall

/-!
# Ranges of documents

Wherever the program comes by a range, from a text, from a sum or from a block that was pasted, the range
stays short of the last index. So its rows and columns can be counted, and its text names it again.
-/

set_option autoImplicit false

namespace FormulaGrid.Block

open Address (maxIndex)

variable {block : Block}

theorem labelled_of_block? {body : List Char} (h : SumCall.block? body = some block) :
    block.Labelled := by
  obtain ⟨first, last, ⟨_, _, _, -, -, hFirst, hLast⟩, rfl⟩ := SumCall.exists_of_block? h
  exact labelled_spanning (lt_maxIndex_of_ofChars? hFirst) (lt_maxIndex_of_ofChars? hLast)

theorem labelled_of_blockNamed {text : String} (h : Document.blockNamed text = .ok block) :
    block.Labelled := by
  rw [Document.blockNamed] at h
  split at h
  · cases h
    exact labelled_of_ofChars? ‹_›
  · cases h

theorem labelled_of_paste {doc after : Document} {base : Address} {texts : List (List String)}
    (h : doc.paste base texts = .ok (block, after)) : block.Labelled := by
  rw [Document.paste] at h
  split at h
  · cases h
  · rename_i hWidth
    split at h
    · rename_i hFits
      obtain ⟨_, _, _, _, hHeight⟩ := Document.exists_longest fun hHollow =>
        hWidth (Document.width_eq_zero_iff.mpr hHollow)
      have hCount : Sheet.rowCount ⟨texts⟩ = texts.length := rfl
      cases h
      exact labelled_spanning ⟨by omega, by omega⟩ ⟨by simp only; omega, by simp only; omega⟩
    · cases h

/-- The list of cells, the test for cells and the counts are about one set of cells. -/
structure Rectangle (block : Block) : Prop where
  rowByRow_eq : block.rowByRow = block.cells
  pairwise : block.cells.Pairwise Address.Precedes
  nodup : block.cells.Nodup
  mem_iff : ∀ cell, cell ∈ block.cells ↔ block.contains cell = true
  rows_eq : block.rows? = extentHeld? block.first.row block.last.row
  cols_eq : block.cols? = extentHeld? block.first.col block.last.col
  rows_none : block.rows? = none ↔ block.first.row = 0 ∧ block.last.row = maxIndex
  cols_none : block.cols? = none ↔ block.first.col = 0 ∧ block.last.col = maxIndex
  length_eq : ∀ rows cols, block.rows? = some rows → block.cols? = some cols →
    rows * cols = block.cells.length

theorem Ordered.rectangle (h : block.Ordered) (hLast : block.last.InBounds) :
    block.Rectangle where
  rowByRow_eq := h.rowByRow_eq
  pairwise := block.pairwise_cells
  nodup := block.pairwise_cells.nodup
  mem_iff _ := h.mem_cells
  rows_eq := (extentHeld?_eq h.row_le).symm
  cols_eq := (extentHeld?_eq h.col_le).symm
  rows_none := count?_eq_none_iff h.row_le hLast.1
  cols_none := count?_eq_none_iff h.col_le hLast.2
  length_eq rows cols hRows hCols := by
    rw [count?_eq_some hRows, count?_eq_some hCols, length_cells]

/-- Two opposite corners span the same rectangle whichever they are, in either order. The ranges that
texts, sums and edits come to can be counted, and the text of a range short of the last index names it. -/
theorem rectangle_of_corners :
    (∀ a b : Address, a.InBounds → b.InBounds →
      (spanning a b).Rectangle ∧ spanning b a = spanning a b ∧
        spanning ⟨a.row, b.col⟩ ⟨b.row, a.col⟩ = spanning a b ∧
        spanning ⟨b.row, a.col⟩ ⟨a.row, b.col⟩ = spanning a b) ∧
    (∀ block : Block,
      (∃ text, ofText? text = some block) ∨ (∃ text, Document.blockNamed text = .ok block) ∨
        (∃ body, SumCall.block? body = some block) ∨
        (∃ doc base texts after, Document.paste doc base texts = .ok (block, after)) →
      block.rows? = some block.height ∧ block.cols? = some block.width) ∧
    ∀ block : Block, block.Ordered → block.last.row < maxIndex → block.last.col < maxIndex →
      ofText? block.label = some block := by
  refine ⟨?_, ?_, fun block h hRow hCol => Labelled.ofText?_label ⟨h, hRow, hCol⟩⟩
  · intro a b ha hb
    have hLast : (spanning a b).last.InBounds :=
      ⟨Nat.max_le.mpr ⟨ha.1, hb.1⟩, Nat.max_le.mpr ⟨ha.2, hb.2⟩⟩
    refine ⟨(ordered_spanning a b).rectangle hLast, spanning_comm b a, spanning_across a b, ?_⟩
    exact (spanning_across b a).trans (spanning_comm b a)
  · intro block h
    apply Labelled.counts
    rcases h with ⟨text, h⟩ | ⟨text, h⟩ | ⟨body, h⟩ | ⟨doc, base, texts, after, h⟩
    · exact labelled_of_ofChars? h
    · exact labelled_of_blockNamed h
    · exact labelled_of_block? h
    · exact labelled_of_paste h

theorem rectangle_of_corners_at_edges :
    let edge := spanning ⟨3, maxIndex - 1⟩ ⟨1, maxIndex⟩
    edge.Rectangle ∧ edge = spanning ⟨1, maxIndex - 1⟩ ⟨3, maxIndex⟩ ∧ edge.rows? = some 3 ∧
      edge.cols? = some 2 ∧ edge.cells.length = 6 ∧
      (spanning ⟨0, 0⟩ ⟨maxIndex, 0⟩).rows? = none ∧
      (Document.blockNamed " c4 :A2" = .ok ⟨⟨1, 0⟩, ⟨3, 2⟩⟩ ∧
        SumCall.block? "Sum(A2:C4)".toList = some ⟨⟨1, 0⟩, ⟨3, 2⟩⟩ ∧
        (∃ after, (Document.new 1 1).paste ⟨1, 0⟩ [["1", "2", "3"], [], ["=A2"]] =
          .ok (⟨⟨1, 0⟩, ⟨3, 2⟩⟩, after)) ∧
        rows? ⟨⟨1, 0⟩, ⟨3, 2⟩⟩ = some 3 ∧ cols? ⟨⟨1, 0⟩, ⟨3, 2⟩⟩ = some 3) ∧
      ofText? (label ⟨⟨0, 0⟩, ⟨maxIndex - 1, maxIndex - 1⟩⟩) =
        some ⟨⟨0, 0⟩, ⟨maxIndex - 1, maxIndex - 1⟩⟩ := by
  obtain ⟨hCorners, hCounts, hLabel⟩ := rectangle_of_corners
  intro edge
  have hInside : ∀ row ≤ 3, ∀ col ≤ maxIndex, Address.InBounds ⟨row, col⟩ := fun row hRow col hCol =>
    ⟨Nat.le_trans hRow (by decide), hCol⟩
  obtain ⟨hEdge, -, -, hAcross⟩ := hCorners ⟨3, maxIndex - 1⟩ ⟨1, maxIndex⟩
    (hInside 3 (by decide) _ (by decide)) (hInside 1 (by decide) _ (by decide))
  obtain ⟨hTall, -⟩ := hCorners ⟨0, 0⟩ ⟨maxIndex, 0⟩ (by decide) (by decide)
  have hRows : edge.rows? = some 3 := by decide
  have hCols : edge.cols? = some 2 := by decide
  have hNamed : Document.blockNamed " c4 :A2" = .ok ⟨⟨1, 0⟩, ⟨3, 2⟩⟩ := by decide +kernel
  have hSum : SumCall.block? "Sum(A2:C4)".toList = some ⟨⟨1, 0⟩, ⟨3, 2⟩⟩ := by decide +kernel
  obtain ⟨hRows', hCols'⟩ := hCounts ⟨⟨1, 0⟩, ⟨3, 2⟩⟩ (.inr (.inl ⟨_, hNamed⟩))
  refine ⟨hEdge, hAcross.symm, hRows, hCols, (hEdge.length_eq 3 2 hRows hCols).symm,
    hTall.rows_none.mpr ⟨rfl, rfl⟩, ⟨hNamed, hSum, ⟨_, rfl⟩, hRows', hCols'⟩, ?_⟩
  exact hLabel _ ⟨by decide, by decide⟩ (by decide) (by decide)

end FormulaGrid.Block
