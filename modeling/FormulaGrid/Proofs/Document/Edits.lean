import FormulaGrid.Document.Files
import FormulaGrid.Proofs.Sheet.Texts

/-!
# Edits and what they leave alone

An edit gives texts to some cells. All others keep theirs, also where the sheet grows. However a
document is made and edited, its rows have one length.
-/

set_option autoImplicit false

namespace FormulaGrid

inductive Edit where
  | set (cell : Address) (text : String)
  | clear (cell : Address)
  | addRow
  | addCol
  | paste (base : Address) (block : List (List String))

namespace Edit

def run (doc : Document) : Edit → Except DocumentError Document
  | set cell text => doc.set cell text
  | clear cell => .ok (doc.clear cell)
  | addRow => .ok doc.addRow
  | addCol => .ok doc.addCol
  | paste base block => (doc.paste base block).map Prod.snd

/-- The cells that the edit gives texts to; a row of a block may be shorter than the block. -/
def Writes (doc : Document) : Edit → Address → Prop
  | set written _, cell => cell = written
  | clear written, cell => cell = written ∧ doc.get cell ≠ ""
  | addRow, _ => False
  | addCol, _ => False
  | paste base block, cell => base.row ≤ cell.row ∧ base.col ≤ cell.col ∧
      (Sheet.text? ⟨block⟩ ⟨cell.row - base.row, cell.col - base.col⟩).isSome

variable {edit : Edit} {doc after : Document}

theorem sheet_of_set {cell : Address} {text : String} (h : run doc (set cell text) = .ok after) :
    after.sheet = (doc.sheet.grow (cell.row + 1) (cell.col + 1)).put cell text := by
  rw [run, Document.set] at h
  split at h
  · cases h
    rfl
  · cases h

theorem sheet_of_clear {cell : Address} (h : run doc (clear cell) = .ok after) :
    after.sheet = doc.sheet ∨ doc.get cell ≠ "" ∧ after.sheet = doc.sheet.put cell "" := by
  cases h
  rw [Document.clear]
  split
  · exact .inl rfl
  · exact .inr ⟨‹_›, rfl⟩

theorem sheet_of_paste {base : Address} {block : List (List String)}
    (h : run doc (paste base block) = .ok after) : ∃ rows cols,
      after.sheet = (doc.sheet.grow rows cols).overlay base ⟨block⟩ := by
  rw [run, Document.paste] at h
  split at h
  · cases h
  · split at h
    · cases h
      exact ⟨_, _, rfl⟩
    · cases h

theorem text_of_not_writes (h : edit.run doc = .ok after) {cell : Address}
    (hCell : ¬ edit.Writes doc cell) : after.sheet.text cell = doc.sheet.text cell := by
  cases edit with
  | set written text => rw [sheet_of_set h, Sheet.text_put_of_ne _ _ hCell, Sheet.text_grow]
  | clear written =>
    rcases sheet_of_clear h with hSheet | ⟨hText, hSheet⟩
    · rw [hSheet]
    · have hOther : cell ≠ written := by
        rintro rfl
        exact hCell ⟨rfl, hText⟩
      rw [hSheet, Sheet.text_put_of_ne _ _ hOther]
  | addRow =>
    cases h
    exact doc.sheet.text_addRow doc.cols cell
  | addCol =>
    cases h
    exact doc.sheet.text_addCol cell
  | paste base block =>
    obtain ⟨rows, cols, hSheet⟩ := sheet_of_paste h
    rw [hSheet, Sheet.text_overlay_of_none, Sheet.text_grow]
    intro hRow hCol
    rw [← Option.not_isSome_iff_eq_none]
    exact fun hText => hCell ⟨hRow, hCol, hText⟩

theorem hasWidth (h : edit.run doc = .ok after) (hDoc : ∃ width, doc.sheet.HasWidth width) :
    ∃ width, after.sheet.HasWidth width := by
  obtain ⟨width, hDoc⟩ := hDoc
  cases edit with
  | set written text =>
    obtain ⟨width', hGrown⟩ := hDoc.grow (written.row + 1) (written.col + 1)
    rw [sheet_of_set h]
    exact ⟨width', hGrown.put written text⟩
  | clear written =>
    refine ⟨width, ?_⟩
    rcases sheet_of_clear h with hSheet | ⟨_, hSheet⟩
    · rw [hSheet]
      exact hDoc
    · rw [hSheet]
      exact hDoc.put written ""
  | addRow =>
    cases h
    exact hDoc.addRow
  | addCol =>
    cases h
    exact ⟨width + 1, hDoc.addCol⟩
  | paste base block =>
    obtain ⟨rows, cols, hSheet⟩ := sheet_of_paste h
    obtain ⟨width', hGrown⟩ := hDoc.grow rows cols
    rw [hSheet]
    exact ⟨width', hGrown.overlay base ⟨block⟩⟩

end Edit

namespace Document

inductive Built : Document → Prop where
  | new (rows cols : Nat) : Built (.new rows cols)
  | ofRows (rows : List (List String)) : Built (.ofRows rows)
  | loaded {path : String} {rows : List (List String)} {doc : Document}
      (h : ofFileRows path rows = .ok doc) : Built doc
  | edited {doc after : Document} (edit : Edit) (h : edit.run doc = .ok after) :
      Built doc → Built after

theorem ofFileRows_eq_ok_iff {path : String} {rows : List (List String)} {doc : Document} :
    ofFileRows path rows = .ok doc ↔ rows ≠ [] ∧ doc = { ofRows rows with file := some path } := by
  cases rows with
  | nil => simp [ofFileRows]
  | cons row rows => simp [ofFileRows, eq_comm]

theorem Built.hasWidth {doc : Document} (h : doc.Built) : ∃ width, doc.sheet.HasWidth width := by
  induction h with
  | new rows cols => exact ⟨cols, Sheet.hasWidth_blank rows cols⟩
  | ofRows rows => exact ⟨_, Sheet.hasWidth_padded ⟨rows⟩⟩
  | loaded h =>
    obtain ⟨_, rfl⟩ := ofFileRows_eq_ok_iff.mp h
    exact ⟨_, Sheet.hasWidth_padded _⟩
  | edited edit h _ ih => exact Edit.hasWidth h ih

end Document
end FormulaGrid
