import FormulaGrid.Proofs.Csv.Rows
import FormulaGrid.Proofs.Document.Edits
import FormulaGrid.Proofs.Evaluation.Requests

/-!
# Exports that are loaded again

An export is read line by line. It loads with the rows and columns that were written unless a displayed
text has a line feed, and then it does not load at all.
-/

set_option autoImplicit false

namespace FormulaGrid.Document

theorem lengths_displayGrid (doc : Document) :
    doc.displayGrid.map List.length = doc.sheet.rows.map List.length := by
  have hIdle : (Pass.start doc.sheet).Idle doc.sheet fun _ => True := ⟨rfl, rfl, trivial⟩
  have hGrid := (hIdle.displayGrid (A := fun _ _ => True) fun _ _ _ _ => ⟨trivial, trivial⟩).2
  rw [← doc.sheet.lengths_addresses, ← List.forall₂_eq_eq_eq, List.forall₂_map_left_iff,
    List.forall₂_map_right_iff]
  exact hGrid.flip.imp fun _ _ hRow => hRow.length_eq.symm

def reload (doc : Document) (path : String) : Except DocumentError Document :=
  Csv.rows (Csv.render doc) >>= ofFileRows path

theorem load_of_export {m : Type → Type} [Monad m] [LawfulMonad m] {files : FileSystem m}
    {path : String} {doc : Document}
    (hFile : files.readText path = pure (.ok (doc.render .csv))) :
    load files path = pure (doc.reload path) := by
  simp [load, readRows, hFile, reload, render]

theorem reload_eq (doc : Document) (path : String) : doc.reload path =
    match doc.displayGrid.findIdx? Csv.hasBreak with
    | none => ofFileRows path (doc.displayGrid.map Csv.rowRead)
    | some row => .error (.unclosedQuote (1 + row)) := by
  rw [reload, Csv.rows_render]
  cases doc.displayGrid.findIdx? Csv.hasBreak <;> rfl

theorem shape_ofRows {rows : List (List String)} {width : Nat} (hRows : rows ≠ [])
    (hWidth : ∀ row ∈ rows, row.length = width) :
    (ofRows rows).rows = rows.length ∧ (ofRows rows).cols = width := by
  constructor
  · exact List.length_map _
  · have hPadded : (Sheet.padded ⟨rows⟩).rows ≠ [] := by simpa [Sheet.padded] using hRows
    have hSheet : Sheet.HasWidth ⟨rows⟩ width := hWidth
    calc
      (ofRows rows).cols = Sheet.width ⟨rows⟩ := (Sheet.hasWidth_padded ⟨rows⟩).colCount_eq hPadded
      _ = width := hSheet.width_eq hRows

theorem shape_of_displayGrid {doc : Document} (hDoc : doc.Built) (hRows : 0 < doc.rows)
    (hCols : 0 < doc.cols) :
    doc.displayGrid.map Csv.rowRead ≠ [] ∧
      (ofRows (doc.displayGrid.map Csv.rowRead)).rows = doc.rows ∧
        (ofRows (doc.displayGrid.map Csv.rowRead)).cols = doc.cols := by
  have hSheet : doc.sheet.rows ≠ [] := List.ne_nil_of_length_pos hRows
  have hLengths : ∀ row ∈ doc.displayGrid.map Csv.rowRead, row.length = doc.cols := by
    intro row hRow
    obtain ⟨texts, hTexts, rfl⟩ := List.mem_map.mp hRow
    obtain ⟨width, hWidth⟩ := hDoc.hasWidth
    have hMem : texts.length ∈ doc.sheet.rows.map List.length :=
      doc.lengths_displayGrid ▸ List.mem_map_of_mem hTexts
    obtain ⟨row, hRow, hLength⟩ := List.mem_map.mp hMem
    have hTextsLength : texts.length = doc.cols := by
      rw [← hLength, hWidth row hRow]
      exact (hWidth.colCount_eq hSheet).symm
    rw [Csv.rowRead_length (List.ne_nil_of_length_pos (by omega)), hTextsLength]
  have hCount : (doc.displayGrid.map Csv.rowRead).length = doc.rows := by
    have hLength := congrArg List.length doc.lengths_displayGrid
    rw [List.length_map, List.length_map] at hLength
    rw [List.length_map, hLength]
    rfl
  have hGrid := List.ne_nil_of_length_pos (hCount ▸ hRows)
  obtain ⟨hShape, hShape'⟩ := shape_ofRows hGrid hLengths
  exact ⟨hGrid, hShape.trans hCount, hShape'⟩

/-- An export loads with the shape it was written in, unless a displayed text has a line feed. -/
theorem reload_keeps_shape_iff {doc : Document} (hDoc : doc.Built) (hRows : 0 < doc.rows)
    (hCols : 0 < doc.cols) (path : String) :
    (∃ loaded, doc.reload path = .ok loaded ∧ loaded.rows = doc.rows ∧ loaded.cols = doc.cols) ↔
      ∀ texts ∈ doc.displayGrid, ∀ text ∈ texts, '\n' ∉ text.toList := by
  rw [reload_eq]
  cases hFind : doc.displayGrid.findIdx? Csv.hasBreak with
  | none =>
    obtain ⟨hGrid, hShape⟩ := shape_of_displayGrid hDoc hRows hCols
    rw [List.findIdx?_eq_none_iff] at hFind
    refine iff_of_true ⟨_, ofFileRows_eq_ok_iff.mpr ⟨hGrid, rfl⟩, hShape⟩ ?_
    intro texts hTexts text hText hBreak
    have hRow := hFind texts hTexts
    rw [Csv.hasBreak_iff.mpr ⟨text, hText, hBreak⟩] at hRow
    cases hRow
  | some row =>
    obtain ⟨hRow, hBreak, _⟩ := List.findIdx?_eq_some_iff_getElem.mp hFind
    obtain ⟨text, hText, hBreak⟩ := Csv.hasBreak_iff.mp hBreak
    refine iff_of_false ?_ fun hNone => hNone _ (List.getElem_mem hRow) text hText hBreak
    rintro ⟨loaded, hLoaded, _⟩
    cases hLoaded

theorem reload_keeps_shape_of_quotes : ∃ loaded,
    reload ⟨⟨[["a,\"b\"", "=1+1"]]⟩, none, false⟩ "out.txt" = .ok loaded ∧
      loaded.rows = 1 ∧ loaded.cols = 2 :=
  (reload_keeps_shape_iff (.ofRows [["a,\"b\"", "=1+1"]]) (by decide) (by decide) "out.txt").mpr
    (by decide +kernel)

theorem reload_fails_on_line_feed :
    (Edit.set ⟨0, 0⟩ "a\nb").run (new 1 1) = .ok ⟨⟨[["a\nb"]]⟩, none, true⟩ ∧
      reload ⟨⟨[["a\nb"]]⟩, none, true⟩ "out.txt" = .error (.unclosedQuote 1) := by
  decide +kernel

end FormulaGrid.Document
