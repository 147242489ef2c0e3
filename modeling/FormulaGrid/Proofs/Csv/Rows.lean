import FormulaGrid.Proofs.Csv.Fields
import FormulaGrid.Proofs.Text.Lines

/-!
# Rows and their written forms

Rows without line feeds are read back one by one. A line feed in a text cuts its row at a place where a
quoted stretch is open, so that the row cannot be read, and with it the whole grid.
-/

set_option autoImplicit false

namespace FormulaGrid.Csv

def rowText (row : List String) : List Char :=
  List.intercalate [','] (row.map fun text => writeField text.toList)

/-- What is read where the row was written; a row without cells reads like a row with an empty one. -/
def rowRead : List String → List String
  | [] => [""]
  | row => row.map fun text => String.ofList (readBack text.toList)

def hasBreak (row : List String) : Bool := row.any fun text => text.toList.contains '\n'

theorem hasBreak_iff {row : List String} :
    hasBreak row = true ↔ ∃ text ∈ row, '\n' ∈ text.toList := by
  simp [hasBreak]

theorem writeRow_eq (row : List String) : writeRow row = rowText row ++ ['\n'] := rfl

theorem rowText_cons_cons (text next : String) (row : List String) :
    rowText (text :: next :: row) = writeField text.toList ++ ',' :: rowText (next :: row) := by
  rw [rowText, List.map_cons, List.map_cons, List.intercalate_cons_cons, List.append_assoc]
  rfl

theorem rowRead_length {row : List String} (hRow : row ≠ []) : (rowRead row).length = row.length := by
  cases row with
  | nil => exact absurd rfl hRow
  | cons text row => simp [rowRead]

theorem fields?_rowText (row : List String) : fields? (rowText row) = some (rowRead row) := by
  induction row with
  | nil => rfl
  | cons text row ih =>
    obtain ⟨field, hFinish, hRead⟩ := fieldsAfter_writeField text.toList
    cases row with
    | nil =>
      have hLast := hRead [] (by simp)
      rw [List.append_nil] at hLast
      rw [rowText, List.map_singleton, List.intercalate_singleton, fields?, hLast, fieldsAfter,
        hFinish]
      rfl
    | cons next row =>
      rw [fields?] at ih
      rw [rowText_cons_cons, fields?, hRead _ (by simp), fieldsAfter, ih, hFinish]
      rfl

theorem not_mem_rowText {row : List String} (h : hasBreak row = false) : '\n' ∉ rowText row := by
  rw [← Bool.not_eq_true, hasBreak_iff] at h
  have hField : ∀ text ∈ row, '\n' ∉ writeField text.toList :=
    fun text hText hMem => h ⟨text, hText, newline_of_writeField hMem⟩
  clear h
  induction row with
  | nil => simp [rowText]
  | cons text row ih =>
    rw [List.forall_mem_cons] at hField
    cases row with
    | nil =>
      rw [rowText, List.map_singleton, List.intercalate_singleton]
      exact hField.1
    | cons next row =>
      rw [rowText_cons_cons, List.mem_append, List.mem_cons, not_or, not_or]
      exact ⟨hField.1, by decide, ih hField.2⟩

theorem getLast?_rowText (row : List String) : (rowText row).getLast? ≠ some '\r' := by
  induction row with
  | nil => simp [rowText]
  | cons text row ih =>
    cases row with
    | nil =>
      rw [rowText, List.map_singleton, List.intercalate_singleton]
      exact getLast?_writeField text.toList
    | cons next row =>
      rw [rowText_cons_cons, List.getLast?_append, List.getLast?_cons]
      intro h
      cases hLast : (rowText (next :: row)).getLast? with
      | none => simp [hLast] at h
      | some c =>
        rw [hLast] at ih h
        exact ih h

theorem cut_rowText {row : List String} (h : hasBreak row = true) : ∃ line more,
    rowText row = line ++ '\n' :: more ∧ '\n' ∉ line ∧ line.count '"' % 2 = 1 := by
  induction row with
  | nil => cases h
  | cons text row ih =>
    by_cases hText : '\n' ∈ text.toList
    · obtain ⟨line, more, hCut, hLine⟩ := cut_writeField hText
      cases row with
      | nil =>
        refine ⟨line, more, ?_, hLine⟩
        rw [rowText, List.map_singleton, List.intercalate_singleton, hCut]
      | cons next row =>
        refine ⟨line, more ++ ',' :: rowText (next :: row), ?_, hLine⟩
        rw [rowText_cons_cons, hCut, List.append_assoc, List.cons_append]
    · have hRow : hasBreak row = true := by simpa [hasBreak, hText] using h
      obtain ⟨line, more, hCut, hLine, hCount⟩ := ih hRow
      cases row with
      | nil => cases hRow
      | cons next row =>
        refine ⟨writeField text.toList ++ ',' :: line, more, ?_, ?_, ?_⟩
        · rw [rowText_cons_cons, hCut, List.append_assoc, List.cons_append]
        · rw [List.mem_append, List.mem_cons, not_or, not_or]
          exact ⟨fun hMem => hText (newline_of_writeField hMem), by decide, hLine⟩
        · -- the quotes of a whole field come in pairs, so the cut is where it was
          have hEven := even_count_writeField text.toList
          rw [List.count_append, List.count_cons_of_ne (by decide)]
          omega

theorem lines_writeRow {row : List String} (h : hasBreak row = false) (rest : List Char) :
    Text.lines (writeRow row ++ rest) = rowText row :: Text.lines rest := by
  rw [writeRow_eq, List.append_assoc, List.singleton_append, Text.lines_append (not_mem_rowText h),
    Text.dropReturn_eq_self (getLast?_rowText row)]

theorem lines_writeRow_of_break {row : List String} (h : hasBreak row = true) (rest : List Char) :
    ∃ line more, Text.lines (writeRow row ++ rest) = line :: more ∧ fields? line = none := by
  obtain ⟨line, more, hCut, hLine, hCount⟩ := cut_rowText h
  rw [writeRow_eq, hCut, List.append_assoc, List.append_assoc, List.cons_append,
    Text.lines_append hLine]
  refine ⟨_, _, rfl, ?_⟩
  rw [fields?_eq_none_iff, Text.count_dropReturn (by decide)]
  exact hCount

theorem rowsFrom_grid (number : Nat) (grid : List (List String)) :
    rowsFrom number (Text.lines (grid.flatMap writeRow)) =
      match grid.findIdx? hasBreak with
      | none => .ok (grid.map rowRead)
      | some row => .error (.unclosedQuote (number + row)) := by
  induction grid generalizing number with
  | nil => rfl
  | cons row grid ih =>
    rw [List.flatMap_cons, List.findIdx?_cons]
    cases hBreak : hasBreak row with
    | true =>
      obtain ⟨line, more, hLines, hLine⟩ := lines_writeRow_of_break hBreak (grid.flatMap writeRow)
      rw [hLines, rowsFrom, hLine]
      rfl
    | false =>
      rw [lines_writeRow hBreak, rowsFrom, fields?_rowText, ih (number + 1)]
      cases grid.findIdx? hasBreak with
      | none => rfl
      | some place =>
        simp only [Option.map_some, if_neg (by decide : ¬ false = true)]
        rw [show number + (place + 1) = number + 1 + place by omega]
        rfl

theorem rows_render (doc : Document) : rows (render doc) =
    match doc.displayGrid.findIdx? hasBreak with
    | none => .ok (doc.displayGrid.map rowRead)
    | some row => .error (.unclosedQuote (1 + row)) := by
  rw [rows, render, String.toList_ofList]
  exact rowsFrom_grid 1 doc.displayGrid

end FormulaGrid.Csv
