import FormulaGrid.Document.Edit

/-!
# Texts and shapes of edited sheets

Where a sheet grows it gets empty cells, which have the text of a cell outside it. Other changes leave
the texts of all cells alone that they do not write. If all rows of a sheet have one length, so have
those of the changed sheet.
-/

set_option autoImplicit false

namespace FormulaGrid

theorem getElem?_padRow (width : Nat) (row : List String) (col : Nat) :
    ((padRow width row)[col]?).getD "" = (row[col]?).getD "" := by
  rw [padRow, List.getElem?_append]
  split
  · rfl
  · rename_i hCol
    rw [List.getElem?_replicate, List.getElem?_eq_none (by omega)]
    split <;> rfl

theorem length_padRow (width : Nat) (row : List String) :
    (padRow width row).length = max width row.length := by
  rw [padRow, List.length_append, List.length_replicate]
  omega

theorem padRow_eq_map {width : Nat} {row : List String} (h : row.length ≤ width) :
    padRow width row = (List.range width).map fun col => (row[col]?).getD "" := by
  apply List.ext_getElem
  · rw [length_padRow, List.length_map, List.length_range, Nat.max_eq_left h]
  · intro col hCol _
    rw [List.getElem_map, List.getElem_range, ← getElem?_padRow width,
      List.getElem?_eq_getElem hCol, Option.getD_some]

namespace Sheet

variable {sheet : Sheet} {cell other : Address}

theorem text_eq (sheet : Sheet) (cell : Address) :
    sheet.text cell = (sheet.rows[cell.row]?.bind (·[cell.col]?)).getD "" := rfl

theorem text_grow (sheet : Sheet) (rows cols : Nat) (cell : Address) :
    (sheet.grow rows cols).text cell = sheet.text cell := by
  rw [text_eq, text_eq, grow, List.getElem?_map, List.getElem?_append]
  split
  · cases sheet.rows[cell.row]? with
    | none => rfl
    | some row => exact getElem?_padRow _ row cell.col
  · rename_i hRow
    have hNone : sheet.rows[cell.row]? = none := List.getElem?_eq_none (by omega)
    rw [hNone, List.getElem?_replicate]
    split
    · exact getElem?_padRow _ [] cell.col
    · rfl

theorem text_padded (sheet : Sheet) (cell : Address) :
    sheet.padded.text cell = sheet.text cell := by
  rw [text_eq, text_eq, padded, List.getElem?_map]
  cases sheet.rows[cell.row]? with
  | none => rfl
  | some row => exact getElem?_padRow _ row cell.col

theorem text_put_of_ne (sheet : Sheet) (text : String) (h : other ≠ cell) :
    (sheet.put cell text).text other = sheet.text other := by
  rw [text_eq, text_eq, put, List.getElem?_modify]
  cases sheet.rows[other.row]? with
  | none => rfl
  | some row =>
    by_cases hRow : cell.row = other.row
    · have hCol : cell.col ≠ other.col := by
        intro hCol
        apply h
        cases cell
        cases other
        simp_all
      simp [hRow, List.getElem?_set_ne hCol]
    · simp [hRow]

theorem text_put_self (h : (sheet.text? cell).isSome) (text : String) :
    (sheet.put cell text).text cell = text := by
  obtain ⟨old, hOld⟩ := Option.isSome_iff_exists.mp h
  obtain ⟨row, hRow, hCol⟩ := Option.bind_eq_some_iff.mp hOld
  obtain ⟨hCol, _⟩ := List.getElem?_eq_some_iff.mp hCol
  simp [text_eq, put, hRow, hCol]

theorem text_put (h : (sheet.text? cell).isSome) (text : String) (other : Address) :
    (sheet.put cell text).text other = if other = cell then text else sheet.text other := by
  split
  · rename_i hSame
    rw [hSame, text_put_self h]
  · rename_i hOther
    exact text_put_of_ne sheet text hOther

theorem text_overlay_of_some (sheet : Sheet) {base : Address} {block : Sheet} {text : String}
    (hCell : (sheet.text? cell).isSome) (hBase : base.row ≤ cell.row ∧ base.col ≤ cell.col)
    (hText : block.text? ⟨cell.row - base.row, cell.col - base.col⟩ = some text) :
    (sheet.overlay base block).text cell = text := by
  obtain ⟨old, hOld⟩ := Option.isSome_iff_exists.mp hCell
  obtain ⟨row, hRow, hCol⟩ := Option.bind_eq_some_iff.mp hOld
  simp [text_eq, overlay, hRow, hCol, Nat.not_lt.mpr hBase.1, Nat.not_lt.mpr hBase.2, hText]

theorem text_overlay_of_none (sheet : Sheet) (base : Address) (block : Sheet)
    (h : base.row ≤ cell.row → base.col ≤ cell.col →
      block.text? ⟨cell.row - base.row, cell.col - base.col⟩ = none) :
    (sheet.overlay base block).text cell = sheet.text cell := by
  rw [text_eq, text_eq, overlay, List.getElem?_mapIdx]
  cases sheet.rows[cell.row]? with
  | none => rfl
  | some row =>
    by_cases hRow : cell.row < base.row
    · simp [hRow]
    · simp only [Option.map_some, Option.bind_some, if_neg hRow, List.getElem?_mapIdx]
      cases row[cell.col]? with
      | none => rfl
      | some text =>
        by_cases hCol : cell.col < base.col
        · simp [hCol]
        · simp [hCol, h (by omega) (by omega)]

theorem text_addRow (sheet : Sheet) (cols : Nat) (cell : Address) :
    text ⟨sheet.rows ++ [List.replicate cols ""]⟩ cell = sheet.text cell := by
  rw [text_eq, text_eq, List.getElem?_append]
  split
  · rfl
  · rename_i hRow
    have hNone : sheet.rows[cell.row]? = none := List.getElem?_eq_none (by omega)
    rw [hNone, List.getElem?_singleton]
    split
    · rw [Option.bind_some, List.getElem?_replicate]
      split <;> rfl
    · rfl

theorem text_addCol (sheet : Sheet) (cell : Address) :
    text ⟨sheet.rows.map (· ++ [""])⟩ cell = sheet.text cell := by
  rw [text_eq, text_eq, List.getElem?_map]
  cases sheet.rows[cell.row]? with
  | none => rfl
  | some row =>
    rw [Option.map_some, Option.bind_some, Option.bind_some, List.getElem?_append]
    split
    · rfl
    · rename_i hCol
      have hNone : row[cell.col]? = none := List.getElem?_eq_none (by omega)
      rw [hNone, List.getElem?_singleton]
      split <;> rfl

def HasWidth (sheet : Sheet) (width : Nat) : Prop := ∀ row ∈ sheet.rows, row.length = width

theorem HasWidth.colCount_eq {width : Nat} (h : sheet.HasWidth width) (hRows : sheet.rows ≠ []) :
    sheet.colCount = width := by
  cases hSheet : sheet.rows with
  | nil => exact absurd hSheet hRows
  | cons row rows =>
    rw [colCount, rowLength, hSheet]
    exact h row (by simp [hSheet])

theorem hasWidth_blank (rows cols : Nat) : (blank rows cols).HasWidth cols := by
  intro row hRow
  rw [(List.mem_replicate.mp hRow).2, List.length_replicate]

theorem width_le_iff {bound : Nat} :
    sheet.width ≤ bound ↔ ∀ row ∈ sheet.rows, row.length ≤ bound := by
  have hFold : ∀ (rows : List (List String)) (start : Nat),
      rows.foldl (fun width row => max width row.length) start ≤ bound ↔
        start ≤ bound ∧ ∀ row ∈ rows, row.length ≤ bound := by
    intro rows
    induction rows with
    | nil => simp
    | cons first rows ih =>
      intro start
      rw [List.foldl_cons, ih, List.forall_mem_cons, Nat.max_le, and_assoc]
  rw [width, hFold]
  simp

theorem length_le_width (sheet : Sheet) {row : List String} (h : row ∈ sheet.rows) :
    row.length ≤ sheet.width :=
  width_le_iff.mp (Nat.le_refl _) row h

theorem exists_length_eq_width (sheet : Sheet) (hRows : sheet.rows ≠ []) :
    ∃ row ∈ sheet.rows, row.length = sheet.width := by
  apply Classical.byContradiction
  intro hNone
  have hShort : sheet.width ≤ sheet.width - 1 := by
    rw [width_le_iff]
    intro row hRow
    have hNe : row.length ≠ sheet.width := fun h => hNone ⟨row, hRow, h⟩
    have hLength := sheet.length_le_width hRow
    omega
  -- so the width is zero, and any row will do
  obtain ⟨row, hRow⟩ := List.exists_mem_of_ne_nil _ hRows
  have hLength := sheet.length_le_width hRow
  exact hNone ⟨row, hRow, by omega⟩

theorem HasWidth.width_eq {width : Nat} (h : sheet.HasWidth width) (hRows : sheet.rows ≠ []) :
    sheet.width = width := by
  obtain ⟨row, hRow⟩ := List.exists_mem_of_ne_nil _ hRows
  have hLength := sheet.length_le_width hRow
  rw [h row hRow] at hLength
  apply Nat.le_antisymm _ hLength
  exact width_le_iff.mpr fun row hRow => Nat.le_of_eq (h row hRow)

theorem hasWidth_padded (sheet : Sheet) : sheet.padded.HasWidth sheet.width := by
  intro row hRow
  obtain ⟨short, hShort, rfl⟩ := List.mem_map.mp hRow
  have hLength := sheet.length_le_width hShort
  rw [length_padRow]
  omega

theorem HasWidth.grow {width : Nat} (h : sheet.HasWidth width) (rows cols : Nat) :
    ∃ width', (sheet.grow rows cols).HasWidth width' := by
  refine ⟨max cols sheet.colCount, ?_⟩
  intro row hRow
  obtain ⟨short, hShort, rfl⟩ := List.mem_map.mp hRow
  rw [length_padRow]
  rcases List.mem_append.mp hShort with hOld | hNew
  · have hCols := h.colCount_eq (List.ne_nil_of_mem hOld)
    have hLength := h short hOld
    omega
  · rw [(List.mem_replicate.mp hNew).2, List.length_nil]
    omega

theorem HasWidth.addRow {width : Nat} (h : sheet.HasWidth width) :
    ∃ width', HasWidth ⟨sheet.rows ++ [List.replicate sheet.colCount ""]⟩ width' := by
  refine ⟨sheet.colCount, ?_⟩
  intro row hRow
  rcases List.mem_append.mp hRow with hOld | hNew
  · rw [h row hOld, h.colCount_eq (List.ne_nil_of_mem hOld)]
  · rw [List.mem_singleton.mp hNew, List.length_replicate]

theorem HasWidth.addCol {width : Nat} (h : sheet.HasWidth width) :
    HasWidth ⟨sheet.rows.map (· ++ [""])⟩ (width + 1) := by
  intro row hRow
  obtain ⟨short, hShort, rfl⟩ := List.mem_map.mp hRow
  rw [List.length_append, h short hShort, List.length_singleton]

theorem HasWidth.put {width : Nat} (h : sheet.HasWidth width) (cell : Address) (text : String) :
    (sheet.put cell text).HasWidth width := by
  intro row hRow
  obtain ⟨place, hPlace, rfl⟩ := List.getElem_of_mem hRow
  have hOld : place < sheet.rows.length := by simpa [Sheet.put] using hPlace
  have hLength := h sheet.rows[place] (List.getElem_mem hOld)
  simp only [Sheet.put, List.getElem_modify]
  split
  · rw [List.length_set, hLength]
  · exact hLength

theorem HasWidth.overlay {width : Nat} (h : sheet.HasWidth width) (base : Address)
    (block : Sheet) : (sheet.overlay base block).HasWidth width := by
  intro row hRow
  obtain ⟨place, hPlace, rfl⟩ := List.mem_mapIdx.mp hRow
  have hRow := h _ (List.getElem_mem hPlace)
  split
  · exact hRow
  · rw [List.length_mapIdx, hRow]

end Sheet
end FormulaGrid
