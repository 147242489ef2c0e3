import FormulaGrid.Proofs.Sheet.FormulaCells
import FormulaGrid.Proofs.Sheet.Texts

/-!
# Shapes of edited sheets

What an edit does to the number of rows and to their lengths. Cells are written where there are some,
so writing changes neither; all else makes rows longer or more.
-/

set_option autoImplicit false

namespace FormulaGrid.Sheet

variable {sheet inner middle outer : Sheet}

theorem rowLength_of_rowCount_le {row : Nat} (h : sheet.rowCount ≤ row) :
    sheet.rowLength row = 0 := by
  rw [rowLength, List.getElem?_eq_none h]
  rfl

theorem rowLength_mapIdx (sheet : Sheet) (write : Nat → List String → List String)
    (h : ∀ row texts, (write row texts).length = texts.length) (row : Nat) :
    rowLength ⟨sheet.rows.mapIdx write⟩ row = sheet.rowLength row := by
  rw [rowLength, rowLength, List.getElem?_mapIdx]
  cases sheet.rows[row]? with
  | none => rfl
  | some texts => exact h row texts

theorem rowLength_modify (sheet : Sheet) (written : Nat) (write : List String → List String)
    (h : ∀ texts, (write texts).length = texts.length) (row : Nat) :
    rowLength ⟨sheet.rows.modify written write⟩ row = sheet.rowLength row := by
  rw [rowLength, rowLength, List.getElem?_modify]
  cases sheet.rows[row]? with
  | none => rfl
  | some texts =>
    change (if written = row then write texts else texts).length = texts.length
    split
    · exact h texts
    · rfl

theorem rowLength_put (sheet : Sheet) (cell : Address) (text : String) (row : Nat) :
    (sheet.put cell text).rowLength row = sheet.rowLength row :=
  rowLength_modify _ _ _ (fun _ => List.length_set) row

theorem rowLength_grow (sheet : Sheet) (rows cols row : Nat) :
    (sheet.grow rows cols).rowLength row = if row < max rows sheet.rowCount then
      max (max cols sheet.colCount) (sheet.rowLength row) else 0 := by
  rw [rowLength, rowLength, grow, rowCount, List.getElem?_map, List.getElem?_append]
  split
  · rename_i hRow
    rw [if_pos (by omega), List.getElem?_eq_getElem hRow]
    exact length_padRow ..
  · rename_i hRow
    rw [List.getElem?_replicate, List.getElem?_eq_none (by omega)]
    split
    · rw [if_pos (by omega)]
      exact length_padRow _ []
    · rw [if_neg (by omega)]
      rfl

theorem rowCount_grow (sheet : Sheet) (rows cols : Nat) :
    (sheet.grow rows cols).rowCount = max rows sheet.rowCount := by
  simp only [grow, rowCount, List.length_map, List.length_append, List.length_replicate]
  omega

theorem isSome_text?_grow (sheet : Sheet) {rows cols : Nat} {cell : Address} (hRow : cell.row < rows)
    (hCol : cell.col < cols) : ((sheet.grow rows cols).text? cell).isSome := by
  rw [isSome_text?, rowCount_grow, rowLength_grow, if_pos (by omega)]
  omega

structure FitsIn (inner outer : Sheet) : Prop where
  rowCount_le : inner.rowCount ≤ outer.rowCount
  rowLength_le : ∀ row, inner.rowLength row ≤ outer.rowLength row

theorem FitsIn.refl (sheet : Sheet) : sheet.FitsIn sheet :=
  ⟨Nat.le_refl _, fun _ => Nat.le_refl _⟩

theorem FitsIn.trans (h : inner.FitsIn middle) (h' : middle.FitsIn outer) : inner.FitsIn outer where
  rowCount_le := Nat.le_trans h.rowCount_le h'.rowCount_le
  rowLength_le row := Nat.le_trans (h.rowLength_le row) (h'.rowLength_le row)

theorem fitsIn_grow (sheet : Sheet) (rows cols : Nat) : sheet.FitsIn (sheet.grow rows cols) where
  rowCount_le := by
    rw [rowCount_grow]
    omega
  rowLength_le row := by
    rw [rowLength_grow]
    split
    · omega
    · exact Nat.le_of_eq (rowLength_of_rowCount_le (by omega))

theorem fitsIn_put (sheet : Sheet) (cell : Address) (text : String) :
    sheet.FitsIn (sheet.put cell text) where
  rowCount_le := by simp [put, rowCount]
  rowLength_le row := Nat.le_of_eq (rowLength_put sheet cell text row).symm

theorem fitsIn_overlay (sheet : Sheet) (base : Address) (block : Sheet) :
    sheet.FitsIn (sheet.overlay base block) where
  rowCount_le := by simp [overlay, rowCount]
  rowLength_le row := by
    refine Nat.le_of_eq (rowLength_mapIdx _ _ ?_ row).symm
    intro row texts
    split
    · rfl
    · exact List.length_mapIdx

theorem fitsIn_addRow (sheet : Sheet) (cols : Nat) :
    sheet.FitsIn ⟨sheet.rows ++ [List.replicate cols ""]⟩ where
  rowCount_le := by simp [rowCount]
  rowLength_le row := by
    rw [rowLength, rowLength, List.getElem?_append]
    split
    · exact Nat.le_refl _
    · rw [List.getElem?_eq_none (by omega)]
      exact Nat.zero_le _

theorem fitsIn_addCol (sheet : Sheet) : sheet.FitsIn ⟨sheet.rows.map (· ++ [""])⟩ where
  rowCount_le := by simp [rowCount]
  rowLength_le row := by
    rw [rowLength, rowLength, List.getElem?_map]
    cases sheet.rows[row]? with
    | none => exact Nat.le_refl _
    | some texts => simp

end FormulaGrid.Sheet
