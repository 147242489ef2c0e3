import FormulaGrid.Evaluation.Walk
import Mathlib.Data.Finset.Card

/-!
# Formula cells

Only cells of the sheet hold formulas, so there are no more of them than cells. The formula cells
off a trail are fewer on a longer trail, which bounds every recursion along references.
-/

set_option autoImplicit false

namespace FormulaGrid.Sheet

def formula? (sheet : Sheet) (cell : Address) : Option Formula :=
  Formula.ofText? (sheet.text cell)

theorem mem_flatten_addresses {sheet : Sheet} {cell : Address} :
    cell ∈ sheet.addresses.flatten ↔ cell.row < sheet.rowCount ∧
      cell.col < sheet.rowLength cell.row := by
  simp only [addresses, List.mem_flatten, List.mem_map, List.mem_range]
  constructor
  · rintro ⟨_, ⟨row, hRow, rfl⟩, hCell⟩
    obtain ⟨col, hCol, rfl⟩ := List.mem_map.mp hCell
    exact ⟨hRow, List.mem_range.mp hCol⟩
  · rintro ⟨hRow, hCol⟩
    exact ⟨_, ⟨cell.row, hRow, rfl⟩, List.mem_map.mpr ⟨cell.col, List.mem_range.mpr hCol, rfl⟩⟩

theorem isSome_text? {sheet : Sheet} {cell : Address} :
    (sheet.text? cell).isSome ↔ cell.row < sheet.rowCount ∧
      cell.col < sheet.rowLength cell.row := by
  simp only [text?, rowCount, rowLength]
  cases hRow : sheet.rows[cell.row]? with
  | none => simp
  | some row =>
    obtain ⟨hRow, _⟩ := List.getElem?_eq_some_iff.mp hRow
    simp [hRow]

theorem mem_of_formula? {sheet : Sheet} {cell : Address}
    (h : (sheet.formula? cell).isSome) : cell ∈ sheet.addresses.flatten := by
  rw [mem_flatten_addresses, ← isSome_text?]
  cases hText : sheet.text? cell with
  | some text => rfl
  | none =>
    rw [formula?, text, hText] at h
    cases h

def formulaCells (sheet : Sheet) : Finset Address :=
  (sheet.addresses.flatten.filter fun cell => (sheet.formula? cell).isSome).toFinset

theorem mem_formulaCells {sheet : Sheet} {cell : Address} :
    cell ∈ sheet.formulaCells ↔ (sheet.formula? cell).isSome := by
  rw [formulaCells, List.mem_toFinset, List.mem_filter]
  exact ⟨And.right, fun h => ⟨mem_of_formula? h, h⟩⟩

theorem lengths_addresses (sheet : Sheet) :
    sheet.addresses.map List.length = sheet.rows.map List.length := by
  apply List.ext_getElem
  · simp [addresses, rowCount]
  · intro row hRow _
    have hRow : row < sheet.rows.length := by simpa [addresses, rowCount] using hRow
    simp [addresses, rowLength, hRow]

theorem length_flatten_addresses (sheet : Sheet) :
    sheet.addresses.flatten.length = sheet.cellCount := by
  have hCount : sheet.cellCount = (sheet.rows.map List.length).sum := List.foldr_map.symm
  rw [List.length_flatten, hCount, lengths_addresses]

theorem card_formulaCells_le (sheet : Sheet) : sheet.formulaCells.card ≤ sheet.cellCount := by
  rw [← length_flatten_addresses]
  exact (List.toFinset_card_le _).trans (List.length_filter_le _ _)

def idleCells (sheet : Sheet) (trail : Trail) : Finset Address :=
  sheet.formulaCells.filter (· ∉ trail)

theorem card_idleCells_insert_lt {sheet : Sheet} {trail : Trail} {cell : Address}
    (hCell : cell ∉ trail) (hFormula : (sheet.formula? cell).isSome) :
    (sheet.idleCells (trail.insert cell)).card < (sheet.idleCells trail).card := by
  apply Finset.card_lt_card
  rw [Finset.ssubset_iff_of_subset]
  · refine ⟨cell, Finset.mem_filter.mpr ⟨mem_formulaCells.mpr hFormula, hCell⟩, ?_⟩
    simp [idleCells]
  · intro other hOther
    simp only [idleCells, Finset.mem_filter, Std.ExtTreeSet.mem_insert, not_or] at hOther ⊢
    exact ⟨hOther.1, hOther.2.2⟩

/-- What holds on a trail whenever it holds one formula cell further down holds on every trail. -/
theorem trail_induction (sheet : Sheet) {P : Trail → Prop}
    (step : ∀ trail, (∀ cell, cell ∉ trail → (sheet.formula? cell).isSome →
      P (trail.insert cell)) → P trail) (trail : Trail) : P trail :=
  step trail fun cell _ _ => trail_induction sheet step (trail.insert cell)
termination_by (sheet.idleCells trail).card
decreasing_by exact card_idleCells_insert_lt ‹_› ‹_›

end FormulaGrid.Sheet
