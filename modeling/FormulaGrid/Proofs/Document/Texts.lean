import FormulaGrid.Proofs.Document.Histories

/-!
# Texts after edits

An edit fails only where a count of rows or columns would not be an index any more, or where a block has
nothing to write. Otherwise each written cell has its new text and any other cell the one it had, also
where rows of the sheet or of a block differ in length.
-/

set_option autoImplicit false

namespace FormulaGrid

namespace Block

theorem spanning_extent {base : Address} {height width : Nat} (hHeight : 0 < height)
    (hWidth : 0 < width) : spanning base ⟨base.row + height - 1, base.col + width - 1⟩ =
      ⟨base, ⟨base.row + height - 1, base.col + width - 1⟩⟩ := by
  have hRow : base.row ≤ base.row + height - 1 := by omega
  have hCol : base.col ≤ base.col + width - 1 := by omega
  simp [spanning, hRow, hCol]

theorem count?_extent {first extent : Nat} (hExtent : 0 < extent)
    (h : first + extent ≤ Address.maxIndex) :
    count? (first + extent - 1 - first + 1) = some extent := by
  have hSpan : first + extent - 1 - first + 1 = extent := by omega
  rw [hSpan, count?, if_pos (Nat.le_trans (Nat.le_add_left _ _) h)]

end Block

def textOver? (base : Address) (block : List (List String)) (cell : Address) : Option String :=
  if base.row ≤ cell.row ∧ base.col ≤ cell.col then
    block[cell.row - base.row]?.bind (·[cell.col - base.col]?)
  else none

namespace Document

variable {doc after : Document} {cell base : Address} {text : String} {block : List (List String)}

theorem set_cases (doc : Document) (cell : Address) (text : String) :
    (Address.maxIndex ≤ cell.row ∨ Address.maxIndex ≤ cell.col) ∧
        doc.set cell text = .error (.invalidCell cell.label) ∨
      (cell.row < Address.maxIndex ∧ cell.col < Address.maxIndex) ∧
        ∃ after, doc.set cell text = .ok after ∧
          ∀ other, after.get other = if other = cell then text else doc.get other := by
  rw [set]
  split
  · rename_i hBounds
    refine .inr ⟨hBounds, _, rfl, fun other => ?_⟩
    have hCell := doc.sheet.isSome_text?_grow (Nat.lt_succ_self cell.row) (Nat.lt_succ_self cell.col)
    exact (Sheet.text_put hCell text other).trans (by rw [Sheet.text_grow]; rfl)
  · rename_i hBounds
    exact .inl ⟨by omega, rfl⟩

theorem get_clear (doc : Document) (cell other : Address) :
    (doc.clear cell).get other = if other = cell then "" else doc.get other := by
  rw [clear]
  split
  · rename_i hEmpty
    split
    · rename_i hSame
      rw [hSame, hEmpty]
    · rfl
  · rename_i hText
    have hCell : (doc.sheet.text? cell).isSome := by
      rw [Option.isSome_iff_ne_none]
      intro hNone
      rw [get, Sheet.text, hNone] at hText
      exact hText rfl
    exact Sheet.text_put hCell "" other

theorem get_overlay {rows cols : Nat} (hRows : base.row + block.length ≤ rows)
    (hCols : ∀ texts ∈ block, base.col + texts.length ≤ cols) (sheet : Sheet) (cell : Address) :
    ((sheet.grow rows cols).overlay base ⟨block⟩).text cell =
      (textOver? base block cell).getD (sheet.text cell) := by
  cases hText : textOver? base block cell with
  | none =>
    rw [Sheet.text_overlay_of_none, Sheet.text_grow]
    · rfl
    · intro hRow hCol
      rw [textOver?, if_pos ⟨hRow, hCol⟩] at hText
      exact hText
  | some text =>
    rw [textOver?] at hText
    split at hText
    · rename_i hBase
      obtain ⟨texts, hTexts, hCol⟩ := Option.bind_eq_some_iff.mp hText
      obtain ⟨hRow, rfl⟩ := List.getElem?_eq_some_iff.mp hTexts
      obtain ⟨hCol, _⟩ := List.getElem?_eq_some_iff.mp hCol
      have hWidth := hCols _ (List.getElem_mem hRow)
      exact Sheet.text_overlay_of_some _
        (sheet.isSome_text?_grow (by omega) (by omega)) hBase hText
    · cases hText

def Hollow (block : List (List String)) : Prop := ∀ texts ∈ block, texts = []

/-- A count of rows or columns up to the end of the block is no index. -/
def Overruns (base : Address) (block : List (List String)) : Prop :=
  Address.maxIndex < base.row + block.length ∨
    ∃ texts ∈ block, Address.maxIndex < base.col + texts.length

/-- A block covers a range from its base on, as wide as its longest row, and short rows leave texts of
the document in it. -/
structure Pasted (doc : Document) (base : Address) (block : List (List String)) (range : Block)
    (after : Document) : Prop where
  first_eq : range.first = base
  rows_eq : range.rows? = some block.length
  cols_eq : ∃ longest ∈ block, range.cols? = some longest.length ∧
    ∀ texts ∈ block, texts.length ≤ longest.length
  get_eq : ∀ cell, after.get cell = (textOver? base block cell).getD (doc.get cell)

theorem width_eq_zero_iff : Sheet.width ⟨block⟩ = 0 ↔ Hollow block := by
  rw [← Nat.le_zero, Sheet.width_le_iff]
  exact forall₂_congr fun _ _ => Nat.le_zero.trans List.length_eq_zero_iff

theorem fits_iff : base.row + block.length ≤ Address.maxIndex ∧
    (∀ texts ∈ block, base.col + texts.length ≤ Address.maxIndex) ↔ ¬ Overruns base block := by
  simp only [Overruns, not_or, not_exists, not_and, Nat.not_lt]

theorem paste_of_hollow (h : Hollow block) (doc : Document) (base : Address) :
    doc.paste base block = .error .emptyBlock := by
  rw [paste, if_pos (width_eq_zero_iff.mpr h)]

section

variable (hBlock : ¬ Hollow block)
include hBlock

theorem exists_longest : ∃ longest ∈ block, longest.length = Sheet.width ⟨block⟩ ∧
    0 < longest.length ∧ 0 < block.length := by
  have hRows : block ≠ [] := by
    rintro rfl
    exact hBlock fun texts hTexts => nomatch hTexts
  obtain ⟨longest, hLongest, hLength⟩ := Sheet.exists_length_eq_width ⟨block⟩ hRows
  refine ⟨longest, hLongest, hLength, ?_, List.length_pos_of_ne_nil hRows⟩
  rw [hLength, Nat.pos_iff_ne_zero, ne_eq, width_eq_zero_iff]
  exact hBlock

theorem paste_of_overruns (h : Overruns base block) (doc : Document) :
    doc.paste base block = .error (.blockTooLarge base) := by
  rw [paste, if_neg (hBlock ∘ width_eq_zero_iff.mp), if_neg]
  rintro ⟨hRows, hCols⟩
  refine fits_iff.mp ⟨hRows, fun texts hTexts => ?_⟩ h
  have hWidth := Sheet.length_le_width ⟨block⟩ hTexts
  exact Nat.le_trans (Nat.add_le_add_left hWidth base.col) hCols

theorem paste_of_fits (h : ¬ Overruns base block) (doc : Document) :
    ∃ range after, doc.paste base block = .ok (range, after) ∧
      doc.Pasted base block range after := by
  obtain ⟨hRows, hCols⟩ := fits_iff.mpr h
  obtain ⟨longest, hLongest, hLength, hWide, hHigh⟩ := exists_longest hBlock
  have hWidth : ∀ texts ∈ block, texts.length ≤ longest.length := by
    intro texts hTexts
    rw [hLength]
    exact Sheet.length_le_width ⟨block⟩ hTexts
  rw [paste, if_neg (hBlock ∘ width_eq_zero_iff.mp), ← hLength,
    if_pos ⟨hRows, hCols longest hLongest⟩]
  have hRange := @Block.spanning_extent base _ _ hHigh hWide
  refine ⟨_, _, rfl, congrArg Block.first hRange, ?_, ⟨longest, hLongest, ?_, hWidth⟩, ?_⟩
  · exact (congrArg Block.rows? hRange).trans (Block.count?_extent hHigh hRows)
  · exact (congrArg Block.cols? hRange).trans (Block.count?_extent hWide (hCols longest hLongest))
  · exact get_overlay (Nat.le_refl _)
      (fun texts hTexts => Nat.add_le_add_left (hWidth texts hTexts) base.col) doc.sheet

end

/-- What edits do to the texts of the cells, when they fail, and that nothing else can go wrong. -/
theorem edits_through_texts (doc : Document) :
    (∀ cell text, cell.InBounds →
      (cell.row = Address.maxIndex ∨ cell.col = Address.maxIndex) ∧
          doc.set cell text = .error (.invalidCell cell.label) ∨
        (cell.row ≠ Address.maxIndex ∧ cell.col ≠ Address.maxIndex) ∧
          ∃ after, doc.set cell text = .ok after ∧
            ∀ other, after.get other = if other = cell then text else doc.get other) ∧
    (∀ cell other, (doc.clear cell).get other = if other = cell then "" else doc.get other) ∧
    (∀ cell, doc.addRow.get cell = doc.get cell ∧ doc.addCol.get cell = doc.get cell) ∧
    (∀ base block,
      Hollow block ∧ doc.paste base block = .error .emptyBlock ∨
        ¬ Hollow block ∧ Overruns base block ∧
          doc.paste base block = .error (.blockTooLarge base) ∨
        ¬ Hollow block ∧ ¬ Overruns base block ∧ ∃ range after,
          doc.paste base block = .ok (range, after) ∧ doc.Pasted base block range after) ∧
    ∀ edit : Edit, (∃ after, edit.run doc = .ok after ∧ edit.inPlace.run doc = .ok () after) ∨
      ∃ e, edit.run doc = .error e ∧ edit.inPlace.run doc = .error (some e) doc := by
  refine ⟨?_, get_clear doc, fun cell => ⟨?_, ?_⟩, ?_, fun edit => edit.inPlace_cases doc⟩
  · intro cell text hCell
    obtain ⟨hRow, hCol⟩ := hCell
    rcases set_cases doc cell text with ⟨hBounds, hSet⟩ | ⟨hBounds, hSet⟩
    · exact .inl ⟨by omega, hSet⟩
    · exact .inr ⟨by omega, hSet⟩
  · exact doc.sheet.text_addRow doc.cols cell
  · exact doc.sheet.text_addCol cell
  · intro base block
    rcases Classical.em (Hollow block) with hHollow | hBlock
    · exact .inl ⟨hHollow, paste_of_hollow hHollow doc base⟩
    · rcases Classical.em (Overruns base block) with hOverruns | hFits
      · exact .inr (.inl ⟨hBlock, hOverruns, paste_of_overruns hBlock hOverruns doc⟩)
      · exact .inr (.inr ⟨hBlock, hFits, paste_of_fits hBlock hFits doc⟩)

theorem edits_through_texts_past_short_rows :
    (Address.mk 3 0).InBounds ∧
      ∃ after, (ofSheet ⟨[["a"], ["b", "c"]]⟩).set ⟨3, 0⟩ "d" = .ok after ∧
        after.get ⟨3, 0⟩ = "d" ∧ after.get ⟨1, 1⟩ = "c" ∧ after.get ⟨0, 1⟩ = "" := by
  rcases (edits_through_texts (ofSheet ⟨[["a"], ["b", "c"]]⟩)).1 ⟨3, 0⟩ "d" (by decide) with
    ⟨hBounds, -⟩ | ⟨-, after, hSet, hGet⟩
  · exact absurd hBounds (by decide)
  · exact ⟨by decide, after, hSet, hGet ⟨3, 0⟩, hGet ⟨1, 1⟩, hGet ⟨0, 1⟩⟩

end Document
end FormulaGrid
