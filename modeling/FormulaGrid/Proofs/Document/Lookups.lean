import FormulaGrid.Document.Display
import FormulaGrid.Proofs.Evaluation.Literals
import FormulaGrid.Proofs.Number.Datum

/-!
# Labels as formulas

A label that is evaluated by itself looks up the number of its cell. The sigil may be left out, the case of
the letters does not matter, and blanks may stand around the label. A cell without a number, be it a text
or a failure, is a wrong reference.
-/

set_option autoImplicit false

namespace FormulaGrid

theorem Value.Proper.eq_float {value : Value} {x : Number.Datum} (h : value.Proper)
    (hNumber : value.toNumber = .ok x) : x = .float x.toFloat ∧ x.toFloat.isFinite = true := by
  rcases h with hComputed | ⟨s, rfl⟩
  · cases value with
    | number y =>
      cases hNumber
      exact ⟨Number.Datum.eq_float hComputed, hComputed⟩
    | text s => cases hComputed
    | fault f => cases hNumber
  · rw [toNumber] at hNumber
    split at hNumber
    · cases hNumber
      exact ⟨rfl, by decide +kernel⟩
    · split at hNumber
      · cases hNumber
        exact ⟨rfl, Number.isFinite_of_ofText? (by assumption)⟩
      · cases hNumber

namespace Document

open Formula (sigil)

variable {text : String} {before mark label after : List Char}

theorem toList_formulaText {c : Char} {rest : List Char}
    (h : Text.trim text.toList = c :: rest) :
    (formulaText text).toList = if c = sigil then c :: rest else sigil :: c :: rest := by
  rw [formulaText, h]
  exact String.toList_ofList

theorem trim_sigil (hWord : Text.IsWord label) (gap : List Char)
    (hBefore : ∀ c ∈ before, Text.isBlank c = true) (hAfter : ∀ c ∈ after, Text.isBlank c = true) :
    Text.trim (before ++ sigil :: (gap ++ label) ++ after) = sigil :: (gap ++ label) := by
  rw [Text.trim_eq_iff]
  refine ⟨⟨?_, ?_⟩, before, after, rfl, hBefore, hAfter⟩
  · rintro c ⟨⟩
    rfl
  · rw [← List.dropLast_concat_getLast hWord.1, ← List.append_assoc, ← List.cons_append,
      List.getLast?_concat]
    rintro c ⟨⟩
    exact hWord.isBlank_of_mem (List.getLast_mem hWord.1)

theorem toList_formulaText_word {gap : List Char} (hWord : Text.IsWord label)
    (hText : text.toList = before ++ mark ++ gap ++ label ++ after)
    (hMark : mark = [] ∨ mark = [sigil])
    (hBlank : ∀ c ∈ before ++ gap ++ after, Text.isBlank c = true) :
    ∃ space, (formulaText text).toList = sigil :: (space ++ label) ∧
      ∀ c ∈ space, Text.isBlank c = true := by
  simp only [List.forall_mem_append] at hBlank
  obtain ⟨⟨hBefore, hGap⟩, hAfter⟩ := hBlank
  rcases hMark with rfl | rfl
  · have hTrim : Text.trim text.toList = label := by
      rw [hText, List.append_nil]
      exact hWord.trim_append (List.forall_mem_append.mpr ⟨hBefore, hGap⟩) hAfter
    obtain ⟨c, rest, rfl⟩ := List.exists_cons_of_ne_nil hWord.1
    have hSigil : c ≠ sigil := by
      rintro rfl
      exact absurd (hWord.2 sigil List.mem_cons_self) (by decide)
    refine ⟨[], ?_, List.forall_mem_nil _⟩
    rw [toList_formulaText hTrim, if_neg hSigil]
    rfl
  · have hTrim := trim_sigil hWord gap hBefore hAfter
    have hShape : text.toList = before ++ sigil :: (gap ++ label) ++ after := by
      rw [hText]
      simp
    rw [← hShape] at hTrim
    exact ⟨gap, (toList_formulaText hTrim).trans (if_pos rfl), hGap⟩

/-- The label of a cell is neither a literal nor a sum. It comes to the number of the cell, as a fresh pass
has it, and fails if there is none. -/
theorem evaluateFormula_label (doc : Document) (cell : Address) (text : String)
    (before mark gap label after : List Char) (hRow : cell.row < Address.maxIndex)
    (hCol : cell.col < Address.maxIndex)
    (hText : text.toList = before ++ mark ++ gap ++ label ++ after)
    (hMark : mark = [] ∨ mark = [sigil]) (hLabel : label.map Char.toUpper = cell.labelChars)
    (hBlank : ∀ c ∈ before ++ gap ++ after, Text.isBlank c = true) :
    Number.ofText? label = none ∧ SumCall.block? label = none ∧
      Formula.ofText? (formulaText text) = some (.chain ⟨.cell cell, []⟩) ∧
      let value := ((Pass.ask (.stored cell)).run (.start doc.sheet)).1
      (∀ x, value.toNumber = .ok x → doc.evaluateFormula text = .number x) ∧
      ∀ f, value.toNumber = .error f → doc.evaluateFormula text = .fault .reference := by
  obtain ⟨letters, digits, hNames⟩ := Address.names_of_map_toUpper hLabel
  obtain ⟨space, hFormulaText, hSpace⟩ := toList_formulaText_word hNames.isWord hText hMark hBlank
  obtain ⟨hNumber, hBody⟩ := Formula.ofBody_label hNames hRow hCol hSpace (List.forall_mem_nil _)
  have hFormula : Formula.ofText? (formulaText text) = some (.chain ⟨.cell cell, []⟩) := by
    rw [Formula.ofText?_sigil hFormulaText, ← hBody, List.append_nil]
  have hParen : '(' ∉ label := hNames.isWord.not_mem rfl (by decide)
  refine ⟨hNumber, Formula.block?_of_not_mem hParen, hFormula, ?_⟩
  intro value
  have hProper : value.Proper := (Pass.orderly_after_requests doc.sheet []).answers (.stored cell)
  have hValue : doc.evaluateFormula text =
      .ofResult (value.toNumber.map Number.Datum.toFloat) := by
    simp only [value, evaluateFormula, Pass.run_ask]
    exact Query.value_loose_cell hFormula
  rw [hValue]
  constructor
  · intro x hx
    obtain ⟨hFloat, hFinite⟩ := hProper.eq_float hx
    rw [hx, hFloat]
    exact if_pos hFinite
  · intro f hf
    rw [hf, Value.toNumber_error hf]
    rfl

theorem evaluateFormula_label_on_loop :
    let doc := ofSheet ⟨[["=B1", "=A1+1", "7"]]⟩
    doc.evaluateFormula " c1" = .number (.float 7.0) ∧
      ((Pass.ask (.stored ⟨0, 0⟩)).run (.start doc.sheet)).1 = .fault .circular ∧
      doc.evaluateFormula "= a1 " = .fault .reference := by
  intro doc
  have hNumber : ((Pass.ask (.stored ⟨0, 2⟩)).run (.start doc.sheet)).1.toNumber =
      .ok (.float 7.0) := by
    decide +kernel
  have hLoop : ((Pass.ask (.stored ⟨0, 0⟩)).run (.start doc.sheet)).1 = .fault .circular := by
    decide +kernel
  obtain ⟨-, -, -, hReads, -⟩ := evaluateFormula_label doc ⟨0, 2⟩ " c1" [' '] [] [] ['c', '1'] []
    (by decide) (by decide) (by decide) (.inl rfl) (by decide +kernel) (by simp [Text.isBlank])
  obtain ⟨-, -, -, -, hFails⟩ := evaluateFormula_label doc ⟨0, 0⟩ "= a1 " [] ['='] [' '] ['a', '1']
    [' '] (by decide) (by decide) (by decide) (.inr rfl) (by decide +kernel)
    (by simp [Text.isBlank])
  refine ⟨hReads _ hNumber, hLoop, hFails .reference ?_⟩
  rw [hLoop]
  rfl

end Document
end FormulaGrid
