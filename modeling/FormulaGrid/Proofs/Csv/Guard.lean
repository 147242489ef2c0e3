import FormulaGrid.Proofs.Csv.Rows
import FormulaGrid.Proofs.Sheet.FormulaCells
import FormulaGrid.Proofs.Sheet.Texts
import FormulaGrid.Proofs.Text.Blank
import Mathlib.Data.List.TakeWhile

/-!
# The guard against formulas

The writer looks for a sign behind spaces and tabs, the reader trims blanks of every kind. A sign gets
past the guard behind another blank, if nothing in the text asks for quotes.
-/

set_option autoImplicit false

namespace FormulaGrid.Csv

def isSign (c : Char) : Bool := c == '=' || c == '+' || c == '@'

def isPadding (c : Char) : Bool := c == ' ' || c == '\t'

def StartsFormula (text : List Char) : Prop := ∃ c ∈ text.head?, isSign c = true

/-- The text has a sign behind blanks that are not all padding, and nothing that asks for quotes. -/
def Slips (text : List Char) : Prop :=
  needsQuotes text = false ∧ ∃ blanks c rest, text = blanks ++ c :: rest ∧ isSign c = true ∧
    (∀ b ∈ blanks, Text.isBlank b = true) ∧ ∃ b ∈ blanks, isPadding b = false

variable {text : List Char}

theorem not_isBlank_of_isSign {c : Char} (h : isSign c = true) : Text.isBlank c = false := by
  simp only [isSign, Bool.or_eq_true, beq_iff_eq] at h
  rcases h with (rfl | rfl) | rfl <;> decide

theorem isBlank_of_isPadding {c : Char} (h : isPadding c = true) : Text.isBlank c = true := by
  simp only [isPadding, Bool.or_eq_true, beq_iff_eq] at h
  rcases h with rfl | rfl <;> decide

theorem startsFormula_dropWhile_iff {p : Char → Bool} (hSigns : ∀ c, isSign c = true → p c = false) :
    StartsFormula (text.dropWhile p) ↔ ∃ before c rest, text = before ++ c :: rest ∧
      isSign c = true ∧ ∀ b ∈ before, p b = true := by
  simp only [StartsFormula, Option.mem_def, ← List.find?_not_eq_head?_dropWhile,
    List.find?_eq_some_iff_append, Bool.not_not]
  constructor
  · rintro ⟨c, ⟨_, before, rest, hText, hBefore⟩, hSign⟩
    exact ⟨before, c, rest, hText, hSign, hBefore⟩
  · rintro ⟨before, c, rest, hText, hSign, hBefore⟩
    exact ⟨c, ⟨by simp [hSigns c hSign], before, rest, hText, hBefore⟩, hSign⟩

theorem isRisky_iff : isRisky text = true ↔ StartsFormula (text.dropWhile isPadding) := by
  have hRisky : isRisky text = (text.dropWhile isPadding).head?.any isSign := by
    rw [isRisky, show (fun c => c == ' ' || c == '\t') = isPadding from rfl]
    cases text.dropWhile isPadding <;> rfl
  rw [hRisky, Option.any_eq_true]
  rfl

theorem Slips.not_isRisky (h : Slips text) : isRisky text = false := by
  obtain ⟨_, blanks, c, rest, rfl, _, hBlanks, b, hb, hPadding⟩ := h
  rw [← Bool.not_eq_true, isRisky_iff, StartsFormula, ← List.find?_not_eq_head?_dropWhile,
    List.find?_append]
  rintro ⟨d, hd, hSign⟩
  obtain ⟨e, he⟩ := Option.isSome_iff_exists.mp
    (List.find?_isSome.mpr ⟨b, hb, by simp [hPadding]⟩ :
      (blanks.find? fun c => !isPadding c).isSome = true)
  rw [he] at hd
  cases hd
  have hBlank := hBlanks d (List.mem_of_find?_eq_some he)
  rw [not_isBlank_of_isSign hSign] at hBlank
  cases hBlank

theorem isRisky_of_sign {before rest : List Char} {c : Char} (hSign : isSign c = true)
    (hBefore : ∀ b ∈ before, isPadding b = true) : isRisky (before ++ c :: rest) = true := by
  rw [isRisky_iff, startsFormula_dropWhile_iff]
  · exact ⟨before, c, rest, rfl, hSign, hBefore⟩
  · intro d hd
    rw [← Bool.not_eq_true]
    intro hPadding
    have hBlank := isBlank_of_isPadding hPadding
    rw [not_isBlank_of_isSign hd] at hBlank
    cases hBlank

theorem head?_readBack_of_isRisky (h : isRisky text = true) :
    (readBack text).head? = some '\'' := by
  have hBlank : Text.isBlank '\'' = false := by decide
  rw [readBack, guarded, if_pos h]
  split
  · rfl
  · rw [Text.head?_trim, Text.trimLeft_eq_self hBlank, List.head?_cons]

theorem startsFormula_readBack_iff (text : List Char) :
    StartsFormula (readBack text) ↔ Slips text := by
  cases hRisky : isRisky text with
  | true =>
    refine iff_of_false ?_ fun hSlips => ?_
    · rintro ⟨c, hc, hSign⟩
      rw [head?_readBack_of_isRisky hRisky] at hc
      cases hc
      cases hSign
    · rw [hSlips.not_isRisky] at hRisky
      cases hRisky
  | false =>
    have hGuarded : guarded text = text := by simp [guarded, hRisky]
    have hNoSign : ∀ before c rest, text = before ++ c :: rest → isSign c = true →
        ∃ b ∈ before, isPadding b = false := by
      rintro before c rest rfl hSign
      by_contra! hPadding
      rw [isRisky_of_sign hSign fun b hb => Bool.eq_true_of_not_eq_false (hPadding b hb)] at hRisky
      cases hRisky
    -- in quotes the text is read as it is, and its blanks hide the sign; else they are trimmed
    rw [readBack, hGuarded, Slips]
    cases hQuotes : needsQuotes text with
    | true =>
      refine iff_of_false ?_ (by simp)
      rintro ⟨c, hc, hSign⟩
      obtain ⟨rest, rfl⟩ := List.head?_eq_some_iff.mp hc
      obtain ⟨b, hb, _⟩ := hNoSign [] c rest rfl hSign
      cases hb
    | false =>
      rw [if_neg Bool.false_ne_true, StartsFormula, Text.head?_trim, ← StartsFormula, Text.trimLeft,
        startsFormula_dropWhile_iff fun c => not_isBlank_of_isSign]
      constructor
      · rintro ⟨before, c, rest, hText, hSign, hBefore⟩
        exact ⟨rfl, before, c, rest, hText, hSign, hBefore, hNoSign before c rest hText hSign⟩
      · rintro ⟨_, before, c, rest, hText, hSign, hBefore, _⟩
        exact ⟨before, c, rest, hText, hSign, hBefore⟩

theorem rows_render_eq_ok {doc : Document} {fields : List (List String)}
    (h : rows (render doc) = .ok fields) : fields = doc.displayGrid.map rowRead := by
  rw [rows_render] at h
  split at h <;> cases h
  rfl

theorem startsFormula_rowRead_iff {texts : List String} {col : Nat} {field : String}
    (hField : (rowRead texts)[col]? = some field) :
    StartsFormula field.toList ↔ ∃ text, texts[col]? = some text ∧ Slips text.toList := by
  cases texts with
  | nil =>
    cases col with
    | zero =>
      cases hField
      simp [StartsFormula]
    | succ col => cases hField
  | cons first texts =>
    rw [rowRead, List.getElem?_map] at hField
    · obtain ⟨text, hText, rfl⟩ := Option.map_eq_some_iff.mp hField
      rw [hText, String.toList_ofList, startsFormula_readBack_iff]
      simp
    · simp

theorem startsFormula_of_ofText? {text : String} (h : (Formula.ofText? text).isSome) :
    StartsFormula text.toList := by
  rw [Formula.ofText?] at h
  cases hText : text.toList with
  | nil => simp [hText] at h
  | cons c body =>
    refine ⟨c, rfl, ?_⟩
    by_cases hc : c = Formula.sigil
    · rw [hc]
      rfl
    · simp [hText, hc] at h

section ReadBack

variable {doc : Document} {fields : List (List String)}

theorem startsFormula_field_iff (h : rows (render doc) = .ok fields) {row col : Nat}
    {field : String} (hField : fields[row]?.bind (·[col]?) = some field) :
    StartsFormula field.toList ↔
      ∃ text, doc.displayGrid[row]?.bind (·[col]?) = some text ∧ Slips text.toList := by
  rw [rows_render_eq_ok h, List.getElem?_map] at hField
  cases hRow : doc.displayGrid[row]? with
  | none =>
    rw [hRow] at hField
    cases hField
  | some texts =>
    rw [hRow] at hField
    exact startsFormula_rowRead_iff hField

theorem slips_of_formula (h : rows (render doc) = .ok fields) {cell : Address}
    (hFormula : ((Document.ofRows fields).sheet.formula? cell).isSome) :
    ∃ text, doc.displayGrid[cell.row]?.bind (·[cell.col]?) = some text ∧ Slips text.toList := by
  have hText : (Document.ofRows fields).sheet.text cell = Sheet.text ⟨fields⟩ cell :=
    Sheet.text_padded ⟨fields⟩ cell
  rw [Sheet.formula?, hText, Sheet.text_eq] at hFormula
  have hSign := startsFormula_of_ofText? hFormula
  cases hField : fields[cell.row]?.bind (·[cell.col]?) with
  | none => simp [hField, StartsFormula] at hSign
  | some field =>
    rw [hField] at hSign
    exact (startsFormula_field_iff h hField).mp hSign

/-- What an export is read back to has signs only where a displayed text slips past the guard, and
formulas nowhere else. -/
theorem signs_only_from_slips (h : rows (render doc) = .ok fields) :
    (∀ (row col : Nat) (field : String), fields[row]?.bind (·[col]?) = some field →
      (StartsFormula field.toList ↔
        ∃ text, doc.displayGrid[row]?.bind (·[col]?) = some text ∧ Slips text.toList)) ∧
    ∀ cell, ((Document.ofRows fields).sheet.formula? cell).isSome →
      ∃ text, doc.displayGrid[cell.row]?.bind (·[cell.col]?) = some text ∧ Slips text.toList :=
  ⟨fun _ _ _ hField => startsFormula_field_iff h hField, fun _ => slips_of_formula h⟩

end ReadBack

theorem sign_from_slip_behind_wide_space : ∃ text : String,
    (Document.ofSheet ⟨[["\u3000+1", " +1"]]⟩).displayGrid[0]?.bind (·[0]?) = some text ∧
      Slips text.toList := by
  have hRead : rows (render (.ofSheet ⟨[["\u3000+1", " +1"]]⟩)) = .ok [["+1", "' +1"]] := by
    decide +kernel
  exact ((signs_only_from_slips hRead).1 0 0 "+1" rfl).mp ⟨'+', rfl, rfl⟩

/-- A text that stands for itself is a formula when it is read back. -/
theorem formula_from_wide_space :
    ((Document.ofSheet ⟨[["\u3000=A2"]]⟩).sheet.formula? ⟨0, 0⟩).isSome = false ∧
      rows (render (.ofSheet ⟨[["\u3000=A2"]]⟩)) = .ok [["=A2"]] ∧
        ((Document.ofRows [["=A2"]]).sheet.formula? ⟨0, 0⟩).isSome = true := by
  decide +kernel

end FormulaGrid.Csv
