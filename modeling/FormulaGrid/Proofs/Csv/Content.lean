import FormulaGrid.Proofs.Csv.Guard

/-!
# The content of an export

A grid without line feeds, and with a cell in each row, is read back cell by cell. A field is the text
that was displayed, but for the apostrophe of the guard and, where nothing asked for quotes, the blanks
at the ends.
-/

set_option autoImplicit false

namespace FormulaGrid.Csv

def Risky (text : List Char) : Prop := StartsFormula (text.dropWhile isPadding)

/-- The text has a character for which it is put in quotes, line feeds apart. -/
def AsksQuotes (text : List Char) : Prop := ',' ∈ text ∨ '"' ∈ text ∨ '\r' ∈ text

/-- A text is written with an apostrophe in front or as it is, and the field is what was written, in
full or trimmed. -/
def ReadsAs (text field : List Char) : Prop :=
  ∃ written, (Risky text ∧ written = '\'' :: text ∨ ¬ Risky text ∧ written = text) ∧
    (AsksQuotes written ∧ field = written ∨ ¬ AsksQuotes written ∧ field = Text.trim written)

variable {text : List Char}

theorem needsQuotes_iff_asksQuotes (h : '\n' ∉ text) : needsQuotes text = true ↔ AsksQuotes text := by
  simp [needsQuotes_iff, AsksQuotes, h]

theorem newline_not_mem_guarded (h : '\n' ∉ text) : '\n' ∉ guarded text := by
  intro hGuarded
  rcases mem_guarded hGuarded with hText | hQuote
  · exact h hText
  · cases hQuote

theorem readsAs_readBack (h : '\n' ∉ text) : ReadsAs text (readBack text) := by
  have hQuotes := needsQuotes_iff_asksQuotes (newline_not_mem_guarded h)
  refine ⟨guarded text, ?_, ?_⟩
  · rw [guarded]
    split
    · exact .inl ⟨isRisky_iff.mp ‹_›, rfl⟩
    · rename_i hRisky
      exact .inr ⟨hRisky ∘ isRisky_iff.mpr, rfl⟩
  · rw [readBack]
    split
    · exact .inl ⟨hQuotes.mp ‹_›, rfl⟩
    · rename_i hPlain
      exact .inr ⟨hPlain ∘ hQuotes.mpr, rfl⟩

theorem not_risky_apostrophe (rest : List Char) : ¬ Risky ('\'' :: rest) := by
  rintro ⟨c, hc, hSign⟩
  rw [List.dropWhile_cons_of_neg (by decide)] at hc
  cases hc
  cases hSign

theorem readBack_eq_self_iff (h : '\n' ∉ text) : readBack text = text ↔
    ¬ Risky text ∧ (Text.IsTrimmed text ∨ AsksQuotes text) := by
  cases hRisky : isRisky text with
  | true =>
    have hText : Risky text := isRisky_iff.mp hRisky
    refine iff_of_false ?_ fun hPlain => hPlain.1 hText
    intro hSelf
    have hHead := head?_readBack_of_isRisky hRisky
    rw [hSelf] at hHead
    obtain ⟨rest, rfl⟩ := List.head?_eq_some_iff.mp hHead
    exact not_risky_apostrophe rest hText
  | false =>
    have hText : ¬ Risky text := by
      rw [Risky, ← isRisky_iff, hRisky]
      exact Bool.false_ne_true
    rw [and_iff_right hText, readBack, guarded, hRisky, if_neg Bool.false_ne_true,
      ← needsQuotes_iff_asksQuotes h]
    split
    · rename_i hQuotes
      exact iff_of_true rfl (.inr hQuotes)
    · rename_i hQuotes
      rw [Text.trim_eq_self_iff, or_iff_left hQuotes]

theorem map_eq_self_iff {α : Type} {f : α → α} {xs : List α} : xs.map f = xs ↔ ∀ x ∈ xs, f x = x := by
  rw [← List.forall₂_eq_eq_eq, List.forall₂_map_left_iff, List.forall₂_same]

theorem rowRead_eq_map {texts : List String} (h : texts ≠ []) :
    rowRead texts = texts.map fun text => String.ofList (readBack text.toList) := by
  cases texts with
  | nil => exact absurd rfl h
  | cons => rfl

section

variable {texts : List String} (hTexts : texts ≠ []) (hBreaks : ∀ text ∈ texts, '\n' ∉ text.toList)
include hTexts hBreaks

theorem readsAs_rowRead :
    List.Forall₂ (fun text field => ReadsAs text.toList field.toList) texts (rowRead texts) := by
  rw [rowRead_eq_map hTexts, List.forall₂_map_right_iff, List.forall₂_same]
  intro text hText
  rw [String.toList_ofList]
  exact readsAs_readBack (hBreaks text hText)

theorem rowRead_eq_self_iff : rowRead texts = texts ↔ ∀ text ∈ texts,
    ¬ Risky text.toList ∧ (Text.IsTrimmed text.toList ∨ AsksQuotes text.toList) := by
  rw [rowRead_eq_map hTexts, map_eq_self_iff]
  refine forall₂_congr fun text hText => ?_
  rw [← readBack_eq_self_iff (hBreaks text hText), ← String.toList_inj, String.toList_ofList]

end

/-- An export without line feeds in it is read back row by row and field by field, and comes back as it
was displayed if and only if no text is risky and each is trimmed or asks for quotes. -/
theorem content_reads_back (doc : Document) (hRows : ∀ texts ∈ doc.displayGrid, texts ≠ [])
    (hBreaks : ∀ texts ∈ doc.displayGrid, ∀ text ∈ texts, '\n' ∉ text.toList) :
    ∃ fields, rows (render doc) = .ok fields ∧
      List.Forall₂ (List.Forall₂ fun text field => ReadsAs text.toList field.toList)
        doc.displayGrid fields ∧
      (fields = doc.displayGrid ↔ ∀ texts ∈ doc.displayGrid, ∀ text ∈ texts,
        ¬ Risky text.toList ∧ (Text.IsTrimmed text.toList ∨ AsksQuotes text.toList)) := by
  have hNone : doc.displayGrid.findIdx? hasBreak = none := by
    rw [List.findIdx?_eq_none_iff]
    intro texts hTexts
    rw [← Bool.not_eq_true, hasBreak_iff]
    rintro ⟨text, hText, hBreak⟩
    exact hBreaks texts hTexts text hText hBreak
  refine ⟨doc.displayGrid.map rowRead, ?_, ?_, ?_⟩
  · rw [rows_render, hNone]
  · rw [List.forall₂_map_right_iff, List.forall₂_same]
    exact fun texts hTexts => readsAs_rowRead (hRows texts hTexts) (hBreaks texts hTexts)
  · rw [map_eq_self_iff]
    exact forall₂_congr fun texts hTexts =>
      rowRead_eq_self_iff (hRows texts hTexts) (hBreaks texts hTexts)

theorem content_reads_back_of_jagged_rows : ∃ fields,
    rows (render (.ofSheet ⟨[["a b", " =1"], [" ,\r"], ["", "=1/0", " c"]]⟩)) = .ok fields ∧
      List.Forall₂ (List.Forall₂ fun text field => ReadsAs text.toList field.toList)
        [["a b", " =1"], [" ,\r"], ["", "#DIV/0!", " c"]] fields ∧
      fields ≠ [["a b", " =1"], [" ,\r"], ["", "#DIV/0!", " c"]] := by
  have hGrid : (Document.ofSheet ⟨[["a b", " =1"], [" ,\r"], ["", "=1/0", " c"]]⟩).displayGrid =
      [["a b", " =1"], [" ,\r"], ["", "#DIV/0!", " c"]] := by
    decide +kernel
  obtain ⟨fields, hRead, hFields, hSelf⟩ :=
    content_reads_back (.ofSheet ⟨[["a b", " =1"], [" ,\r"], ["", "=1/0", " c"]]⟩)
      (by rw [hGrid]; decide) (by rw [hGrid]; decide)
  rw [hGrid] at hFields hSelf
  refine ⟨fields, hRead, hFields, fun h => ?_⟩
  exact (hSelf.mp h _ (.head _) " =1" (.tail _ (.head _))).1 ⟨'=', rfl, rfl⟩

end FormulaGrid.Csv
