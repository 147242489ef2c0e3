import FormulaGrid.Proofs.Address.Label
import FormulaGrid.Proofs.Text.Blank

/-!
# Words

Letters, digits and points make up words. Labels are words, and so are digits with points among them. No
other mark stands in a word and no blank, so trimming takes away what blanks there are around it.
-/

set_option autoImplicit false

namespace FormulaGrid

namespace Text

def IsWord (text : List Char) : Prop :=
  text ≠ [] ∧ ∀ c ∈ text, c.isAlphanum = true ∨ c = '.'

variable {before word after : List Char}

theorem isWord_of_numerals (hNil : word ≠ [])
    (hNumerals : ∀ c ∈ word, c.isDigit = true ∨ c = '.') : IsWord word := by
  refine ⟨hNil, fun c hc => (hNumerals c hc).imp_left fun hDigit => ?_⟩
  rw [Char.isAlphanum, hDigit, Bool.or_true]

namespace IsWord

theorem not_mem (h : IsWord word) {mark : Char} (hMark : mark.isAlphanum = false)
    (hPoint : mark ≠ '.') : mark ∉ word := by
  intro hMem
  rcases h.2 mark hMem with hAlphanum | hSame
  · rw [hMark] at hAlphanum
    cases hAlphanum
  · exact hPoint hSame

theorem isBlank_of_mem (h : IsWord word) {c : Char} (hc : c ∈ word) : isBlank c = false := by
  have hRange : 46 ≤ c.toNat ∧ c.toNat ≤ 122 := by
    rcases h.2 c hc with hAlphanum | rfl
    · rw [Char.isAlphanum, Bool.or_eq_true, Address.isAlpha_iff_toNat,
        Char.isDigit_iff_toNat] at hAlphanum
      have hDigits : '0'.toNat = 48 ∧ '9'.toNat = 57 := ⟨rfl, rfl⟩
      omega
    · decide
  simp only [isBlank, Bool.or_eq_false_iff, Bool.and_eq_false_iff, decide_eq_false_iff_not,
    beq_eq_false_iff_ne]
  omega

theorem trim_append (h : IsWord word) (hBefore : ∀ c ∈ before, isBlank c = true)
    (hAfter : ∀ c ∈ after, isBlank c = true) : trim (before ++ word ++ after) = word := by
  rw [trim_eq_iff]
  refine ⟨⟨?_, ?_⟩, before, after, rfl, hBefore, hAfter⟩
  · exact fun c hc => h.isBlank_of_mem (List.mem_of_mem_head? hc)
  · exact fun c hc => h.isBlank_of_mem (List.mem_of_mem_getLast? hc)

theorem trim_eq (h : IsWord word) : trim word = word := by
  have hTrim := h.trim_append (List.forall_mem_nil _) (List.forall_mem_nil _)
  rwa [List.append_nil, List.nil_append] at hTrim

end IsWord
end Text

namespace Address

variable {text letters digits : List Char}

theorem Spells.isWord (h : Spells text letters digits) : Text.IsWord text := by
  rw [h.text_eq]
  constructor
  · exact List.append_ne_nil_of_left_ne_nil h.letters_ne_nil _
  · rw [List.forall_mem_append]
    constructor
    · intro c hc
      rw [Char.isAlphanum, h.isAlpha c hc]
      exact .inl rfl
    · intro c hc
      rw [Char.isAlphanum, h.isDigit c hc, Bool.or_true]
      exact .inl rfl

theorem Spells.head (h : Spells text letters digits) :
    ∃ c rest, text = c :: rest ∧ c.isAlpha = true := by
  obtain ⟨c, rest, hLetters⟩ := List.exists_cons_of_ne_nil h.letters_ne_nil
  refine ⟨c, rest ++ digits, ?_, h.isAlpha c ?_⟩
  · rw [h.text_eq, hLetters, List.cons_append]
  · rw [hLetters]
    exact List.mem_cons_self

theorem isWord_of_ofChars? {cell : Address} (h : ofChars? text = some cell) :
    Text.IsWord text := by
  obtain ⟨letters, digits, hSpells⟩ := exists_spells_of_isSome (Option.isSome_of_eq_some h)
  exact hSpells.isWord

theorem isWord_labelChars (cell : Address) : Text.IsWord cell.labelChars :=
  (names_labelChars cell).isWord

end Address

end FormulaGrid
