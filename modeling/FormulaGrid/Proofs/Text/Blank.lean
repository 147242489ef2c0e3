import FormulaGrid.Text.Blank

/-!
# Trimming

Trimming a text from the left leaves nothing or a text that starts with a character that is not
blank, and trimming from the right leaves such a character where it is. A trimmed text is what remains
of a text without blanks at its two ends, and a text of which nothing is taken is trimmed already.
-/

set_option autoImplicit false

namespace FormulaGrid.Text

theorem isBlank_of_trimLeft {text rest : List Char} {c : Char} (h : trimLeft text = c :: rest) :
    isBlank c = false := by
  have hHead := List.head?_dropWhile_not isBlank text
  rw [trimLeft] at h
  rw [h] at hHead
  simpa using hHead

theorem trimLeft_eq_self {c : Char} (hc : isBlank c = false) (rest : List Char) :
    trimLeft (c :: rest) = c :: rest := by
  rw [trimLeft, List.dropWhile_cons_of_neg]
  rw [hc]
  exact Bool.false_ne_true

theorem trimRight_cons {c : Char} (hc : isBlank c = false) (rest : List Char) :
    trimRight (c :: rest) = c :: trimRight rest := by
  rw [trimRight, trimRight, List.reverse_cons, List.dropWhile_append]
  split
  · rename_i hEmpty
    rw [List.isEmpty_iff] at hEmpty
    rw [hEmpty, List.dropWhile_cons_of_neg (by simp [hc])]
    rfl
  · rw [List.reverse_append]
    rfl

theorem head?_trim (text : List Char) : (trim text).head? = (trimLeft text).head? := by
  rw [trim]
  cases h : trimLeft text with
  | nil => rfl
  | cons c rest =>
    rw [trimRight_cons (isBlank_of_trimLeft h)]
    rfl

structure IsTrimmed (text : List Char) : Prop where
  head : ∀ c ∈ text.head?, isBlank c = false
  last : ∀ c ∈ text.getLast?, isBlank c = false

theorem trimLeft_append {before kept : List Char} (hBefore : ∀ c ∈ before, isBlank c = true)
    (hKept : ∀ c ∈ kept.head?, isBlank c = false) : trimLeft (before ++ kept) = kept := by
  rw [trimLeft, List.dropWhile_append_of_pos hBefore]
  cases kept with
  | nil => rfl
  | cons c rest => exact trimLeft_eq_self (hKept c rfl) rest

theorem trimRight_append {kept after : List Char} (hAfter : ∀ c ∈ after, isBlank c = true)
    (hKept : ∀ c ∈ kept.getLast?, isBlank c = false) : trimRight (kept ++ after) = kept := by
  have hLeft : trimLeft (after.reverse ++ kept.reverse) = kept.reverse := by
    apply trimLeft_append
    · simpa using hAfter
    · simpa using hKept
  rw [trimRight, List.reverse_append, ← trimLeft, hLeft, List.reverse_reverse]

theorem trimLeft_spec (text : List Char) : ∃ before, text = before ++ trimLeft text ∧
    ∀ c ∈ before, isBlank c = true :=
  ⟨text.takeWhile isBlank, (List.takeWhile_append_dropWhile ..).symm,
    List.all_eq_true.mp List.all_takeWhile⟩

theorem trimRight_spec (text : List Char) : ∃ after, text = trimRight text ++ after ∧
    ∀ c ∈ after, isBlank c = true := by
  obtain ⟨before, hText, hBefore⟩ := trimLeft_spec text.reverse
  refine ⟨before.reverse, ?_, by simpa using hBefore⟩
  rw [trimRight, ← trimLeft, ← List.reverse_append, ← hText, List.reverse_reverse]

theorem isTrimmed_trim (text : List Char) : IsTrimmed (trim text) where
  head c hc := by
    rw [head?_trim] at hc
    obtain ⟨rest, hRest⟩ := List.head?_eq_some_iff.mp hc
    exact isBlank_of_trimLeft hRest
  last c hc := by
    rw [trim, trimRight, List.getLast?_reverse] at hc
    obtain ⟨rest, hRest⟩ := List.head?_eq_some_iff.mp hc
    exact isBlank_of_trimLeft hRest

theorem trim_eq_iff {text kept : List Char} : trim text = kept ↔ IsTrimmed kept ∧
    ∃ before after, text = before ++ kept ++ after ∧ (∀ c ∈ before, isBlank c = true) ∧
      ∀ c ∈ after, isBlank c = true := by
  constructor
  · rintro rfl
    obtain ⟨before, hText, hBefore⟩ := trimLeft_spec text
    obtain ⟨after, hLeft, hAfter⟩ := trimRight_spec (trimLeft text)
    refine ⟨isTrimmed_trim text, before, after, ?_, hBefore, hAfter⟩
    rw [List.append_assoc, trim, ← hLeft, ← hText]
  · rintro ⟨hKept, before, after, rfl, hBefore, hAfter⟩
    cases hEmpty : kept with
    | nil =>
      -- all that there is goes from the left
      have hBlank : trimLeft (before ++ after) = [] := by
        rw [← List.append_nil (before ++ after)]
        apply trimLeft_append
        · simpa [or_imp, forall_and] using ⟨hBefore, hAfter⟩
        · simp
      rw [List.append_nil, trim, hBlank]
      rfl
    | cons c rest =>
      rw [hEmpty] at hKept
      have hLeft : trimLeft (before ++ (c :: rest ++ after)) = c :: rest ++ after :=
        trimLeft_append hBefore hKept.head
      rw [List.append_assoc, trim, hLeft, trimRight_append hAfter hKept.last]

theorem trim_eq_self_iff {text : List Char} : trim text = text ↔ IsTrimmed text := by
  rw [trim_eq_iff]
  exact and_iff_left ⟨[], [], by simp⟩

theorem trim_eq_nil_iff {text : List Char} :
    trim text = [] ↔ ∀ c ∈ text, isBlank c = true := by
  rw [trim_eq_iff]
  constructor
  · rintro ⟨-, before, after, rfl, hBefore, hAfter⟩
    simpa [or_imp, forall_and] using ⟨hBefore, hAfter⟩
  · intro h
    exact ⟨⟨by simp, by simp⟩, text, [], by simp, h, by simp⟩

theorem trim_ne_nil_iff {text : List Char} :
    trim text ≠ [] ↔ ∃ c ∈ text, isBlank c = false := by
  rw [ne_eq, trim_eq_nil_iff]
  simp

end FormulaGrid.Text
