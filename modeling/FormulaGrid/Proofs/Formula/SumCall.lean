import FormulaGrid.Formula.Basic
import FormulaGrid.Proofs.Text.Pieces
import FormulaGrid.Proofs.Text.Words

/-!
# Calls of the sum

A text is a sum just if all of it is the name, in any case, and two labels that can be read, in parentheses
and with a colon between them. A pattern that is loose about the case of letters everywhere finds the
labels, and labels are then read on their own.
-/

set_option autoImplicit false

namespace FormulaGrid

namespace Address

theorem toNat_toLower (c : Char) :
    c.toLower.toNat = if 65 ≤ c.toNat ∧ c.toNat ≤ 90 then c.toNat + 32 else c.toNat := by
  have hRange : c.val ≥ 'A'.val ∧ c.val ≤ 'Z'.val ↔ 65 ≤ c.toNat ∧ c.toNat ≤ 90 := by
    simp only [ge_iff_le, UInt32.le_iff_toNat_le]
    rfl
  by_cases h : c.val ≥ 'A'.val ∧ c.val ≤ 'Z'.val
  · have hLower : c.toLower.toNat = (c.val + 32).toNat := congrArg Char.toNat (dif_pos h)
    have hCode := hRange.mp h
    rw [hLower, UInt32.toNat_add, if_pos hCode]
    change (c.toNat + 32) % 2 ^ 32 = _
    omega
  · have hLower : c.toLower = c := dif_neg h
    rw [hLower, if_neg (hRange.not.mp h)]

end Address

namespace SumCall

/-- Simple case folding, as far as it leads to ASCII letters. Beyond ASCII that are the long s and the
Kelvin sign. -/
def fold (c : Char) : Char :=
  if c = 'ſ' then 's' else if c = '\u212a' then 'k' else c.toLower

theorem toLower_eq_iff {c x : Char} (hx : 97 ≤ x.toNat ∧ x.toNat ≤ 122) :
    c.toLower = x ↔ c = x.toUpper ∨ c = x := by
  simp only [← Char.toNat_inj, Address.toNat_toLower, Address.toNat_toUpper, if_pos hx]
  split <;> omega

theorem fold_eq_iff {c x : Char} (hx : 97 ≤ x.toNat ∧ x.toNat ≤ 122) :
    fold c = x ↔ c = x.toUpper ∨ c = x ∨ c = 'ſ' ∧ x = 's' ∨ c = '\u212a' ∧ x = 'k' := by
  have hFar : ∀ far : Char, 128 ≤ far.toNat → far ≠ x.toUpper ∧ far ≠ x := by
    intro far h
    simp only [ne_eq, ← Char.toNat_inj, Address.toNat_toUpper, if_pos hx]
    omega
  by_cases hS : c = 'ſ'
  · subst hS
    simp [fold, hFar 'ſ' (by decide), eq_comm]
  · by_cases hK : c = '\u212a'
    · subst hK
      simp [fold, hFar '\u212a' (by decide), eq_comm]
    · simp [fold, hS, hK, toLower_eq_iff hx]

theorem fold_eq_s_iff {c : Char} : fold c = 's' ↔ isS c = true := by
  rw [fold_eq_iff (by decide)]
  simp [isS, or_assoc]

theorem fold_eq_u_iff {c : Char} : fold c = 'u' ↔ isU c = true := by
  rw [fold_eq_iff (by decide)]
  simp [isU]

theorem fold_eq_m_iff {c : Char} : fold c = 'm' ↔ isM c = true := by
  rw [fold_eq_iff (by decide)]
  simp [isM]

def IsName (word : List Char) : Prop := word.map fold = ['s', 'u', 'm']

theorem isName_iff {word : List Char} : IsName word ↔
    ∃ s u m, word = [s, u, m] ∧ isS s = true ∧ isU u = true ∧ isM m = true := by
  rw [IsName]
  constructor
  · intro h
    obtain ⟨s, rest, rfl, hs, h⟩ := List.map_eq_cons_iff.mp h
    obtain ⟨u, rest, rfl, hu, h⟩ := List.map_eq_cons_iff.mp h
    obtain ⟨m, rest, rfl, hm, h⟩ := List.map_eq_cons_iff.mp h
    rw [List.map_eq_nil_iff.mp h]
    exact ⟨s, u, m, rfl, fold_eq_s_iff.mp hs, fold_eq_u_iff.mp hu, fold_eq_m_iff.mp hm⟩
  · rintro ⟨s, u, m, rfl, hs, hu, hm⟩
    rw [List.map, List.map, List.map, List.map, fold_eq_s_iff.mpr hs, fold_eq_u_iff.mpr hu,
      fold_eq_m_iff.mpr hm]

def spell (word left right : List Char) : List Char :=
  word ++ '(' :: (left ++ ':' :: (right ++ [')']))

def IsCall (isName : List Char → Prop) (body : List Char) (first last : Address) : Prop :=
  ∃ word left right, isName word ∧ body = spell word left right ∧
    Address.ofChars? left = some first ∧ Address.ofChars? right = some last

variable {body left right : List Char} {block : Block}

theorem arguments?_append (hLeft : ':' ∉ left) (hRight : ')' ∉ right) :
    arguments? (left ++ ':' :: (right ++ [')'])) = do
      return .spanning (← Address.ofChars? left) (← Address.ofChars? right) := by
  obtain ⟨hFirst, hRest⟩ := Text.cut_append hLeft (right ++ [')'])
  obtain ⟨hLast, hEnd⟩ := Text.cut_append hRight []
  rw [arguments?.eq_def, hRest]
  simp only [hEnd, hFirst, hLast]

theorem block?_spell {word : List Char} (hWord : IsName word) (hLeft : ':' ∉ left)
    (hRight : ')' ∉ right) : block? (spell word left right) = do
      return .spanning (← Address.ofChars? left) (← Address.ofChars? right) := by
  obtain ⟨s, u, m, rfl, hs, hu, hm⟩ := isName_iff.mp hWord
  rw [← arguments?_append hLeft hRight]
  simp [block?, spell, hs, hu, hm]

theorem exists_of_block? (h : block? body = some block) : ∃ first last,
    IsCall IsName body first last ∧ block = .spanning first last := by
  rw [block?.eq_def] at h
  split at h
  · rename_i s u m rest
    split at h
    · rename_i hName
      simp only [Bool.and_eq_true] at hName
      rw [arguments?.eq_def] at h
      split at h
      · rename_i colon right hText
        split at h
        · rename_i paren hRight
          obtain ⟨first, hFirst, h⟩ := Option.bind_eq_some_iff.mp h
          obtain ⟨last, hLast, h⟩ := Option.bind_eq_some_iff.mp h
          cases h
          refine ⟨first, last, ⟨[s, u, m], _, _, ?_, ?_, hFirst, hLast⟩, rfl⟩
          · exact isName_iff.mpr ⟨s, u, m, rfl, hName.1.1, hName.1.2, hName.2⟩
          · rw [spell, ← Text.eq_append_of_dropWhile hRight, ← Text.eq_append_of_dropWhile hText]
            rfl
        · cases h
      · cases h
    · cases h
  · cases h

theorem block?_eq_some_iff : block? body = some block ↔
    ∃ first last, IsCall IsName body first last ∧ block = .spanning first last := by
  constructor
  · exact exists_of_block?
  · rintro ⟨first, last, ⟨word, left, right, hWord, rfl, hFirst, hLast⟩, rfl⟩
    have hLeft : ':' ∉ left := (Address.isWord_of_ofChars? hFirst).not_mem rfl (by decide)
    have hRight : ')' ∉ right := (Address.isWord_of_ofChars? hLast).not_mem rfl (by decide)
    rw [block?_spell hWord hLeft hRight, hFirst, hLast]
    rfl

def IsLoose (text : List Char) : Prop :=
  ∃ letters digits, text = letters ++ digits ∧ letters ≠ [] ∧ digits ≠ [] ∧
    (∀ c ∈ letters, (fold c).isLower = true) ∧ ∀ c ∈ digits, c.isDigit = true

/-- What the pattern `(?i)^SUM\(([A-Z]+[0-9]+):([A-Z]+[0-9]+)\)$` captures. -/
def Captures (body left right : List Char) : Prop :=
  ∃ word, IsName word ∧ body = spell word left right ∧ IsLoose left ∧ IsLoose right

theorem IsLoose.not_mem {mark : Char} (h : IsLoose left) (hFold : (fold mark).isLower = false)
    (hDigit : mark.isDigit = false) : mark ∉ left := by
  obtain ⟨letters, digits, rfl, -, -, hLetters, hDigits⟩ := h
  rw [List.mem_append, not_or]
  constructor
  · intro hMem
    rw [hLetters mark hMem] at hFold
    cases hFold
  · intro hMem
    rw [hDigits mark hMem] at hDigit
    cases hDigit

theorem isLower_fold {c : Char} (h : c.isAlpha = true) : (fold c).isLower = true := by
  have hRange := Address.isAlpha_iff_toNat.mp h
  have hFar : 'ſ'.toNat = 383 ∧ '\u212a'.toNat = 8490 := ⟨rfl, rfl⟩
  have hLower : fold c = c.toLower := by
    rw [fold, if_neg, if_neg]
    · rintro rfl
      omega
    · rintro rfl
      omega
  have hBounds : 97 ≤ c.toLower.toNat ∧ c.toLower.toNat ≤ 122 := by
    rw [Address.toNat_toLower]
    split <;> omega
  rw [hLower]
  change (decide (c.toLower.val ≥ 'a'.val) && decide (c.toLower.val ≤ 'z'.val)) = true
  simp only [Bool.and_eq_true, decide_eq_true_eq, ge_iff_le, UInt32.le_iff_toNat_le]
  exact hBounds

theorem isLoose_of_ofChars? (h : (Address.ofChars? left).isSome) : IsLoose left := by
  obtain ⟨letters, digits, hSpells⟩ := Address.exists_spells_of_isSome h
  exact ⟨letters, digits, hSpells.text_eq, hSpells.letters_ne_nil, hSpells.digits_ne_nil,
    fun c hc => isLower_fold (hSpells.isAlpha c hc), hSpells.isDigit⟩

theorem block?_of_captures (h : Captures body left right) : block? body = do
    return .spanning (← Address.ofChars? left) (← Address.ofChars? right) := by
  obtain ⟨word, hWord, rfl, hLeft, hRight⟩ := h
  exact block?_spell hWord (hLeft.not_mem rfl rfl) (hRight.not_mem rfl rfl)

theorem captures_of_isCall {first last : Address} (h : IsCall IsName body first last) :
    ∃ left right, Captures body left right := by
  obtain ⟨word, left, right, hWord, hBody, hFirst, hLast⟩ := h
  exact ⟨left, right, word, hWord, hBody, isLoose_of_ofChars? (Option.isSome_of_eq_some hFirst),
    isLoose_of_ofChars? (Option.isSome_of_eq_some hLast)⟩

theorem block?_eq_none_iff :
    block? body = none ↔ ∀ first last, ¬ IsCall IsName body first last := by
  rw [Option.eq_none_iff_forall_ne_some]
  simp only [ne_eq, block?_eq_some_iff]
  constructor
  · intro h first last hCall
    exact h _ ⟨first, last, hCall, rfl⟩
  · rintro h block ⟨first, last, hCall, -⟩
    exact h first last hCall

/-- A formula is a sum just if its whole text is a call, and it sums the block between the two cells. The
pattern alone decides nothing more: where it captures no two labels that can be read, the text is a chain
or malformed like any other. -/
theorem sum_iff_call (body : String) :
    (∀ block, block? body.toList = some block ↔
      ∃ first last, IsCall IsName body.toList first last ∧ block = .spanning first last) ∧
    (∀ left right, Captures body.toList left right → block? body.toList = do
      return .spanning (← Address.ofChars? left) (← Address.ofChars? right)) ∧
    ((∀ left right, ¬ Captures body.toList left right) → block? body.toList = none) ∧
    (∀ first last, IsCall IsName body.toList first last →
      Formula.ofText? ("=" ++ body) = some (.sum (.spanning first last))) ∧
    ((∀ first last, ¬ IsCall IsName body.toList first last) →
      Formula.ofText? ("=" ++ body) = some (.ofTokens (Token.scan body.toList))) := by
  have hText : Formula.ofText? ("=" ++ body) = some (.ofBody body.toList) := by
    rw [Formula.ofText?, String.toList_append]
    rfl
  refine ⟨fun block => block?_eq_some_iff, fun left right => block?_of_captures, ?_, ?_, ?_⟩
  · intro h
    rw [block?_eq_none_iff]
    intro first last hCall
    obtain ⟨left, right, hCaptures⟩ := captures_of_isCall hCall
    exact h left right hCaptures
  · intro first last hCall
    rw [hText, Formula.ofBody, block?_eq_some_iff.mpr ⟨first, last, hCall, rfl⟩]
  · intro h
    rw [hText, Formula.ofBody, block?_eq_none_iff.mpr h]

theorem sum_named_with_long_s :
    block? "ſUM(A1:B1)".toList = some (.spanning ⟨0, 0⟩ ⟨0, 1⟩) ∧
      ¬ ∀ (body : String) block, block? body.toList = some block ↔
        ∃ first last, IsCall (·.map Char.toUpper = ['S', 'U', 'M']) body.toList first last ∧
          block = .spanning first last := by
  have hSum : block? "ſUM(A1:B1)".toList = some (.spanning ⟨0, 0⟩ ⟨0, 1⟩) := by decide
  refine ⟨hSum, fun h => ?_⟩
  obtain ⟨first, last, ⟨word, left, right, hWord, hBody, -⟩, -⟩ := (h _ _).mp hSum
  obtain ⟨s, rest, rfl, hUpper, -⟩ := List.map_eq_cons_iff.mp hWord
  have hHead : 'ſ' = s := (List.cons.inj hBody).1
  rw [← hHead] at hUpper
  exact absurd hUpper (by decide)

end SumCall
end FormulaGrid
