import FormulaGrid.Number.Positional

/-!
# The characters of number texts

Besides the text of a failure, the text of a number has digits, a point and a sign in it and
nothing else. So it cannot be taken for another failure, and it needs no care where texts are put together.
-/

set_option autoImplicit false

namespace FormulaGrid.Number

def isNumeral (c : Char) : Bool := c.isDigit || c == '.' || c == '-'

theorem Decimal.isNumeral_of_mem_positional {x : Decimal} {c : Char} (h : c ∈ x.positional) :
    isNumeral c = true := by
  have hDigit : ∀ d ∈ Nat.toDigits 10 x.digits, isNumeral d = true := by
    intro d hd
    rw [isNumeral, Nat.isDigit_of_mem_toDigits (by decide) (by decide) hd]
    rfl
  have hZero : ∀ n, ∀ d ∈ List.replicate n '0', isNumeral d = true := by
    intro n d hd
    rw [(List.mem_replicate.mp hd).2]
    rfl
  rw [positional] at h
  split at h
  · rcases List.mem_append.mp h with h | h
    · exact hDigit c h
    · exact hZero _ c h
  · -- What stands before and after the point are parts of the padded digits.
    have hPadded : ∀ d ∈ List.replicate ((-x.scale).toNat + 1 - (Nat.toDigits 10 x.digits).length) '0'
        ++ Nat.toDigits 10 x.digits, isNumeral d = true := by
      intro d hd
      exact (List.mem_append.mp hd).elim (hZero _ d) (hDigit d)
    rcases List.mem_append.mp h with h | h
    · exact hPadded c (List.mem_of_mem_take h)
    · rcases List.mem_cons.mp h with rfl | h
      · rfl
      · exact hPadded c (List.mem_of_mem_drop h)

theorem Binary64.isNumeral_of_mem_text {x : Binary64} {c : Char} (h : c ∈ x.text.toList) :
    isNumeral c = true := by
  rw [text] at h
  split at h
  · rw [List.mem_singleton.mp h]
    rfl
  · rw [String.toList_ofList] at h
    split at h
    · rcases List.mem_cons.mp h with rfl | h
      · rfl
      · exact Decimal.isNumeral_of_mem_positional h
    · exact Decimal.isNumeral_of_mem_positional h

theorem text_eq_invalidText_or (x : Float) :
    text x = invalidText ∨ ∀ c ∈ (text x).toList, isNumeral c = true := by
  rw [text]
  split
  · exact .inr fun _ h => Binary64.isNumeral_of_mem_text h
  · exact .inl rfl

end FormulaGrid.Number
