import FormulaGrid.Proofs.Formula.SumCall
import FormulaGrid.Proofs.Formula.Tokens
import FormulaGrid.Proofs.Number.Literal

/-!
# Operands that are words

Labels and literals without a sign are words: there are neither blanks nor operators nor parentheses in
them. A formula of words is a chain, and blanks around a word do not matter. A word is a literal or a
label or neither, and not both, since the one ends where the other starts: a label has a letter in front.
-/

set_option autoImplicit false

namespace FormulaGrid

theorem Text.IsWord.ofChar?_of_mem {word : List Char} (h : IsWord word) {c : Char} (hc : c ∈ word) :
    Operator.ofChar? c = none := by
  rw [Option.eq_none_iff_forall_ne_some]
  intro op hOp
  rw [Operator.ofChar?_eq_some_iff.mp hOp] at hc
  revert hc
  cases op <;> exact h.not_mem rfl (by decide)

namespace Formula

variable {body before word after : List Char}

theorem ofText?_sigil {text : String} (h : text.toList = sigil :: body) :
    ofText? text = some (ofBody body) := by
  rw [ofText?, h]
  exact if_pos rfl

theorem block?_of_not_mem (h : '(' ∉ body) : SumCall.block? body = none := by
  rw [SumCall.block?_eq_none_iff]
  rintro first last ⟨word, left, right, -, rfl, -⟩
  exact h (by simp [SumCall.spell])

theorem ofBody_of_isSplit {pieces : Chain (List Char)} (hSplit : pieces.IsSplit body)
    (hParen : '(' ∉ body) (hPieces : ∀ piece ∈ pieces.toList, Text.trim piece ≠ []) :
    ofBody body = .chain ((pieces.map Text.trim).map Operand.ofChars) := by
  rw [Chain.isSplit_iff] at hSplit
  have hTokens := Chain.ofTokens?_scan body
  rw [← hSplit, if_pos hPieces] at hTokens
  have hNil : Token.scan body ≠ [] := by
    intro hNil
    rw [hNil] at hTokens
    cases hTokens
  rw [ofBody, block?_of_not_mem hParen]
  dsimp only
  rw [ofTokens_of_ne_nil hNil, hTokens]
  rfl

theorem ofBody_word (hWord : Text.IsWord word) (hBefore : ∀ c ∈ before, Text.isBlank c = true)
    (hAfter : ∀ c ∈ after, Text.isBlank c = true) :
    ofBody (before ++ word ++ after) = .chain ⟨.ofChars word, []⟩ := by
  have hTrim := hWord.trim_append hBefore hAfter
  have hSplit : Chain.IsSplit ⟨before ++ word ++ after, []⟩ (before ++ word ++ after) := by
    refine ⟨List.append_nil _, List.forall_mem_singleton.mpr fun c hc => ?_⟩
    rw [List.mem_append, List.mem_append] at hc
    rcases hc with (hc | hc) | hc
    · exact Operator.ofChar?_of_isBlank (hBefore c hc)
    · exact hWord.ofChar?_of_mem hc
    · exact Operator.ofChar?_of_isBlank (hAfter c hc)
  rw [ofBody_of_isSplit hSplit, Chain.map, Chain.map, hTrim]
  · rfl
  · intro hMem
    rw [List.mem_append, List.mem_append] at hMem
    rcases hMem with (hMem | hMem) | hMem
    · exact absurd (hBefore _ hMem) (by decide)
    · exact hWord.not_mem rfl (by decide) hMem
    · exact absurd (hAfter _ hMem) (by decide)
  · rw [Chain.toList, List.map_nil, List.forall_mem_singleton, hTrim]
    exact hWord.1

theorem ofBody_words {left right : List Char} (op : Operator) (hLeft : Text.IsWord left)
    (hRight : Text.IsWord right) : ofBody (left ++ op.toChar :: right) =
      .chain ⟨.ofChars left, [(op, .ofChars right)]⟩ := by
  have hSplit : Chain.IsSplit ⟨left, [(op, right)]⟩ (left ++ op.toChar :: right) := by
    constructor
    · simp [Chain.spell]
    · simp only [Chain.toList, List.map_cons, List.map_nil, List.forall_mem_cons]
      exact ⟨fun c => hLeft.ofChar?_of_mem, fun c => hRight.ofChar?_of_mem, List.forall_mem_nil _⟩
  rw [ofBody_of_isSplit hSplit]
  · simp [Chain.map, hLeft.trim_eq, hRight.trim_eq]
  · have hOp : '(' ≠ op.toChar := by cases op <;> decide
    rw [List.mem_append, List.mem_cons, not_or, not_or]
    exact ⟨hLeft.not_mem rfl (by decide), hOp, hRight.not_mem rfl (by decide)⟩
  · simp [Chain.toList, hLeft.trim_eq, hRight.trim_eq, hLeft.1, hRight.1]

end Formula

theorem Address.not_isAlpha_of_numeral {c : Char} (h : c.isDigit = true ∨ c = '.') :
    c.isAlpha = false := by
  rcases h with hDigit | rfl
  · exact not_isAlpha_of_isDigit hDigit
  · rfl

theorem Number.ofText?_of_isAlpha {c : Char} {rest : List Char} (h : c.isAlpha = true) :
    ofText? (c :: rest) = none := by
  rw [Option.eq_none_iff_forall_ne_some]
  intro x hx
  have hSign : c ≠ '+' ∧ c ≠ '-' := by
    constructor <;> (rintro rfl; cases h)
  obtain ⟨d, others, hHead, hNumeral⟩ := (unsigned_of_ofText? hx fun _ hc =>
    Option.some.inj hc ▸ hSign).head
  cases hHead
  rw [Address.not_isAlpha_of_numeral hNumeral] at h
  cases h

theorem Formula.ofBody_label {cell : Address} {before label after letters digits : List Char}
    (hNames : Address.Names label letters digits cell) (hRow : cell.row < Address.maxIndex)
    (hCol : cell.col < Address.maxIndex) (hBefore : ∀ c ∈ before, Text.isBlank c = true)
    (hAfter : ∀ c ∈ after, Text.isBlank c = true) :
    Number.ofText? label = none ∧
      ofBody (before ++ label ++ after) = .chain ⟨.cell cell, []⟩ := by
  have hCell : Address.ofChars? label = some cell := by
    rw [hNames.ofChars?_eq, if_pos ⟨hRow, hCol⟩]
  have hNumber : Number.ofText? label = none := by
    obtain ⟨c, rest, rfl, hAlpha⟩ := hNames.head
    exact Number.ofText?_of_isAlpha hAlpha
  refine ⟨hNumber, ?_⟩
  rw [ofBody_word hNames.isWord hBefore hAfter, Operand.ofChars, hNumber, hCell]

variable {text mantissa digits : List Char} {x : Float}

namespace Number.Literal

variable {mark : Char}

theorem IsMantissa.isWord_append (h : IsMantissa mantissa) (hMark : mark = 'e' ∨ mark = 'E')
    (hDigits : ∀ c ∈ digits, c.isDigit = true) : Text.IsWord (mantissa ++ mark :: digits) := by
  constructor
  · simp
  · intro c hc
    rcases List.mem_append.mp hc with hc | hc
    · exact (Text.isWord_of_numerals h.1 h.2).2 c hc
    · rcases List.mem_cons.mp hc with rfl | hc
      · rcases hMark with rfl | rfl <;> exact .inl rfl
      · rw [Char.isAlphanum, hDigits c hc, Bool.or_true]
        exact .inl rfl

/-- A mantissa with a mark behind it is neither a literal nor a label. -/
theorem IsMantissa.unreadable (h : IsMantissa mantissa) (hMark : mark = 'e' ∨ mark = 'E') :
    Operand.ofChars (mantissa ++ [mark]) = .unreadable := by
  obtain ⟨c, rest, rfl⟩ := List.exists_cons_of_ne_nil h.1
  have hc := h.2 c List.mem_cons_self
  have hNumber : Number.ofText? (c :: rest ++ [mark]) = none := by
    rw [Option.eq_none_iff_forall_ne_some]
    intro x hx
    have hHead : ∀ d ∈ (c :: rest ++ [mark]).head?, d ≠ '+' ∧ d ≠ '-' := by
      rintro d hd
      cases hd
      constructor <;> (rintro rfl; revert hc; decide)
    obtain ⟨others, d, hLast, hNumeral⟩ := (Number.unsigned_of_ofText? hx hHead).last
    obtain ⟨-, hSame⟩ := List.append_inj' hLast rfl
    cases hSame
    revert hNumeral
    rcases hMark with rfl | rfl <;> decide
  have hCell : Address.ofChars? (c :: rest ++ [mark]) = none := by
    rw [← Option.not_isSome_iff_eq_none]
    intro hSome
    obtain ⟨letters, digits, hSpells⟩ := Address.exists_spells_of_isSome hSome
    obtain ⟨d, others, hHead, hAlpha⟩ := hSpells.head
    cases hHead
    rw [Address.not_isAlpha_of_numeral hc] at hAlpha
    cases hAlpha
  rw [Operand.ofChars, hNumber, hCell]

theorem Unsigned.isWord_or_cut (h : Unsigned text) : Text.IsWord text ∨
    ∃ (stem : List Char) (op : Operator) (digits : List Char),
      text = stem ++ op.toChar :: digits ∧ (op = .add ∨ op = .sub) ∧ Text.IsWord stem ∧
        Text.IsWord digits ∧ Operand.ofChars stem = .unreadable := by
  cases h with
  | plain hMantissa => exact .inl (Text.isWord_of_numerals hMantissa.1 hMantissa.2)
  | @scaled mantissa sign digits mark hMantissa hMark hSign hDigits =>
    have hStem := hMantissa.isWord_append hMark (List.forall_mem_nil _)
    have hWord := Text.isWord_of_numerals hDigits.1 fun c hc => .inl (hDigits.2 c hc)
    have hUnreadable := hMantissa.unreadable hMark
    rcases hSign with rfl | rfl | rfl
    · exact .inl (hMantissa.isWord_append hMark hDigits.2)
    · exact .inr ⟨_, .add, digits, by simp [Operator.toChar], .inl rfl, hStem, hWord, hUnreadable⟩
    · exact .inr ⟨_, .sub, digits, by simp [Operator.toChar], .inr rfl, hStem, hWord, hUnreadable⟩

end Number.Literal

theorem Formula.ofBody_literal (hRead : Number.ofText? text = some x)
    (hHead : ∀ c ∈ text.head?, c ≠ '+' ∧ c ≠ '-') :
    if '+' ∈ text ∨ '-' ∈ text then ∃ op y, ofBody text = .chain ⟨.unreadable, [(op, y)]⟩
    else ofBody text = .chain ⟨.number x, []⟩ := by
  rcases (Number.unsigned_of_ofText? hRead hHead).isWord_or_cut with hWord |
    ⟨stem, op, digits, rfl, hOp, hStem, hDigits, hUnreadable⟩
  · have hSigns : ¬ ('+' ∈ text ∨ '-' ∈ text) := by
      rw [not_or]
      exact ⟨hWord.not_mem rfl (by decide), hWord.not_mem rfl (by decide)⟩
    have hBody := ofBody_word hWord (List.forall_mem_nil _) (List.forall_mem_nil _)
    rw [List.append_nil, List.nil_append] at hBody
    rw [if_neg hSigns, hBody, Operand.ofChars, hRead]
  · rw [if_pos]
    · exact ⟨op, _, by rw [ofBody_words op hStem hDigits, hUnreadable]⟩
    · rcases hOp with rfl | rfl
      · exact .inl (by simp [Operator.toChar])
      · exact .inr (by simp [Operator.toChar])

theorem Formula.ofText?_literal {text : String} (hRead : Number.ofText? text.toList = some x)
    (hHead : ∀ c ∈ text.toList.head?, c ≠ '+' ∧ c ≠ '-') : ofText? text = none := by
  obtain ⟨c, rest, hText, hNumeral⟩ := (Number.unsigned_of_ofText? hRead hHead).head
  have hSigil : c ≠ sigil := by
    rintro rfl
    revert hNumeral
    decide
  rw [ofText?, hText]
  exact if_neg hSigil

theorem Value.toNumber_literal {text : String} (hRead : Number.ofText? text.toList = some x)
    (hHead : ∀ c ∈ text.toList.head?, c ≠ '+' ∧ c ≠ '-') :
    (Value.text text).toNumber = .ok (.float x) := by
  have hUnsigned := Number.unsigned_of_ofText? hRead hHead
  have hNumeral : ∀ c : Char, c.isDigit = true ∨ c = '.' → Text.isBlank c = false := by
    intro c hc
    have hWord := Text.isWord_of_numerals (List.cons_ne_nil c []) (List.forall_mem_singleton.mpr hc)
    exact hWord.isBlank_of_mem List.mem_cons_self
  have hTrim : Text.trim text.toList = text.toList := by
    obtain ⟨first, rest, hFirst, hc⟩ := hUnsigned.head
    obtain ⟨others, last, hLast, hd⟩ := hUnsigned.last
    rw [Text.trim_eq_self_iff]
    constructor
    · rw [hFirst]
      rintro c ⟨⟩
      exact hNumeral first hc
    · rw [hLast, List.getLast?_concat]
      rintro c ⟨⟩
      exact hNumeral last hd
  rw [toNumber, hTrim]
  split
  · rename_i hNil
    rw [hNil] at hRead
    cases hRead
  · rw [hRead]

end FormulaGrid
