import FormulaGrid.Proofs.Address.Label

/-!
# The characters of literals

A literal without a sign in front starts with a digit or a point and ends with one. There are no signs in
it but the one of its exponent, and that stands behind the letter that marks the exponent.
-/

set_option autoImplicit false

namespace FormulaGrid.Number

namespace Literal

def IsMantissa (text : List Char) : Prop :=
  text ≠ [] ∧ ∀ c ∈ text, c.isDigit = true ∨ c = '.'

inductive Unsigned : List Char → Prop where
  | plain {mantissa : List Char} (hMantissa : IsMantissa mantissa) : Unsigned mantissa
  | scaled {mantissa sign digits : List Char} {mark : Char} (hMantissa : IsMantissa mantissa)
      (hMark : mark = 'e' ∨ mark = 'E') (hSign : sign = [] ∨ sign = ['+'] ∨ sign = ['-'])
      (hDigits : digits ≠ [] ∧ ∀ c ∈ digits, c.isDigit = true) :
      Unsigned (mantissa ++ mark :: (sign ++ digits))

variable {text : List Char}

theorem splitSign_spec (text : List Char) : ∃ sign, text = sign ++ (splitSign text).2 ∧
    (sign = [] ∨ sign = ['+'] ∨ sign = ['-']) := by
  rw [splitSign.eq_def]
  split
  · exact ⟨['-'], rfl, .inr (.inr rfl)⟩
  · exact ⟨['+'], rfl, .inr (.inl rfl)⟩
  · exact ⟨[], rfl, .inl rfl⟩

theorem splitSign_eq_self (h : ∀ c ∈ text.head?, c ≠ '+' ∧ c ≠ '-') :
    splitSign text = (false, text) := by
  rw [splitSign.eq_def]
  split
  · exact absurd rfl (h _ rfl).2
  · exact absurd rfl (h _ rfl).1
  · rfl

theorem splitFraction_spec (text : List Char) : ∃ point,
    text = point ++ (splitFraction text).1 ++ (splitFraction text).2 ∧
      ∀ c ∈ point ++ (splitFraction text).1, c.isDigit = true ∨ c = '.' := by
  rw [splitFraction.eq_def]
  split
  · rename_i rest
    refine ⟨['.'], ?_, ?_⟩
    · simp
    · rw [List.forall_mem_append, List.forall_mem_singleton]
      exact ⟨.inr rfl, fun c hc => .inl (List.all_eq_true.mp List.all_takeWhile c hc)⟩
  · exact ⟨[], rfl, List.forall_mem_nil _⟩

theorem shape_of_exponent? {n : Int} (h : exponent? text = some n) : text = [] ∨
    ∃ mark sign digits, text = mark :: (sign ++ digits) ∧ (mark = 'e' ∨ mark = 'E') ∧
      (sign = [] ∨ sign = ['+'] ∨ sign = ['-']) ∧
      digits ≠ [] ∧ ∀ c ∈ digits, c.isDigit = true := by
  cases text with
  | nil => exact .inl rfl
  | cons mark rest =>
    obtain ⟨sign, hRest, hSign⟩ := splitSign_spec rest
    rw [exponent?, Option.ite_none_right_eq_some] at h
    obtain ⟨⟨hMark, hDigits, hAll⟩, -⟩ := h
    refine .inr ⟨mark, sign, _, ?_, hMark, hSign, hDigits, List.all_eq_true.mp hAll⟩
    rw [← hRest]

theorem unsigned_of_ofText? {x : Literal} (h : ofText? text = some x)
    (hHead : ∀ c ∈ text.head?, c ≠ '+' ∧ c ≠ '-') : Unsigned text := by
  obtain ⟨point, hText, hPoint⟩ := splitFraction_spec (text.dropWhile Char.isDigit)
  have hWhole := List.takeWhile_append_dropWhile (p := Char.isDigit) (l := text)
  simp only [ofText?, splitSign_eq_self hHead, Option.ite_none_left_eq_some] at h
  obtain ⟨hSome, h⟩ := h
  obtain ⟨n, hExponent, -⟩ := Option.map_eq_some_iff.mp h
  have hMantissa : IsMantissa (text.takeWhile Char.isDigit ++
      (point ++ (splitFraction (text.dropWhile Char.isDigit)).1)) := by
    constructor
    · intro hNil
      obtain ⟨hNil, hRest⟩ := List.append_eq_nil_iff.mp hNil
      exact hSome ⟨hNil, (List.append_eq_nil_iff.mp hRest).2⟩
    · rw [List.forall_mem_append]
      exact ⟨fun c hc => .inl (List.all_eq_true.mp List.all_takeWhile c hc), hPoint⟩
  rw [hText, ← List.append_assoc] at hWhole
  rw [← hWhole]
  rcases shape_of_exponent? hExponent with hNil | ⟨mark, sign, digits, hRest, hMark, hSign, hDigits⟩
  · rw [hNil, List.append_nil]
    exact .plain hMantissa
  · rw [hRest]
    exact .scaled hMantissa hMark hSign hDigits

theorem Unsigned.head (h : Unsigned text) :
    ∃ c rest, text = c :: rest ∧ (c.isDigit = true ∨ c = '.') := by
  have hStart : ∀ {mantissa : List Char}, IsMantissa mantissa → ∀ rest, ∃ c others,
      mantissa ++ rest = c :: others ∧ (c.isDigit = true ∨ c = '.') := by
    rintro mantissa ⟨hNil, hAll⟩ rest
    obtain ⟨c, others, rfl⟩ := List.exists_cons_of_ne_nil hNil
    exact ⟨c, others ++ rest, rfl, hAll c List.mem_cons_self⟩
  cases h with
  | plain hMantissa => simpa using hStart hMantissa []
  | scaled hMantissa => exact hStart hMantissa _

theorem Unsigned.last (h : Unsigned text) :
    ∃ rest c, text = rest ++ [c] ∧ (c.isDigit = true ∨ c = '.') := by
  cases h with
  | plain hMantissa =>
    obtain ⟨hNil, hAll⟩ := hMantissa
    exact ⟨_, _, (List.dropLast_concat_getLast hNil).symm, hAll _ (List.getLast_mem hNil)⟩
  | @scaled mantissa sign digits mark _ _ _ hDigits =>
    obtain ⟨hNil, hAll⟩ := hDigits
    refine ⟨mantissa ++ mark :: (sign ++ digits.dropLast), _, ?_,
      .inl (hAll _ (List.getLast_mem hNil))⟩
    rw [List.append_assoc, List.cons_append, List.append_assoc, List.dropLast_concat_getLast hNil]

end Literal

variable {text : List Char} {x : Float}

theorem unsigned_of_ofText? (h : ofText? text = some x)
    (hHead : ∀ c ∈ text.head?, c ≠ '+' ∧ c ≠ '-') : Literal.Unsigned text := by
  rw [ofText?, Option.filter_eq_some_iff, Option.map_eq_some_iff] at h
  obtain ⟨⟨literal, hLiteral, -⟩, -⟩ := h
  exact Literal.unsigned_of_ofText? hLiteral hHead

theorem isFinite_of_ofText? (h : ofText? text = some x) : x.isFinite = true :=
  (Option.filter_eq_some_iff.mp h).2

end FormulaGrid.Number
