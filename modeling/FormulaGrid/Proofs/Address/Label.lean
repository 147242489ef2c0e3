import FormulaGrid.Address.Label
import Mathlib.Data.List.Induction
import Mathlib.Data.Nat.Digits.Defs
import Mathlib.Data.Nat.PSub

/-!
# Labels and the cells they name

A label names exactly one cell, and a cell whose row and column are below the last index is named
by exactly one label in upper case without leading zeros. The numbers in a label can be as long as
one likes; read or written in words of a fixed width, with each product and each sum checked, they
come out the same.
-/

set_option autoImplicit false

namespace FormulaGrid.Address

theorem isAlpha_iff_toNat {c : Char} : c.isAlpha = true ↔
    65 ≤ c.toNat ∧ c.toNat ≤ 90 ∨ 97 ≤ c.toNat ∧ c.toNat ≤ 122 := by
  change (decide ('A'.val ≤ c.val ∧ c.val ≤ 'Z'.val) ||
    decide ('a'.val ≤ c.val) && decide (c.val ≤ 'z'.val)) = true ↔ _
  rw [Bool.or_eq_true, Bool.and_eq_true]
  simp only [decide_eq_true_eq, UInt32.le_iff_toNat_le]
  rfl

theorem toNat_toUpper (c : Char) :
    c.toUpper.toNat = if 97 ≤ c.toNat ∧ c.toNat ≤ 122 then c.toNat - 32 else c.toNat := by
  have hRange : 'a'.val ≤ c.val ∧ c.val ≤ 'z'.val ↔ 97 ≤ c.toNat ∧ c.toNat ≤ 122 := by
    simp only [UInt32.le_iff_toNat_le]
    rfl
  by_cases h : 'a'.val ≤ c.val ∧ c.val ≤ 'z'.val
  · -- the difference of the cases is added modulo the size of a word
    have hUpper : c.toUpper = ⟨c.val + ('A'.val - 'a'.val), _⟩ := dif_pos h
    have hCode := hRange.mp h
    rw [hUpper, if_pos hCode]
    change (c.val + 4294967264).toNat = _
    rw [UInt32.toNat_add]
    change (c.toNat + 4294967264) % 2 ^ 32 = _
    omega
  · have hUpper : c.toUpper = c := dif_neg h
    rw [hUpper, if_neg (hRange.not.mp h)]

theorem not_isAlpha_of_isDigit {c : Char} (h : c.isDigit = true) : c.isAlpha = false := by
  have hRange : 48 ≤ c.toNat ∧ c.toNat ≤ 57 := Char.isDigit_iff_toNat.mp h
  rw [Bool.eq_false_iff, ne_eq, isAlpha_iff_toNat]
  omega

theorem letterValue_spec {c : Char} (h : c.isAlpha = true) :
    1 ≤ letterValue c ∧ letterValue c ≤ 26 ∧ letter (letterValue c - 1) = c.toUpper := by
  have hAll : ∀ n < 123, 65 ≤ n ∧ n ≤ 90 ∨ 97 ≤ n ∧ n ≤ 122 →
      1 ≤ letterValue (Char.ofNat n) ∧ letterValue (Char.ofNat n) ≤ 26 ∧
        letter (letterValue (Char.ofNat n) - 1) = (Char.ofNat n).toUpper := by decide
  have hRange := isAlpha_iff_toNat.mp h
  simpa using hAll c.toNat (by omega) hRange

theorem letter_spec {place : Nat} (h : place < 26) :
    (letter place).isAlpha = true ∧ letterValue (letter place) = place + 1 := by
  have hAll : ∀ n < 26, (letter n).isAlpha = true ∧ letterValue (letter n) = n + 1 := by decide
  exact hAll place h

@[simp] theorem columnLetters_zero : columnLetters 0 = [] := by
  simp [columnLetters]

theorem columnNumber_append (letters : List Char) (c : Char) :
    columnNumber (letters ++ [c]) = 26 * columnNumber letters + letterValue c := by
  simp [columnNumber]

theorem columnLetters_append (n : Nat) {value : Nat} (h : 1 ≤ value) (h' : value ≤ 26) :
    columnLetters (26 * n + value) = columnLetters n ++ [letter (value - 1)] := by
  obtain ⟨place, rfl⟩ := Nat.exists_eq_add_of_le' h
  rw [← Nat.add_assoc, columnLetters, Nat.add_sub_cancel,
    show (26 * n + place) / 26 = n by omega, show (26 * n + place) % 26 = place by omega]

theorem columnLetters_columnNumber (letters : List Char) (h : ∀ c ∈ letters, c.isAlpha = true) :
    columnLetters (columnNumber letters) = letters.map Char.toUpper := by
  induction letters using List.reverseRecOn with
  | nil => exact columnLetters_zero
  | append_singleton letters c ih =>
    simp only [List.forall_mem_append, List.forall_mem_singleton] at h
    obtain ⟨hLow, hHigh, hLetter⟩ := letterValue_spec h.2
    rw [columnNumber_append, columnLetters_append _ hLow hHigh, ih h.1, hLetter]
    simp

theorem columnNumber_columnLetters (n : Nat) : columnNumber (columnLetters n) = n := by
  induction n using columnLetters.induct with
  | case1 => rw [columnLetters_zero]; rfl
  | case2 n ih =>
    rw [columnLetters, columnNumber_append, ih, (letter_spec (Nat.mod_lt _ (by decide))).2]
    omega

theorem isAlpha_of_mem_columnLetters {n : Nat} {c : Char} (h : c ∈ columnLetters n) :
    c.isAlpha = true := by
  induction n using columnLetters.induct with
  | case1 => simp at h
  | case2 n ih =>
    rw [columnLetters] at h
    rcases List.mem_append.mp h with h | h
    · exact ih h
    · rw [List.mem_singleton.mp h]
      exact (letter_spec (Nat.mod_lt _ (by decide))).1

theorem toList_columnLabel (col : Nat) : (columnLabel col).toList = columnLetters (col + 1) := by
  rw [columnLabel, String.toList_ofList]

theorem columnNumber_columnLabel (col : Nat) : columnNumber (columnLabel col).toList = col + 1 := by
  rw [toList_columnLabel, columnNumber_columnLetters]

theorem isAlpha_of_mem_columnLabel {col : Nat} {c : Char} (h : c ∈ (columnLabel col).toList) :
    c.isAlpha = true := by
  rw [toList_columnLabel] at h
  exact isAlpha_of_mem_columnLetters h

theorem columnLabel_ne_nil (col : Nat) : (columnLabel col).toList ≠ [] := by
  simp [toList_columnLabel, columnLetters]

theorem digit_spec {c : Char} (h : c.isDigit = true) :
    Number.digitValue c < 10 ∧ Nat.toDigits 10 (Number.digitValue c) = [c] := by
  have hRange : 48 ≤ c.toNat ∧ c.toNat ≤ 57 := Char.isDigit_iff_toNat.mp h
  have hLow : Number.digitValue c < 10 := by
    change c.toNat - 48 < 10
    omega
  refine ⟨hLow, ?_⟩
  rw [Nat.toDigits_of_lt_base hLow, List.singleton_inj, ← Char.toNat_inj,
    Nat.toNat_digitChar_of_lt_ten hLow]
  change 48 + (c.toNat - 48) = c.toNat
  omega

theorem toDigits_ofDigitChars {n : Nat} (hn : 0 < n) {digits : List Char}
    (h : ∀ c ∈ digits, c.isDigit = true) :
    Nat.toDigits 10 (Nat.ofDigitChars 10 digits n) = Nat.toDigits 10 n ++ digits := by
  induction digits generalizing n with
  | nil => simp
  | cons c digits ih =>
    rw [List.forall_mem_cons] at h
    obtain ⟨hLow, hDigit⟩ := digit_spec h.1
    have hStep : Nat.toDigits 10 (10 * n + Number.digitValue c) = Nat.toDigits 10 n ++ [c] := by
      rw [← Nat.toDigits_append_toDigits (by decide) hn hLow, hDigit]
    have hRest := ih (n := 10 * n + Number.digitValue c) (by omega) h.2
    rw [hStep, List.append_assoc] at hRest
    exact hRest

theorem toDigits_ofDigits {digits : List Char} (h : ∀ c ∈ digits, c.isDigit = true)
    (hPos : 0 < Number.ofDigits digits) :
    Nat.toDigits 10 (Number.ofDigits digits) = digits.dropWhile (· = '0') := by
  induction digits with
  | nil => cases hPos
  | cons c digits ih =>
    rw [List.forall_mem_cons] at h
    by_cases hZero : c = '0'
    · subst hZero
      exact ih h.2 hPos
    · obtain ⟨-, hDigit⟩ := digit_spec h.1
      have hFirst : 0 < Number.digitValue c := by
        by_contra hNot
        rw [Nat.eq_zero_of_not_pos hNot, Nat.toDigits_zero] at hDigit
        exact hZero (List.singleton_inj.mp hDigit).symm
      rw [List.dropWhile_cons_of_neg (by simpa using hZero)]
      calc Nat.toDigits 10 (Number.ofDigits (c :: digits))
          = Nat.toDigits 10 (Nat.ofDigitChars 10 digits (Number.digitValue c)) := by
            simp [Number.ofDigits, Nat.ofDigitChars, Number.digitValue]
        _ = Nat.toDigits 10 (Number.digitValue c) ++ digits := toDigits_ofDigitChars hFirst h.2
        _ = c :: digits := by rw [hDigit, List.singleton_append]

theorem ofDigits_toDigits (n : Nat) : Number.ofDigits (Nat.toDigits 10 n) = n :=
  Nat.ofDigitChars_ten_toDigits

theorem isDigit_of_mem_toDigits {n : Nat} {c : Char} (h : c ∈ Nat.toDigits 10 n) :
    c.isDigit = true :=
  Nat.isDigit_of_mem_toDigits (by decide) (by decide) h

structure Spells (text letters digits : List Char) : Prop where
  text_eq : text = letters ++ digits
  letters_ne_nil : letters ≠ []
  isAlpha : ∀ c ∈ letters, c.isAlpha = true
  digits_ne_nil : digits ≠ []
  isDigit : ∀ c ∈ digits, c.isDigit = true

variable {text letters digits : List Char} {cell : Address}

theorem Spells.takeWhile_eq (h : Spells text letters digits) :
    text.takeWhile Char.isAlpha = letters ∧ text.dropWhile Char.isAlpha = digits := by
  have hDigits : digits.takeWhile Char.isAlpha = [] ∧ digits.dropWhile Char.isAlpha = digits := by
    obtain ⟨c, rest, rfl⟩ := List.exists_cons_of_ne_nil h.digits_ne_nil
    have hc := not_isAlpha_of_isDigit (h.isDigit c List.mem_cons_self)
    simp [hc]
  rw [h.text_eq, List.takeWhile_append_of_pos h.isAlpha, List.dropWhile_append_of_pos h.isAlpha,
    hDigits.1, hDigits.2, List.append_nil]
  exact ⟨rfl, rfl⟩

theorem ofChars?_of_spells (h : Spells text letters digits) :
    ofChars? text = do
      return ⟨← index? (Number.ofDigits digits), ← index? (columnNumber letters)⟩ := by
  obtain ⟨hLetters, hDigits⟩ := h.takeWhile_eq
  rw [ofChars?, hLetters, hDigits, if_pos]
  exact ⟨h.letters_ne_nil, h.digits_ne_nil, List.all_eq_true.mpr h.isDigit⟩

theorem exists_spells_of_isSome (h : (ofChars? text).isSome) :
    ∃ letters digits, Spells text letters digits := by
  rw [ofChars?] at h
  split at h
  · rename_i hShape
    exact ⟨_, _, (List.takeWhile_append_dropWhile).symm, hShape.1,
      List.all_eq_true.mp List.all_takeWhile, hShape.2.1, List.all_eq_true.mp hShape.2.2⟩
  · cases h

theorem index?_succ (i : Nat) : index? (i + 1) = if i < maxIndex then some i else none := by
  have hBound : 1 ≤ i + 1 ∧ i + 1 ≤ maxIndex ↔ i < maxIndex := by omega
  simp only [index?, hBound, Nat.add_sub_cancel]

theorem index?_eq_some_iff {n i : Nat} : index? n = some i ↔ n = i + 1 ∧ i < maxIndex := by
  cases n with
  | zero => simp [index?]
  | succ n =>
    rw [index?_succ]
    split <;> simp <;> omega

theorem foldl_eq_ofDigits (base : Nat) (value : Char → Nat) (text : List Char) :
    text.foldl (fun n c => base * n + value c) 0 = Nat.ofDigits base (text.map value).reverse := by
  simp [Nat.ofDigits_eq_foldr, List.foldl_map, Nat.add_comm]

/-- The column in letters and the row in digits, both counted from one. -/
structure Names (text letters digits : List Char) (cell : Address) : Prop
    extends Spells text letters digits where
  col_eq : Nat.ofDigits 26 (letters.map letterValue).reverse = cell.col + 1
  row_eq : Nat.ofDigits 10 (digits.map Number.digitValue).reverse = cell.row + 1

theorem Names.columnNumber_eq (h : Names text letters digits cell) :
    columnNumber letters = cell.col + 1 := by
  rw [columnNumber, foldl_eq_ofDigits, h.col_eq]

theorem Names.ofDigits_eq (h : Names text letters digits cell) :
    Number.ofDigits digits = cell.row + 1 := by
  rw [Number.ofDigits, foldl_eq_ofDigits, h.row_eq]

theorem Names.ofChars?_eq (h : Names text letters digits cell) :
    ofChars? text = if cell.row < maxIndex ∧ cell.col < maxIndex then some cell else none := by
  rw [ofChars?_of_spells h.toSpells, h.ofDigits_eq, h.columnNumber_eq, index?_succ, index?_succ]
  by_cases hRow : cell.row < maxIndex <;> by_cases hCol : cell.col < maxIndex <;>
    simp [hRow, hCol]

theorem ofChars?_eq_some_iff : ofChars? text = some cell ↔
    cell.row < maxIndex ∧ cell.col < maxIndex ∧ ∃ letters digits, Names text letters digits cell := by
  constructor
  · intro h
    obtain ⟨letters, digits, hSpells⟩ := exists_spells_of_isSome (Option.isSome_of_eq_some h)
    rw [ofChars?_of_spells hSpells] at h
    obtain ⟨row, hRow, h⟩ := Option.bind_eq_some_iff.mp h
    obtain ⟨col, hCol, h⟩ := Option.bind_eq_some_iff.mp h
    cases h
    rw [index?_eq_some_iff, Number.ofDigits, foldl_eq_ofDigits] at hRow
    rw [index?_eq_some_iff, columnNumber, foldl_eq_ofDigits] at hCol
    exact ⟨hRow.2, hCol.2, letters, digits, hSpells, hCol.1, hRow.1⟩
  · rintro ⟨hRow, hCol, letters, digits, h⟩
    rw [h.ofChars?_eq, if_pos ⟨hRow, hCol⟩]

theorem Names.labelChars_eq (h : Names text letters digits cell) :
    cell.labelChars = letters.map Char.toUpper ++ digits.dropWhile (· = '0') := by
  rw [labelChars, toList_columnLabel, ← h.columnNumber_eq,
    columnLetters_columnNumber letters h.isAlpha, ← h.ofDigits_eq, toDigits_ofDigits h.isDigit]
  rw [h.ofDigits_eq]
  exact Nat.succ_pos _

theorem names_labelChars (cell : Address) :
    Names cell.labelChars (columnLabel cell.col).toList (Nat.toDigits 10 (cell.row + 1)) cell where
  text_eq := rfl
  letters_ne_nil := columnLabel_ne_nil cell.col
  isAlpha _ := isAlpha_of_mem_columnLabel
  digits_ne_nil := Nat.toDigits_ne_nil
  isDigit _ := isDigit_of_mem_toDigits
  col_eq := by
    rw [← foldl_eq_ofDigits]
    exact columnNumber_columnLabel _
  row_eq := by
    rw [← foldl_eq_ofDigits]
    exact ofDigits_toDigits _

theorem letterValue_toUpper (c : Char) : letterValue c.toUpper = letterValue c := by
  have hUpper : c.toUpper.toUpper = c.toUpper := by
    rw [← Char.toNat_inj, toNat_toUpper, if_neg]
    rw [toNat_toUpper]
    split <;> omega
  rw [letterValue, hUpper, letterValue]

theorem toUpper_of_isDigit {c : Char} (h : c.toUpper.isDigit = true) : c.toUpper = c := by
  have hRange : 48 ≤ c.toUpper.toNat ∧ c.toUpper.toNat ≤ 57 := Char.isDigit_iff_toNat.mp h
  rw [toNat_toUpper] at hRange
  rw [← Char.toNat_inj, toNat_toUpper, if_neg]
  split at hRange <;> omega

theorem names_of_map_toUpper (h : text.map Char.toUpper = cell.labelChars) :
    ∃ letters digits, Names text letters digits cell := by
  obtain ⟨letters, digits, rfl, hLetters, hDigits⟩ := List.map_eq_append_iff.mp h
  have hNames := names_labelChars cell
  rw [← hLetters, ← hDigits] at hNames
  have hSame : digits.map Char.toUpper = digits.map id := by
    apply List.map_congr_left
    intro c hc
    exact toUpper_of_isDigit (hNames.isDigit _ (List.mem_map_of_mem hc))
  rw [hSame, List.map_id] at hNames
  refine ⟨letters, digits, ⟨rfl, ?_, ?_, hNames.digits_ne_nil, hNames.isDigit⟩, ?_, hNames.row_eq⟩
  · rintro rfl
    exact hNames.letters_ne_nil rfl
  · intro c hc
    have hUpper := isAlpha_iff_toNat.mp (hNames.isAlpha _ (List.mem_map_of_mem hc))
    rw [toNat_toUpper] at hUpper
    rw [isAlpha_iff_toNat]
    split at hUpper <;> omega
  · have hCol := hNames.col_eq
    simpa only [List.map_map, Function.comp_def, letterValue_toUpper] using hCol

def held? (bits n : Nat) : Option Nat :=
  if n < 2 ^ bits then some n else none

/-- Reads a number digit by digit and fails at the first product or sum that a word cannot hold. -/
def numberHeld? (bits base : Nat) (value : Char → Nat) (text : List Char) : Option Nat :=
  text.foldlM (fun n c => do held? bits ((← held? bits (base * n)) + value c)) 0

def ofCharsHeld? (label : List Char) : Option Address :=
  let letters := label.takeWhile Char.isAlpha
  let digits := label.dropWhile Char.isAlpha
  if letters ≠ [] ∧ digits ≠ [] ∧ digits.all Char.isDigit then do
    let col ← Nat.ppred (← numberHeld? 64 26 letterValue letters)
    let row ← Nat.ppred (← numberHeld? 64 10 Number.digitValue digits)
    return ⟨row, col⟩
  else none

def lettersHeld? (letters : List Char) : Nat → Option (List Char)
  | 0 => some letters
  | n + 1 => do
    let byte ← held? 8 ('A'.toNat + n % 26)
    lettersHeld? (Char.ofNat byte :: letters) (n / 26)
termination_by n => n
decreasing_by omega

def labelHeld? (cell : Address) : Option String := do
  let letters ← lettersHeld? [] (← held? 128 (cell.col + 1))
  let row ← held? 128 (cell.row + 1)
  return String.ofList (letters ++ Nat.toDigits 10 row)

/-- A number needs no word of its own when a number at least as large must be held. -/
theorem held?_bind {bits n : Nat} {next : Nat → Nat} (h : n ≤ next n) :
    (held? bits n).bind (fun n => held? bits (next n)) = held? bits (next n) := by
  by_cases hn : n < 2 ^ bits
  · simp [held?, hn]
  · have hNext : ¬ next n < 2 ^ bits := by omega
    simp [held?, hn, hNext]

theorem numberHeld?_eq {bits base : Nat} (hBase : 0 < base) (value : Char → Nat) :
    numberHeld? bits base value text = held? bits (text.foldl (fun n c => base * n + value c) 0) := by
  induction text using List.reverseRecOn with
  | nil => simp [numberHeld?, held?]
  | append_singleton text c ih =>
    have hDigit : ∀ n, (held? bits (base * n)).bind (fun product => held? bits (product + value c)) =
        held? bits (base * n + value c) := by
      intro n
      exact held?_bind (Nat.le_add_right ..)
    have hStep : ∀ n, (held? bits n).bind (fun n => held? bits (base * n + value c)) =
        held? bits (base * n + value c) := by
      intro n
      exact held?_bind (Nat.le_add_right_of_le (Nat.le_mul_of_pos_left n hBase))
    rw [numberHeld?, List.foldlM_append, ← numberHeld?, ih, List.foldl_append]
    simp [hDigit, hStep]

theorem held?_bind_ppred (n : Nat) : (held? 64 n).bind Nat.ppred = index? n := by
  cases n with
  | zero => rfl
  | succ n =>
    have hWord : n + 1 < 2 ^ 64 ↔ n < maxIndex := Nat.succ_lt_succ_iff
    rw [index?_succ, held?]
    by_cases h : n < maxIndex
    · rw [if_pos (hWord.mpr h), if_pos h]
      rfl
    · rw [if_neg (hWord.not.mpr h), if_neg h]
      rfl

theorem ofCharsHeld?_eq (label : List Char) : ofCharsHeld? label = ofChars? label := by
  have hCol : ∀ letters, (numberHeld? 64 26 letterValue letters).bind Nat.ppred =
      index? (columnNumber letters) := by
    intro letters
    rw [numberHeld?_eq (by decide), held?_bind_ppred, columnNumber]
  have hRow : ∀ digits, (numberHeld? 64 10 Number.digitValue digits).bind Nat.ppred =
      index? (Number.ofDigits digits) := by
    intro digits
    rw [numberHeld?_eq (by decide), held?_bind_ppred, Number.ofDigits]
  rw [ofCharsHeld?, ofChars?]
  split
  · simp only [Option.bind_eq_bind, ← Option.bind_assoc, hCol, hRow]
    cases index? (columnNumber (label.takeWhile Char.isAlpha)) <;>
      cases index? (Number.ofDigits (label.dropWhile Char.isAlpha)) <;> rfl
  · rfl

theorem lettersHeld?_eq (letters : List Char) (n : Nat) :
    lettersHeld? letters n = some (columnLetters n ++ letters) := by
  induction letters, n using lettersHeld?.induct with
  | case1 letters => simp [lettersHeld?]
  | case2 letters n ih =>
    have hByte : held? 8 ('A'.toNat + n % 26) = some ('A'.toNat + n % 26) := by
      rw [held?, if_pos]
      change 65 + n % 26 < 256
      omega
    rw [lettersHeld?, hByte, columnLetters]
    simp [ih, letter]

theorem labelHeld?_eq (h : cell.InBounds) : labelHeld? cell = some cell.label := by
  obtain ⟨hRow, hCol⟩ := h
  rw [maxIndex] at hRow hCol
  rw [labelHeld?, held?, if_pos (by omega), held?, if_pos (by omega)]
  simp [lettersHeld?_eq, label, labelChars, toList_columnLabel]

/-- A label is read just if its two numbers are at most the largest index. The label of the cell is then
the same one in its plain spelling, and of all cells only those at the largest index have labels that
cannot be read back. -/
theorem codec_exact :
    (∀ (text : String) cell, ofLabel? text = some cell ↔
      cell.row < maxIndex ∧ cell.col < maxIndex ∧
        ∃ letters digits, Names text.toList letters digits cell) ∧
    (∀ (text : String) letters digits cell, Names text.toList letters digits cell →
      cell.label = String.ofList (letters.map Char.toUpper ++ digits.dropWhile (· = '0'))) ∧
    (∀ cell : Address, cell.row < maxIndex → cell.col < maxIndex →
      ofLabel? cell.label = some cell) ∧
    (∀ cell : Address, cell.InBounds →
      labelHeld? cell = some cell.label ∧
        (cell.row = maxIndex ∨ cell.col = maxIndex → ofLabel? cell.label = none)) ∧
    ∀ text : String, ofCharsHeld? text.toList = ofLabel? text := by
  have hLabel : ∀ cell : Address, ofLabel? cell.label =
      if cell.row < maxIndex ∧ cell.col < maxIndex then some cell else none := by
    intro cell
    rw [ofLabel?, label, String.toList_ofList, (names_labelChars cell).ofChars?_eq]
  refine ⟨fun text cell => ofChars?_eq_some_iff, ?_, ?_, ?_, fun text => ofCharsHeld?_eq _⟩
  · intro text letters digits cell h
    rw [label, h.labelChars_eq]
  · intro cell hRow hCol
    rw [hLabel, if_pos ⟨hRow, hCol⟩]
  · intro cell hCell
    refine ⟨labelHeld?_eq hCell, fun hLast => ?_⟩
    rw [hLabel, if_neg (by omega)]

theorem codec_exact_aZ007 :
    ofLabel? "aZ007" = some ⟨6, 51⟩ ∧ label ⟨6, 51⟩ = "AZ7" ∧ ofLabel? (label ⟨6, 51⟩) = some ⟨6, 51⟩ ∧
      labelHeld? ⟨maxIndex, 0⟩ = some (label ⟨maxIndex, 0⟩) ∧
      ofLabel? (label ⟨maxIndex, 0⟩) = none := by
  have hNames : Names "aZ007".toList ['a', 'Z'] ['0', '0', '7'] ⟨6, 51⟩ :=
    ⟨⟨rfl, by simp, by simp, by simp, by simp⟩,
      (foldl_eq_ofDigits ..).symm.trans (by decide), (foldl_eq_ofDigits ..).symm.trans (by decide)⟩
  obtain ⟨hRead, hUpper, hBack, hLast, -⟩ := codec_exact
  have hTop := hLast ⟨maxIndex, 0⟩ (by decide)
  refine ⟨(hRead _ _).mpr ⟨by decide, by decide, _, _, hNames⟩, (hUpper _ _ _ _ hNames).trans (by decide),
    hBack _ (by decide) (by decide), hTop.1, hTop.2 (.inl rfl)⟩

end FormulaGrid.Address
