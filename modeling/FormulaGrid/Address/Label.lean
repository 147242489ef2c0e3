import FormulaGrid.Address.Basic
import FormulaGrid.Number.Literal

/-!
# Cell labels

A label is letters for the column followed by digits for the row, both counted from one: `A1` is
the first cell, and after `Z` comes `AA`. Columns are thus written in base twenty-six with the
digits one to twenty-six. Labels are read in either case and written in upper case.
-/

set_option autoImplicit false

namespace FormulaGrid.Address

/-- The place of a letter in the alphabet, counted from one. -/
def letterValue (c : Char) : Nat := c.toUpper.toNat - 'A'.toNat + 1

def columnNumber (letters : List Char) : Nat :=
  letters.foldl (fun number c => 26 * number + letterValue c) 0

/-- The letter with the given place in the alphabet, counted from zero. -/
def letter (place : Nat) : Char := Char.ofNat ('A'.toNat + place)

def columnLetters : Nat → List Char
  | 0 => []
  | n + 1 => columnLetters (n / 26) ++ [letter (n % 26)]
decreasing_by omega

def index? (number : Nat) : Option Nat :=
  if 1 ≤ number ∧ number ≤ maxIndex then some (number - 1) else none

def ofChars? (label : List Char) : Option Address :=
  let letters := label.takeWhile Char.isAlpha
  let digits := label.dropWhile Char.isAlpha
  if letters ≠ [] ∧ digits ≠ [] ∧ digits.all Char.isDigit then do
    return ⟨← index? (Number.ofDigits digits), ← index? (columnNumber letters)⟩
  else none

def ofLabel? (label : String) : Option Address :=
  ofChars? label.toList

def columnLabel (col : Nat) : String :=
  String.ofList (columnLetters (col + 1))

def labelChars (cell : Address) : List Char :=
  (columnLabel cell.col).toList ++ Nat.toDigits 10 (cell.row + 1)

def label (cell : Address) : String :=
  String.ofList cell.labelChars

end FormulaGrid.Address
