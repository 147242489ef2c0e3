/-!
# Numeric literals

A literal is an optional sign, digits with at most one point among or beside them, and an optional
exponent. It denotes the float nearest to it; one that rounds to no finite float is not a number.
Blanks and the names of infinities are no part of a literal.
-/

set_option autoImplicit false

namespace FormulaGrid.Number

/-- `± digits · 10 ^ exponent`. -/
structure Literal where
  negative : Bool
  digits : Nat
  exponent : Int
deriving DecidableEq, Repr

def digitValue (c : Char) : Nat := c.toNat - '0'.toNat

def ofDigits (digits : List Char) : Nat :=
  digits.foldl (fun value c => 10 * value + digitValue c) 0

def splitSign : List Char → Bool × List Char
  | '-' :: rest => (true, rest)
  | '+' :: rest => (false, rest)
  | rest => (false, rest)

def signed (negative : Bool) (n : Nat) : Int :=
  if negative then -(n : Int) else n

namespace Literal

def splitFraction : List Char → List Char × List Char
  | '.' :: rest => (rest.takeWhile Char.isDigit, rest.dropWhile Char.isDigit)
  | rest => ([], rest)

def exponent? : List Char → Option Int
  | [] => some 0
  | mark :: rest =>
    let (negative, digits) := splitSign rest
    if (mark = 'e' ∨ mark = 'E') ∧ digits ≠ [] ∧ digits.all Char.isDigit then
      some (signed negative (ofDigits digits))
    else none

def ofText? (text : List Char) : Option Literal :=
  let (negative, unsigned) := splitSign text
  let whole := unsigned.takeWhile Char.isDigit
  let (fraction, rest) := splitFraction (unsigned.dropWhile Char.isDigit)
  if whole = [] ∧ fraction = [] then none
  else (exponent? rest).map fun exponent =>
    ⟨negative, ofDigits (whole ++ fraction), exponent - fraction.length⟩

/-- The least `k` with the literal below `10 ^ k` in size. -/
def size (x : Literal) : Int :=
  (Nat.toDigits 10 x.digits).length + x.exponent

/-- From `10 ^ 310` on nothing rounds to a finite float, below `10 ^ -330` all rounds to zero. -/
def magnitude (x : Literal) : Float :=
  if x.digits = 0 ∨ x.size < -330 then 0.0
  else if 310 < x.size then 1.0 / 0.0
  else Float.ofScientific x.digits (decide (x.exponent < 0)) x.exponent.natAbs

def toFloat (x : Literal) : Float :=
  if x.negative then -x.magnitude else x.magnitude

end Literal

def ofText? (text : List Char) : Option Float :=
  ((Literal.ofText? text).map Literal.toFloat).filter Float.isFinite

end FormulaGrid.Number
