import FormulaGrid.Number.Shortest

/-!
# Numbers as text

Numbers are written with the fewest digits that read back and never with an exponent: the digits
stand at their places, filled up with zeros to the point. A whole number has no point, zero has no
sign, and what is not finite has the text of a failure.
-/

set_option autoImplicit false

namespace FormulaGrid.Number

def Decimal.positional (x : Decimal) : List Char :=
  let digits := Nat.toDigits 10 x.digits
  let places := (-x.scale).toNat
  if places = 0 then digits ++ List.replicate x.scale.toNat '0'
  else
    let padded := List.replicate (places + 1 - digits.length) '0' ++ digits
    padded.take (padded.length - places) ++ '.' :: padded.drop (padded.length - places)

def invalidText : String := "#ERROR!"

def Binary64.text (x : Binary64) : String :=
  if x.significand = 0 then "0"
  else
    let digits := x.shortest.positional
    String.ofList (if x.negative then '-' :: digits else digits)

def text (x : Float) : String :=
  match Binary64.ofFloat? x with
  | some finite => finite.text
  | none => invalidText

end FormulaGrid.Number
