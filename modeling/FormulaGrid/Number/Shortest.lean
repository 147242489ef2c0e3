import FormulaGrid.Number.Binary64

/-!
# Shortest decimals

The decimal written for a float is the multiple of the largest power of ten among those
that read back as this float; of several such multiples the one nearest to the float, and the upper
one of two equally near.
-/

set_option autoImplicit false

namespace FormulaGrid.Number

/-- `digits · 10 ^ scale`. -/
structure Decimal where
  digits : Nat
  scale : Int
deriving DecidableEq, Repr

/-- The positive reals that read back as one float, in units of `1 / unit`: those between `low` and
`high`, with the two ends when `closed`. -/
structure Neighborhood where
  low : Nat
  value : Nat
  high : Nat
  unit : Nat
  closed : Bool
deriving DecidableEq, Repr

/-- The gap below a power of two is half the gap above it, and a tie reads back as the float with
the even significand. -/
def Binary64.neighborhood (x : Binary64) : Neighborhood :=
  let below := if x.significand = 0x10000000000000 ∧ minExponent < x.exponent then 1 else 2
  let factor := Nat.pow 2 (x.exponent - 2).toNat
  { low := (4 * x.significand - below) * factor
    value := 4 * x.significand * factor
    high := (4 * x.significand + 2) * factor
    unit := Nat.pow 2 (2 - x.exponent).toNat
    closed := x.significand % 2 == 0 }

namespace Neighborhood

def contains (near : Neighborhood) (x : Nat) : Bool :=
  if near.closed then near.low ≤ x && x ≤ near.high else near.low < x && x < near.high

def refine (near : Neighborhood) (factor : Nat) : Neighborhood :=
  { near with
    low := near.low * factor
    value := near.value * factor
    high := near.high * factor
    unit := near.unit * factor }

/-- The multiple of `step` in the neighborhood that is nearest to the value, as a quotient by
`step`. Only the two neighbors of the value can be it. -/
def nearestMultiple? (near : Neighborhood) (step : Nat) : Option Nat :=
  let below := near.value / step
  match near.contains (below * step), near.contains ((below + 1) * step) with
  | true, true => some (if 2 * (near.value % step) < step then below else below + 1)
  | true, false => some below
  | false, true => some (below + 1)
  | false, false => none

def onGrid? (near : Neighborhood) (scale : Int) : Option Nat :=
  (near.refine (Nat.pow 10 (-scale).toNat)).nearestMultiple? (near.unit * Nat.pow 10 scale.toNat)

/-- Tries the grids `10 ^ scale`, `10 ^ (scale - 1)`, … and stops at the first that meets the
neighborhood. -/
def coarsest (near : Neighborhood) : Nat → Int → Decimal
  | 0, scale => ⟨0, scale⟩
  | grids + 1, scale =>
    match near.onGrid? scale with
    | some digits => ⟨digits, scale⟩
    | none => coarsest near grids (scale - 1)

def topScale (near : Neighborhood) : Nat :=
  (Nat.toDigits 10 (near.high / near.unit)).length

end Neighborhood

/-- Grids enough to reach the seventeenth digit of any float from above its first one. -/
def gridCount : Nat := 700

def Binary64.shortest (x : Binary64) : Decimal :=
  x.neighborhood.coarsest gridCount x.neighborhood.topScale

end FormulaGrid.Number
