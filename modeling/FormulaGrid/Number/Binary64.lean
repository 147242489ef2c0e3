/-!
# Finite floats as scaled integers

A finite float is `± significand · 2 ^ exponent` with a significand below `2 ^ 53`.
-/

set_option autoImplicit false

namespace FormulaGrid.Number

structure Binary64 where
  negative : Bool
  significand : Nat
  exponent : Int
deriving DecidableEq, Repr

namespace Binary64

/-- The exponent of the subnormal floats and of the smallest normal ones. -/
def minExponent : Int := -1074

/-- Reads the sign, exponent and fraction fields; an exponent field of ones has no finite value. -/
def ofBits? (bits : Nat) : Option Binary64 :=
  let negative := decide (0x8000000000000000 ≤ bits)
  let field := bits / 0x10000000000000 % 0x800
  let fraction := bits % 0x10000000000000
  if field = 2047 then none
  else if field = 0 then some ⟨negative, fraction, minExponent⟩
  else some ⟨negative, 0x10000000000000 + fraction, minExponent + (field - 1 : Nat)⟩

def ofFloat? (x : Float) : Option Binary64 :=
  ofBits? x.toBits.toNat

end Binary64
end FormulaGrid.Number
