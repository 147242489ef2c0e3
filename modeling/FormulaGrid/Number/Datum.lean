/-!
# Floating-point data

A datum is what a pattern of 64 bits stands for: a float, or something that is not a number. All
patterns of the latter kind are one float; as data they stay apart, each with its own bits.
-/

set_option autoImplicit false

namespace FormulaGrid.Number

def isNanPattern (bits : UInt64) : Bool :=
  0x7ff0000000000000 < bits &&& 0x7fffffffffffffff

inductive Datum where
  | float (x : Float)
  | nan (bits : UInt64) (pattern : isNanPattern bits = true)
deriving DecidableEq

namespace Datum

def ofBits (bits : UInt64) : Datum :=
  if pattern : isNanPattern bits = true then nan bits pattern else float (.ofBits bits)

def toBits : Datum → UInt64
  | float x => x.toBits
  | nan bits _ => bits

def toFloat : Datum → Float
  | float x => x
  | nan bits _ => .ofBits bits

end Datum
end FormulaGrid.Number
