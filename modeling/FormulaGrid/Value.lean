import FormulaGrid.Number.Datum
import FormulaGrid.Number.Literal
import FormulaGrid.Number.Positional
import FormulaGrid.Text.Blank

/-!
# Values of cells

A cell shows a number, a text or a failure. Computed numbers are finite; a value that was put in
place of a computed one may hold any floating-point datum. Arithmetic reads numbers and texts that
spell numbers, and reads a blank text as zero.
-/

set_option autoImplicit false

namespace FormulaGrid

inductive Fault where
  /-- An operand is neither a number nor a cell with one. -/
  | reference
  | zeroDivisor
  /-- The formula depends on itself. -/
  | circular
  /-- The formula is malformed or its number is not finite. -/
  | invalid
deriving DecidableEq, Repr

def Fault.token : Fault → String
  | .reference => "#REF!"
  | .zeroDivisor => "#DIV/0!"
  | .circular => "#CIRC!"
  | .invalid => Number.invalidText

inductive Value where
  | number (x : Number.Datum)
  | text (s : String)
  | fault (f : Fault)
deriving DecidableEq

namespace Value

def ofFloat (x : Float) : Value :=
  if x.isFinite then number (.float x) else fault .invalid

def ofResult : Except Fault Float → Value
  | .ok x => ofFloat x
  | .error f => fault f

def toNumber : Value → Except Fault Number.Datum
  | number x => .ok x
  | text s =>
    match Text.trim s.toList with
    | [] => .ok (.float 0.0)
    | trimmed =>
      match Number.ofText? trimmed with
      | some x => .ok (.float x)
      | none => .error .reference
  | fault _ => .error .reference

def isFault : Value → Bool
  | fault _ => true
  | _ => false

def display : Value → String
  | number x => Number.text x.toFloat
  | text s => s
  | fault f => f.token

end Value
end FormulaGrid
