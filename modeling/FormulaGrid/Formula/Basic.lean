import FormulaGrid.Formula.Arithmetic
import FormulaGrid.Formula.SumCall

/-!
# Formulas

Cell text that starts with `=` is a formula: a sum over a block, a chain of operands, or blank.
Anything else is malformed. An operand is a number if it can be read as one, else a cell.
-/

set_option autoImplicit false

namespace FormulaGrid

inductive Operand where
  | number (x : Float)
  | cell (address : Address)
  | unreadable
deriving DecidableEq

def Operand.ofChars (text : List Char) : Operand :=
  match Number.ofText? text with
  | some x => .number x
  | none =>
    match Address.ofChars? text with
    | some address => .cell address
    | none => .unreadable

inductive Formula where
  | blank
  | sum (block : Block)
  | chain (operands : Chain Operand)
  | malformed
deriving DecidableEq

namespace Formula

def sigil : Char := '='

def ofTokens : List Token → Formula
  | [] => blank
  | tokens =>
    match Chain.ofTokens? tokens with
    | some operands => chain (operands.map Operand.ofChars)
    | none => malformed

def ofBody (body : List Char) : Formula :=
  match SumCall.block? body with
  | some block => sum block
  | none => ofTokens (Token.scan body)

/-- The formula in a cell text, unless the text stands for itself. -/
def ofText? (text : String) : Option Formula :=
  match text.toList with
  | c :: body => if c = sigil then some (ofBody body) else none
  | [] => none

end Formula
end FormulaGrid
