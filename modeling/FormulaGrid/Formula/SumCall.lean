import FormulaGrid.Address.Block

/-!
# Sums over a block

The call `SUM(A1:B5)` takes up a whole formula text. Its name is read in any case, and case is that
of Unicode, where the long s is a small letter of `S`. Nothing may stand around the labels.
-/

set_option autoImplicit false

namespace FormulaGrid.SumCall

/-- The letters that differ from `S` in case alone. -/
def isS (c : Char) : Bool := c == 'S' || c == 's' || c == 'ſ'

def isU (c : Char) : Bool := c == 'U' || c == 'u'

def isM (c : Char) : Bool := c == 'M' || c == 'm'

/-- The block between the parentheses of a call; `text` starts after the first one. -/
def arguments? (text : List Char) : Option Block :=
  match text.dropWhile (· ≠ ':') with
  | _ :: right =>
    match right.dropWhile (· ≠ ')') with
    | [_] => do
      let first ← Address.ofChars? (text.takeWhile (· ≠ ':'))
      let last ← Address.ofChars? (right.takeWhile (· ≠ ')'))
      return Block.spanning first last
    | _ => none
  | [] => none

def block? : List Char → Option Block
  | s :: u :: m :: '(' :: rest => if isS s && isU u && isM m then arguments? rest else none
  | _ => none

end FormulaGrid.SumCall
