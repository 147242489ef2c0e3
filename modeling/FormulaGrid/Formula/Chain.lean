import FormulaGrid.Text.Blank

/-!
# Chains of operands

Formula text is cut at each of the characters `+ - * /`. The pieces between them lose the blanks at
their ends, and blank pieces vanish. What is left is a chain when operands and operators take
turns and an operand stands at both ends.
-/

set_option autoImplicit false

namespace FormulaGrid

inductive Operator where
  | add
  | sub
  | mul
  | div
deriving DecidableEq, Repr

namespace Operator

def ofChar? : Char → Option Operator
  | '+' => some add
  | '-' => some sub
  | '*' => some mul
  | '/' => some div
  | _ => none

def toChar : Operator → Char
  | add => '+'
  | sub => '-'
  | mul => '*'
  | div => '/'

end Operator

inductive Token where
  | operand (text : List Char)
  | operator (op : Operator)
deriving DecidableEq, Repr

namespace Token

/-- The operand that a piece of text holds, none if the piece is blank. -/
def ofPiece (piece : List Char) : List Token :=
  match Text.trim piece with
  | [] => []
  | text => [operand text]

/-- Goes on after the characters `piece` (in reverse) of an unfinished piece. -/
def scanAfter (piece : List Char) : List Char → List Token
  | [] => ofPiece piece.reverse
  | c :: rest =>
    match Operator.ofChar? c with
    | some op => ofPiece piece.reverse ++ operator op :: scanAfter [] rest
    | none => scanAfter (c :: piece) rest

def scan (text : List Char) : List Token :=
  scanAfter [] text

end Token

structure Chain (α : Type) where
  first : α
  links : List (Operator × α)
deriving DecidableEq, Repr

namespace Chain

def links? : List Token → Option (List (Operator × List Char))
  | [] => some []
  | .operator op :: .operand text :: rest => (links? rest).map ((op, text) :: ·)
  | _ => none

def ofTokens? : List Token → Option (Chain (List Char))
  | .operand text :: rest => (links? rest).map fun links => ⟨text, links⟩
  | _ => none

def map {α β : Type} (f : α → β) (chain : Chain α) : Chain β :=
  ⟨f chain.first, chain.links.map fun link => (link.1, f link.2)⟩

def mapM {m : Type → Type} [Monad m] {α β : Type} (f : α → m β) (chain : Chain α) :
    m (Chain β) := do
  let first ← f chain.first
  let links ← chain.links.mapM fun link => do return (link.1, ← f link.2)
  return ⟨first, links⟩

end Chain
end FormulaGrid
