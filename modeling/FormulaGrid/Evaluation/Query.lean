import FormulaGrid.Evaluation.Walk

/-!
# Queries

A query asks for the value of a cell, of a text as if it stood at a cell, or of a text that stands
nowhere. Its attempt is repeated until it is not cut any more. Before that, the cell at the cut is
resolved by an attempt of its own, which may be cut in turn; the memo then answers where the attempt
was cut. Each cell so resolved is new to the memo, which bounds the rounds.
-/

set_option autoImplicit false

namespace FormulaGrid

inductive Query where
  /-- What the sheet has at the cell. -/
  | stored (cell : Address)
  /-- The text, as if it stood at the cell. -/
  | typed (text : String) (cell : Address)
  /-- The text, which stands nowhere. -/
  | loose (text : String)
deriving DecidableEq, Repr

def Query.attempt (query : Query) (sheet : Sheet) (room : Nat) (trail : Trail) : Walk Outcome := do
  match query with
  | stored cell => sheet.resolve room trail cell
  | typed text cell =>
    match Formula.ofText? text with
    | none => return .settled (.text text)
    | some formula =>
      match (← get).memo.known? trail cell with
      | some outcome => return outcome
      | none => sheet.compute trail cell formula (sheet.deeper? room trail cell)
  | loose text =>
    match Formula.ofText? text with
    | none => return .settled (.text text)
    | some formula => formula.outcome sheet (sheet.resolve room trail)

/-- What a round comes to: an answer, or cuts that wait to be resolved, the deepest one first. -/
inductive Round where
  | answered (value : Value) (memo : Memo)
  | waiting (cuts : List Cut) (memo : Memo)

namespace Sheet

def round (sheet : Sheet) (room : Nat) (attempt : Walk Outcome) (cuts : List Cut) (memo : Memo) :
    Round :=
  match cuts with
  | [] =>
    let (outcome, after) := attempt.run ⟨memo, none⟩
    match after.cut with
    | none => .answered outcome.value after.memo
    | some cut => .waiting [cut] after.memo
  | cut :: rest =>
    let (_, after) := (sheet.resolve room cut.ancestors cut.cell).run ⟨memo, none⟩
    match after.cut with
    | none => .waiting rest after.memo
    | some deeper => .waiting (deeper :: cut :: rest) after.memo

/-- Goes on for so many rounds; there is no answer if they do not suffice. -/
def settleWithin (sheet : Sheet) (room : Nat) (attempt : Walk Outcome) :
    Nat → List Cut → Memo → Option (Value × Memo)
  | 0, _, _ => none
  | rounds + 1, cuts, memo =>
    match sheet.round room attempt cuts memo with
    | .answered value memo => some (value, memo)
    | .waiting cuts memo => sheet.settleWithin room attempt rounds cuts memo

/-- Rounds enough for any query: one adds a cut, one resolves it, each cell is cut at most once, and
besides the cells of the sheet only the cell of the query can be. -/
def roundBound (sheet : Sheet) : Nat := 2 * (sheet.cellCount + 1) + 1

def settle (sheet : Sheet) (room : Nat) (trail : Trail) (query : Query) (memo : Memo) :
    Value × Memo :=
  (sheet.settleWithin room (query.attempt sheet room trail) sheet.roundBound [] memo).getD
    (.fault .invalid, memo)

end Sheet
end FormulaGrid
