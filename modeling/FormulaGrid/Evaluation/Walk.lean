import FormulaGrid.Evaluation.Memo
import FormulaGrid.Evaluation.Reading
import Std.Data.ExtTreeSet

/-!
# The walk along references

Cells are resolved by following their references depth first. The trail holds the cells whose
evaluation is in progress; a second visit to one of them closes a loop. The memo answers for cells
that are done. An attempt has room for so many nested cells: where a chain of references goes
deeper, it is cut at the cell that does not fit, and from there on it computes and stores nothing.
-/

set_option autoImplicit false

namespace FormulaGrid

abbrev Trail := Std.ExtTreeSet Address

/-- Forgets a root that is not in progress: a loop is over once its root is. -/
def Outcome.onTrail (outcome : Outcome) (trail : Trail) : Outcome :=
  { outcome with root := outcome.root.filter (· ∈ trail) }

def Memo.known? (memo : Memo) (trail : Trail) (cell : Address) : Option Outcome :=
  if cell ∈ trail then some (.loop cell) else (memo.get? cell).map (·.onTrail trail)

/-- The cell at which an attempt was cut, and the cells in progress above it. -/
structure Cut where
  cell : Address
  ancestors : Trail
deriving DecidableEq

structure Progress where
  memo : Memo
  cut : Option Cut

namespace Progress

/-- Stores an outcome, unless the attempt is cut: it might then rest on what was not computed. -/
def store (cell : Address) (outcome : Outcome) (progress : Progress) : Progress :=
  match progress.cut with
  | none => { progress with memo := progress.memo.insert cell outcome }
  | some _ => progress

def cutAt (cell : Address) (trail : Trail) (progress : Progress) : Progress :=
  { progress with cut := some ⟨cell, trail⟩ }

end Progress

abbrev Walk := StateM Progress

namespace Sheet

def compute (sheet : Sheet) (trail : Trail) (cell : Address) (formula : Formula)
    (deeper? : Option (Address → Walk Outcome)) : Walk Outcome := do
  if (← get).cut.isSome then return .fault .invalid
  match deeper? with
  | none =>
    modify (·.cutAt cell trail)
    return .fault .invalid
  | some deeper =>
    let outcome := (← formula.outcome sheet deeper).closeLoop cell
    modify (·.store cell outcome)
    return outcome

/-- The outcome of a cell of the sheet, with room for so many nested cells. -/
def resolve (sheet : Sheet) (room : Nat) (trail : Trail) (cell : Address) : Walk Outcome := do
  match (← get).memo.known? trail cell with
  | some outcome => return outcome
  | none =>
    match Formula.ofText? (sheet.text cell) with
    | none => return .settled (.text (sheet.text cell))
    | some formula =>
      match room with
      | 0 => sheet.compute trail cell formula none
      | room + 1 => sheet.compute trail cell formula (some (sheet.resolve room (trail.insert cell)))

def deeper? (sheet : Sheet) (room : Nat) (trail : Trail) (cell : Address) :
    Option (Address → Walk Outcome) :=
  match room with
  | 0 => none
  | room + 1 => some (sheet.resolve room (trail.insert cell))

theorem resolve_eq (sheet : Sheet) (room : Nat) (trail : Trail) (cell : Address) :
    sheet.resolve room trail cell = (do
      match (← get).memo.known? trail cell with
      | some outcome => return outcome
      | none =>
        match Formula.ofText? (sheet.text cell) with
        | none => return .settled (.text (sheet.text cell))
        | some formula =>
          sheet.compute trail cell formula (sheet.deeper? room trail cell)) := by
  cases room <;> rw [resolve] <;> rfl

end Sheet

end FormulaGrid
