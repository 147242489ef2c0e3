import FormulaGrid.Evaluation.Query
import FormulaGrid.Proofs.Evaluation.Itinerary
import FormulaGrid.Proofs.Sheet.FormulaCells

/-!
# Evaluation without a limit

The plain recursion along references: the same trail and the same memo, and no limit to how many
cells nest. It ends because each cell on the way down joins the trail, and there are only so many
formula cells.
-/

set_option autoImplicit false

namespace FormulaGrid

theorem Memo.not_mem_of_known?_eq_none {memo : Memo} {trail : Trail} {cell : Address}
    (h : memo.known? trail cell = none) : cell ∉ trail := by
  intro hCell
  simp [known?, hCell] at h

theorem Memo.get?_of_known?_eq_none {memo : Memo} {trail : Trail} {cell : Address}
    (h : memo.known? trail cell = none) : memo.get? cell = none := by
  rw [known?, if_neg (not_mem_of_known?_eq_none h), Option.map_eq_none_iff] at h
  exact h

theorem Memo.known?_eq_none {memo : Memo} {trail : Trail} {cell : Address}
    (hCell : cell ∉ trail) (hMemo : memo.get? cell = none) : memo.known? trail cell = none := by
  rw [known?, if_neg hCell, hMemo]
  rfl

theorem Memo.contains_eq_false_iff {memo : Memo} {cell : Address} :
    memo.contains cell = false ↔ memo.get? cell = none := by
  rw [contains_eq_isSome, Option.isSome_eq_false_iff, Option.isNone_iff_eq_none]

namespace Sheet

def computeFully (sheet : Sheet) (cell : Address) (formula : Formula)
    (deeper : Address → StateM Memo Outcome) : StateM Memo Outcome := do
  let outcome := (← formula.outcome sheet deeper).closeLoop cell
  modify (·.insert cell outcome)
  return outcome

/-- The outcome of a cell of the sheet, however deep the references go. -/
def resolveFully (sheet : Sheet) (trail : Trail) (cell : Address) : StateM Memo Outcome := do
  match _hKnown : (← get).known? trail cell with
  | some outcome => return outcome
  | none =>
    match _hFormula : sheet.formula? cell with
    | none => return .settled (.text (sheet.text cell))
    | some formula =>
      sheet.computeFully cell formula (sheet.resolveFully (trail.insert cell))
termination_by (sheet.idleCells trail).card
decreasing_by
  apply card_idleCells_insert_lt (Memo.not_mem_of_known?_eq_none ‹_›)
  simp [*]

end Sheet

def Query.answerFully (query : Query) (sheet : Sheet) (trail : Trail) : StateM Memo Outcome := do
  match query with
  | stored cell => sheet.resolveFully trail cell
  | typed text cell =>
    match Formula.ofText? text with
    | none => return .settled (.text text)
    | some formula =>
      match (← get).known? trail cell with
      | some outcome => return outcome
      | none => sheet.computeFully cell formula (sheet.resolveFully (trail.insert cell))
  | loose text =>
    match Formula.ofText? text with
    | none => return .settled (.text text)
    | some formula => formula.outcome sheet (sheet.resolveFully trail)

namespace Sheet

variable {sheet : Sheet} {trail : Trail} {cell : Address} {memo : Memo}

theorem run_resolveFully : (sheet.resolveFully trail cell).run memo =
    match memo.known? trail cell with
    | some outcome => (outcome, memo)
    | none =>
      match sheet.formula? cell with
      | none => (.settled (.text (sheet.text cell)), memo)
      | some formula =>
        (sheet.computeFully cell formula (sheet.resolveFully (trail.insert cell))).run memo := by
  rw [resolveFully, StateT.run_bind, StateT.run_get]
  simp only [pure_bind]
  split
  · simp only [*]
    rfl
  · split
    · simp only [*]
      rfl
    · simp only [*]

theorem resolveFully_known {outcome : Outcome} (hKnown : memo.known? trail cell = some outcome) :
    (sheet.resolveFully trail cell).run memo = (outcome, memo) := by
  rw [run_resolveFully, hKnown]

theorem resolveFully_text (hKnown : memo.known? trail cell = none)
    (hText : sheet.formula? cell = none) :
    (sheet.resolveFully trail cell).run memo = (.settled (.text (sheet.text cell)), memo) := by
  rw [run_resolveFully, hKnown, hText]

theorem resolveFully_formula {formula : Formula} (hKnown : memo.known? trail cell = none)
    (hFormula : sheet.formula? cell = some formula) :
    (sheet.resolveFully trail cell).run memo =
      (sheet.computeFully cell formula (sheet.resolveFully (trail.insert cell))).run memo := by
  rw [run_resolveFully, hKnown, hFormula]

theorem run_computeFully (formula : Formula) (deeper : Address → StateM Memo Outcome) :
    (sheet.computeFully cell formula deeper).run memo =
      let body := ((formula.itinerary sheet).follow deeper).run memo
      (body.1.closeLoop cell, body.2.insert cell (body.1.closeLoop cell)) := by
  rw [← Formula.outcome_eq_follow]
  rfl

end Sheet
end FormulaGrid
