import FormulaGrid.Proofs.Evaluation.Growth
import FormulaGrid.Proofs.Evaluation.Valuation

/-!
# Visits and blame

While a chain is evaluated its operands are visited from left to right, as long as they have
numbers, so a visit to a cell without one is a visit to the cell to blame. Where no sum lies on a
loop, visits around a loop are therefore blame all the way.
-/

set_option autoImplicit false

namespace FormulaGrid.Sheet

open Relation

structure Grounded (sheet : Sheet) (value : Address → Value) : Prop where
  sumsOffLoops : sheet.SumsOffLoops
  isValuation : sheet.IsValuation value
  noNumber : ∀ cell operands, sheet.formula? cell = some (.chain operands) →
    TransGen sheet.Refers cell cell → (value cell).number? = none

theorem SumsOffLoops.grounded {sheet : Sheet} (h : sheet.SumsOffLoops) :
    sheet.Grounded sheet.trueValue :=
  ⟨h, trueValue_isValuation h, fun _ _ => trueValue_of_loop⟩

/-- Evaluating `cell` may come to visit `other`: a sum visits its block, a chain goes on as long as
its operands have numbers. -/
def Visits (sheet : Sheet) (value : Address → Value) (cell other : Address) : Prop :=
  (∃ block, sheet.formula? cell = some (.sum block) ∧ other ∈ sheet.cellsIn block) ∨
  ∃ operands, sheet.formula? cell = some (.chain operands) ∧
    ∃ before after, operands.toList = before ++ .cell other :: after ∧
      ∀ x ∈ before, (x.number? value).isSome

variable {sheet : Sheet} {value : Address → Value} {cell other : Address}

theorem Visits.refers (h : sheet.Visits value cell other) : sheet.Refers cell other := by
  rcases h with ⟨block, hFormula, hOther⟩ | ⟨operands, hFormula, before, after, hList, _⟩
  · exact (refers_of_sum hFormula).mpr hOther
  · exact (refers_of_chain hFormula).mpr (by simp [hList])

theorem reflTransGen_of_visits (h : ReflTransGen (sheet.Visits value) cell other) :
    ReflTransGen sheet.Refers cell other :=
  ReflTransGen.mono (fun _ _ h => Visits.refers h) _ _ h

theorem Visits.blames {operands : Chain Operand} (h : sheet.Visits value cell other)
    (hFormula : sheet.formula? cell = some (.chain operands))
    (hNumber : (value other).number? = none) : sheet.Blames value cell other := by
  rcases h with ⟨block, hSum, _⟩ | ⟨operands', hChain, before, after, hList, hBefore⟩
  · rw [hFormula] at hSum
    cases hSum
  · exact ⟨operands', hChain,
      Chain.failing?_eq_some_iff.mpr ⟨hNumber, before, after, hList, hBefore⟩⟩

theorem Blames.mapM_eq_none {operands : Chain Operand} (h : sheet.Blames value cell other)
    (hFormula : sheet.formula? cell = some (.chain operands)) :
    operands.mapM (Operand.number? value) = none :=
  Chain.mapM_eq_none_iff.mpr ⟨.cell other, (refers_of_chain hFormula).mp h.refers, h.number?⟩

theorem Grounded.of_loop {operands : Chain Operand} (h : sheet.Grounded value)
    (hFormula : sheet.formula? cell = some (.chain operands))
    (hLoop : TransGen sheet.Refers cell cell) (hForth : ReflTransGen sheet.Refers cell other)
    (hBack : ReflTransGen sheet.Refers other cell) :
    (∃ operands, sheet.formula? other = some (.chain operands)) ∧ (value other).number? = none := by
  by_cases hSame : other = cell
  · rw [hSame]
    exact ⟨⟨operands, hFormula⟩, h.noNumber cell operands hFormula hLoop⟩
  · have hForth := (reflTransGen_iff_eq_or_transGen.mp hForth).resolve_left hSame
    have hBack := (reflTransGen_iff_eq_or_transGen.mp hBack).resolve_left (Ne.symm hSame)
    obtain ⟨others, hOther⟩ := h.sumsOffLoops.chain (Ne.symm hSame) hBack hForth
    exact ⟨⟨others, hOther⟩, h.noNumber other others hOther (hBack.trans hForth)⟩

theorem Grounded.blames_of_visits {operands : Chain Operand} (h : sheet.Grounded value)
    (hFormula : sheet.formula? cell = some (.chain operands))
    (hVisits : ReflTransGen (sheet.Visits value) other cell)
    (hLoop : TransGen sheet.Refers cell cell) (hForth : ReflTransGen sheet.Refers cell other) :
    ReflTransGen (sheet.Blames value) other cell := by
  induction hVisits using ReflTransGen.head_induction_on with
  | refl => exact .refl
  | head hNext hRest ih =>
    have hBack := reflTransGen_of_visits hRest
    have hOnward := hForth.tail hNext.refers
    obtain ⟨⟨others, hOther⟩, _⟩ := h.of_loop hFormula hLoop hForth (.head hNext.refers hBack)
    obtain ⟨_, hNumber⟩ := h.of_loop hFormula hLoop hOnward hBack
    exact .head (hNext.blames hOther hNumber) (ih hOnward)

/-- Every cell on the trail is being evaluated for the sake of `cell`. -/
def LeadsTo (sheet : Sheet) (value : Address → Value) (trail : Trail) (cell : Address) : Prop :=
  ∀ above ∈ trail, ReflTransGen (sheet.Visits value) above cell

theorem LeadsTo.of_mem_insert {trail : Trail} (h : sheet.LeadsTo value trail cell)
    (hMem : other ∈ trail.insert cell) : ReflTransGen (sheet.Visits value) other cell := by
  rcases mem_insert_iff.mp hMem with rfl | hMem
  · exact .refl
  · exact h other hMem

theorem LeadsTo.insert {trail : Trail} (h : sheet.LeadsTo value trail cell)
    (hVisits : sheet.Visits value cell other) :
    sheet.LeadsTo value (trail.insert cell) other :=
  fun _ hAbove => (h.of_mem_insert hAbove).tail hVisits

end FormulaGrid.Sheet
