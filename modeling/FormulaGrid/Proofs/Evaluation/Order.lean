import FormulaGrid.Proofs.Evaluation.Agreement
import FormulaGrid.Proofs.Evaluation.Requests

/-!
# The order of queries

A pass may be asked anything in any order. Where no sum lies on a loop, each step leaves the memo
sound with nothing in progress, so a cell has the same value whenever it is asked for.
-/

set_option autoImplicit false

namespace FormulaGrid

namespace Sheet

variable {sheet : Sheet} {value : Address → Value} {memo : Memo}

theorem Settles.root_eq_none {cell : Address} {result : Outcome × Memo}
    (h : sheet.Settles value ∅ cell result) : result.1.root = none :=
  Outcome.root_eq_none fun root hRoot => (h.looping root hRoot).2.1

theorem resolveFully_sound (hGrounded : sheet.Grounded value)
    (hMemo : sheet.Sound value ∅ memo none) (cell : Address) :
    sheet.Sound value ∅ ((sheet.resolveFully ∅ cell).run memo).2 none ∧
      ((sheet.resolveFully ∅ cell).run memo).1.value = value cell := by
  have hSettles := resolveFully_settles hGrounded ∅ cell memo
    (fun _ hAbove => absurd hAbove Std.ExtTreeSet.not_mem_empty) hMemo
  exact ⟨hSettles.sound_of_root hSettles.root_eq_none,
    (hSettles.settled hSettles.root_eq_none).1⟩

theorem answerFully_sound (hGrounded : sheet.Grounded value)
    (hMemo : sheet.Sound value ∅ memo none) {query : Query} (hQuery : query.AsStored sheet) :
    sheet.Sound value ∅ ((query.answerFully sheet ∅).run memo).2 none ∧
      ∀ cell, query.cell? = some cell →
        ((query.answerFully sheet ∅).run memo).1.value = value cell := by
  cases query with
  | stored cell =>
    obtain ⟨hSound, hValue⟩ := resolveFully_sound hGrounded hMemo cell
    refine ⟨hSound, ?_⟩
    rintro _ ⟨⟩
    exact hValue
  | typed text cell =>
    subst hQuery
    cases hFormula : sheet.formula? cell with
    | none =>
      have hText : Formula.ofText? (sheet.text cell) = none := hFormula
      simp only [Query.answerFully, hText]
      refine ⟨hMemo, ?_⟩
      rintro _ ⟨⟩
      rw [hGrounded.isValuation cell, rule, hFormula]
      rfl
    | some formula =>
      have hRun := Query.run_answerFully_typed_text sheet ∅ cell memo (Option.isSome_of_eq_some hFormula)
      obtain ⟨hSound, hValue⟩ := resolveFully_sound hGrounded hMemo cell
      rw [hRun]
      refine ⟨hSound, ?_⟩
      rintro _ ⟨⟩
      exact hValue
  | loose text =>
    refine ⟨?_, fun _ h => by cases h⟩
    cases hText : Formula.ofText? text with
    | none =>
      simp only [Query.answerFully, hText]
      exact hMemo
    | some formula =>
      simp only [Query.answerFully, hText, Formula.outcome_eq_follow]
      exact Itinerary.follow_keeps (P := fun memo => sheet.Sound value ∅ memo none)
        (fun other _ hMemo => (resolveFully_sound hGrounded hMemo other).1) _ hMemo

end Sheet

namespace Pass

variable {sheet : Sheet} {value : Address → Value} {pass : Pass}

theorem keeps_sound (hGrounded : sheet.Grounded value) :
    Keeps sheet (fun memo => sheet.Sound value ∅ memo none)
      (fun query answer => ∀ cell, query.cell? = some cell → answer = value cell) :=
  fun _ _ hQuery hMemo => Sheet.answerFully_sound hGrounded hMemo hQuery

theorem Reachable.settled (hGrounded : sheet.Grounded value) (h : Reachable sheet pass) :
    pass.Idle sheet fun memo => sheet.Sound value ∅ memo none :=
  h.idle .empty (keeps_sound hGrounded)

structure Agrees (sheet : Sheet) (value : Address → Value) (pass : Pass) : Prop where
  stored : ∀ cell, ((Pass.ask (.stored cell)).run pass).1 = value cell
  typed : ∀ cell, ((Pass.ask (.typed (sheet.text cell) cell)).run pass).1 = value cell
  display : ∀ cell, ((Pass.display cell).run pass).1 = (value cell).display
  displayGrid : (Pass.displayGrid.run pass).1 =
    sheet.addresses.map (List.map fun cell => (value cell).display)

theorem map_eq_of_forall₂ {α β : Type} {R : α → β → Prop} {g : α → β} {xs : List α} {ys : List β}
    (hStep : ∀ x y, R x y → g x = y) (h : List.Forall₂ R xs ys) : xs.map g = ys := by
  rw [← List.forall₂_eq_eq_eq, List.forall₂_map_left_iff]
  exact h.imp hStep

theorem Idle.agrees (hGrounded : sheet.Grounded value)
    (h : pass.Idle sheet fun memo => sheet.Sound value ∅ memo none) :
    pass.Agrees sheet value := by
  have hKeeps := keeps_sound hGrounded
  constructor
  · exact fun cell => (h.ask hKeeps (.stored cell) trivial).2 cell rfl
  · exact fun cell => (h.ask hKeeps (.typed (sheet.text cell) cell) rfl).2 cell rfl
  · intro cell
    obtain ⟨_, answer, hAnswer, hText⟩ := h.display hKeeps cell
    rw [hText, hAnswer cell rfl]
  · refine (map_eq_of_forall₂ (fun row texts => map_eq_of_forall₂ ?_) (h.displayGrid hKeeps).2).symm
    rintro cell _ ⟨answer, hAnswer, rfl⟩
    rw [hAnswer cell rfl]

/-- Where no sum lies on a loop the cells have values by which every pass answers. -/
theorem agrees_of_reachable (sheet : Sheet) (hSums : sheet.SumsOffLoops) :
    ∃ value, sheet.IsValuation value ∧ ∀ pass, Reachable sheet pass → pass.Agrees sheet value :=
  ⟨sheet.trueValue, Sheet.trueValue_isValuation hSums, fun _ hPass =>
    (hPass.settled hSums.grounded).agrees hSums.grounded⟩

/-- A loop of two chains, a chain that reads it, a chain of numbers, and a sum over all cells, itself
among them. -/
def loopBelowSum : Sheet := ⟨[["=B1", "=A1", "=A1+1", "2", "=D1+D1*3"], ["=SUM(A1:E2)"]]⟩

theorem agrees_on_loopBelowSum : loopBelowSum.SumsOffLoops ∧
    ∃ value, loopBelowSum.IsValuation value ∧
      [value ⟨0, 0⟩, value ⟨0, 2⟩, value ⟨0, 4⟩, value ⟨1, 0⟩] =
        [.fault .circular, .fault .reference, .number (.float 8.0), .number (.float 10.0)] ∧
      ∀ pass, Reachable loopBelowSum pass → pass.Agrees loopBelowSum value := by
  have hSums : loopBelowSum.SumsOffLoops :=
    Sheet.sumsOffLoops_of_levels Address.row (by decide +kernel)
  obtain ⟨value, hValuation, hAgrees⟩ := agrees_of_reachable loopBelowSum hSums
  refine ⟨hSums, value, hValuation, ?_, hAgrees⟩
  have hStart := (hAgrees _ .start).stored
  rw [← hStart, ← hStart, ← hStart, ← hStart]
  decide +kernel

end Pass
end FormulaGrid
