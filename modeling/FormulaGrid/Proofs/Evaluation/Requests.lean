import FormulaGrid.Proofs.Evaluation.Rounds

/-!
# Requests to a pass

A pass may be asked and may display anything, in any order and any number of times. What every query
keeps of the memo while nothing is in progress is kept by all requests, and what holds of every answer
holds of all that is displayed.
-/

set_option autoImplicit false

namespace FormulaGrid

namespace Query

def cell? : Query → Option Address
  | stored cell => some cell
  | typed _ cell => some cell
  | loose _ => none

def AsStored (sheet : Sheet) : Query → Prop
  | typed text cell => text = sheet.text cell
  | _ => True

theorem run_answerFully_typed_text (sheet : Sheet) (trail : Trail) (cell : Address) (memo : Memo)
    (hFormula : (sheet.formula? cell).isSome) :
    ((typed (sheet.text cell) cell).answerFully sheet trail).run memo =
      (sheet.resolveFully trail cell).run memo := by
  obtain ⟨formula, hFormula⟩ := Option.isSome_iff_exists.mp hFormula
  cases hKnown : memo.known? trail cell with
  | some outcome => rw [run_answerFully_typed hFormula, hKnown, Sheet.resolveFully_known hKnown]
  | none =>
    rw [run_answerFully_typed hFormula, hKnown, Sheet.resolveFully_formula hKnown hFormula]

end Query

namespace Pass

/-- The passes that queries and displays lead to, in any number and order. -/
inductive Reachable (sheet : Sheet) : Pass → Prop where
  | start : Reachable sheet (.start sheet)
  | ask {pass : Pass} (query : Query) (hQuery : query.AsStored sheet) :
      Reachable sheet pass → Reachable sheet ((Pass.ask query).run pass).2
  | display {pass : Pass} (cell : Address) :
      Reachable sheet pass → Reachable sheet ((Pass.display cell).run pass).2
  | displayGrid {pass : Pass} :
      Reachable sheet pass → Reachable sheet (Pass.displayGrid.run pass).2

structure Idle (sheet : Sheet) (I : Memo → Prop) (pass : Pass) : Prop where
  sheet_eq : pass.sheet = sheet
  trail_eq : pass.trail = ∅
  memo : I pass.memo

def Keeps (sheet : Sheet) (I : Memo → Prop) (A : Query → Value → Prop) : Prop :=
  ∀ query memo, query.AsStored sheet → I memo →
    I ((query.answerFully sheet ∅).run memo).2 ∧
      A query ((query.answerFully sheet ∅).run memo).1.value

variable {sheet : Sheet} {I : Memo → Prop} {A : Query → Value → Prop} {pass : Pass}

theorem Idle.ask (hKeeps : Keeps sheet I A) (h : pass.Idle sheet I) (query : Query)
    (hQuery : query.AsStored sheet) : ((Pass.ask query).run pass).2.Idle sheet I ∧
      A query ((Pass.ask query).run pass).1 := by
  obtain ⟨hMemo, hAnswer⟩ := hKeeps query pass.memo hQuery h.memo
  rw [run_ask, h.sheet_eq, h.trail_eq]
  exact ⟨⟨rfl, rfl, hMemo⟩, hAnswer⟩

theorem Idle.display (hKeeps : Keeps sheet I A) (h : pass.Idle sheet I) (cell : Address) :
    ((Pass.display cell).run pass).2.Idle sheet I ∧
      ∃ value, A (.stored cell) value ∧ ((Pass.display cell).run pass).1 = value.display := by
  obtain ⟨hAfter, hAnswer⟩ := h.ask hKeeps (.stored cell) trivial
  exact ⟨hAfter, _, hAnswer, rfl⟩

theorem forall₂_mapM {α β σ : Type} {J : σ → Prop} {Q : α → β → Prop} {f : α → StateM σ β}
    (hStep : ∀ x s, J s → J ((f x).run s).2 ∧ Q x ((f x).run s).1) (xs : List α) {s : σ}
    (hs : J s) : J ((xs.mapM f).run s).2 ∧ List.Forall₂ Q xs ((xs.mapM f).run s).1 := by
  induction xs generalizing s with
  | nil => exact ⟨hs, .nil⟩
  | cons x xs ih =>
    obtain ⟨hFirst, hx⟩ := hStep x s hs
    obtain ⟨hRest, hxs⟩ := ih hFirst
    rw [List.mapM_cons]
    exact ⟨hRest, .cons hx hxs⟩

theorem Idle.displayGrid (hKeeps : Keeps sheet I A) (h : pass.Idle sheet I) :
    (Pass.displayGrid.run pass).2.Idle sheet I ∧
      List.Forall₂ (List.Forall₂ fun cell text =>
        ∃ value, A (.stored cell) value ∧ text = value.display)
          sheet.addresses (Pass.displayGrid.run pass).1 := by
  have hRun : Pass.displayGrid.run pass =
      (pass.sheet.addresses.mapM (List.mapM Pass.display)).run pass := rfl
  rw [hRun, h.sheet_eq]
  exact forall₂_mapM (J := Idle sheet I) (fun row _ hPass =>
    forall₂_mapM (J := Idle sheet I) (fun cell _ hPass => hPass.display hKeeps cell) row hPass) _ h

theorem exists_of_forall₂ {α β : Type} {R : α → β → Prop} {xs : List α} {ys : List β}
    (h : List.Forall₂ R xs ys) {i : Nat} {y : β} (hy : ys[i]? = some y) :
    ∃ x, xs[i]? = some x ∧ R x y := by
  induction h generalizing i with
  | nil => cases hy
  | cons hFirst _ ih =>
    cases i with
    | zero =>
      cases hy
      exact ⟨_, rfl, hFirst⟩
    | succ i => exact ih hy

theorem Idle.of_displayGrid (hKeeps : Keeps sheet I A) (h : pass.Idle sheet I) {row col : Nat}
    {text : String} (hText : (Pass.displayGrid.run pass).1[row]?.bind (·[col]?) = some text) :
    ∃ value, A (.stored ⟨row, col⟩) value ∧ text = value.display := by
  obtain ⟨texts, hTexts, hText⟩ := Option.bind_eq_some_iff.mp hText
  obtain ⟨cells, hCells, hShows⟩ := exists_of_forall₂ (h.displayGrid hKeeps).2 hTexts
  obtain ⟨cell, hCell, hShown⟩ := exists_of_forall₂ hShows hText
  rw [Sheet.addresses, List.getElem?_map] at hCells
  obtain ⟨place, hRow, rfl⟩ := Option.map_eq_some_iff.mp hCells
  rw [List.getElem?_map] at hCell
  obtain ⟨place', hCol, rfl⟩ := Option.map_eq_some_iff.mp hCell
  obtain ⟨_, rfl⟩ := List.getElem?_eq_some_iff.mp hRow
  obtain ⟨_, rfl⟩ := List.getElem?_eq_some_iff.mp hCol
  simpa only [List.getElem_range] using hShown

theorem Reachable.idle (hEmpty : I .empty) (hKeeps : Keeps sheet I A)
    (h : Reachable sheet pass) : pass.Idle sheet I := by
  induction h with
  | start => exact ⟨rfl, rfl, hEmpty⟩
  | ask query hQuery _ ih => exact (ih.ask hKeeps query hQuery).1
  | display cell _ ih => exact (ih.display hKeeps cell).1
  | displayGrid _ ih => exact (ih.displayGrid hKeeps).1

end Pass
end FormulaGrid
