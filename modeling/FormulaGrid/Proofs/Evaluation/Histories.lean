import FormulaGrid.Proofs.Evaluation.Computed
import FormulaGrid.Proofs.Evaluation.Machine
import FormulaGrid.Proofs.Evaluation.Requests

/-!
# Histories of passes

A pass may be told anything in any order, also to evaluate a text at a cell that has another one. Each
request comes to queries, so what a query does to the memo is what any number of requests do to it.
-/

set_option autoImplicit false

namespace FormulaGrid

def Memo.after (sheet : Sheet) (queries : List Query) (memo : Memo) : Memo :=
  queries.foldl (fun memo query => ((query.answerFully sheet ∅).run memo).2) memo

namespace Memo

variable {sheet : Sheet} {memo : Memo} {cell : Address} {outcome : Outcome}

theorem after_append (queries later : List Query) :
    memo.after sheet (queries ++ later) = (memo.after sheet queries).after sheet later :=
  List.foldl_append

theorem after_keeps (queries : List Query) (h : memo.get? cell = some outcome) :
    (memo.after sheet queries).get? cell = some outcome := by
  induction queries generalizing memo with
  | nil => exact h
  | cons query queries ih => exact ih ((query.answerFully_extends sheet memo).keeps cell outcome h)

theorem after_adds (queries : List Query) (hNone : memo.get? cell = none)
    (hSome : (memo.after sheet queries).get? cell = some outcome) :
    (sheet.formula? cell).isSome ∨ ∃ query ∈ queries, query.Types cell := by
  induction queries generalizing memo with
  | nil =>
    rw [after, List.foldl_nil, hNone] at hSome
    cases hSome
  | cons query queries ih =>
    cases hNext : ((query.answerFully sheet ∅).run memo).2.get? cell with
    | none =>
      obtain hFormula | ⟨other, hOther, hTypes⟩ := ih hNext hSome
      · exact .inl hFormula
      · exact .inr ⟨other, List.mem_cons_of_mem _ hOther, hTypes⟩
    | some stored =>
      exact ((query.answerFully_extends sheet memo).adds cell stored hNone hNext).imp_right
        fun hTypes => ⟨query, List.mem_cons_self, hTypes⟩

theorem Computed.after (h : memo.Computed) (sheet : Sheet) (queries : List Query) :
    (memo.after sheet queries).Computed := by
  induction queries generalizing memo with
  | nil => exact h
  | cons query queries ih => exact ih (query.answerFully_computed h).2

end Memo

def Machine.askAll (sheet : Sheet) (queries : List Query) : Run (List Value) :=
  queries.mapM (ask sheet)

theorem Machine.askAll_yields (sheet : Sheet) (queries : List Query) (memo : Memo) :
    ∃ values, Yields ∅ 0 (askAll sheet queries) ⟨memo, none⟩ values
      ⟨memo.after sheet queries, none⟩ := by
  induction queries generalizing memo with
  | nil => exact ⟨[], .of_run fun _ => rfl⟩
  | cons query queries ih =>
    obtain ⟨values, hRest⟩ := ih ((query.answerFully sheet ∅).run memo).2
    refine ⟨((query.answerFully sheet ∅).run memo).1.value :: values, ?_⟩
    rw [askAll, List.mapM_cons]
    exact (ask_yields sheet query memo).bind (hRest.bind (.of_run fun _ => rfl))

inductive Request where
  | ask (query : Query)
  | display (cell : Address)
  | displayGrid

namespace Request

def queries (sheet : Sheet) : Request → List Query
  | ask query => [query]
  | display cell => [.stored cell]
  | displayGrid => sheet.addresses.flatten.map .stored

def run (pass : Pass) : Request → Pass
  | ask query => ((Pass.ask query).run pass).2
  | display cell => ((Pass.display cell).run pass).2
  | displayGrid => (Pass.displayGrid.run pass).2

theorem run_mapM {σ α β : Type} (f : α → StateM σ β) (xs : List α) (s : σ) :
    ((xs.mapM f).run s).2 = xs.foldl (fun s x => ((f x).run s).2) s := by
  induction xs generalizing s with
  | nil => rfl
  | cons x xs ih =>
    rw [List.mapM_cons]
    exact ih _

theorem foldl_ask (queries : List Query) (sheet : Sheet) (memo : Memo) :
    queries.foldl (fun pass query => ((Pass.ask query).run pass).2) ⟨sheet, memo, ∅⟩ =
      ⟨sheet, memo.after sheet queries, ∅⟩ := by
  induction queries generalizing memo with
  | nil => rfl
  | cons query queries ih => rw [List.foldl_cons, Pass.run_ask, ih]; rfl

theorem run_eq (request : Request) (sheet : Sheet) (memo : Memo) :
    request.run ⟨sheet, memo, ∅⟩ = ⟨sheet, memo.after sheet (request.queries sheet), ∅⟩ := by
  rw [← foldl_ask]
  cases request with
  | ask query => rfl
  | display cell => rfl
  | displayGrid =>
    change ((sheet.addresses.mapM (List.mapM Pass.display)).run ⟨sheet, memo, ∅⟩).2 = _
    rw [run_mapM, queries, List.foldl_map, List.foldl_flatten]
    simp only [run_mapM]
    rfl

end Request

theorem Formula.isSome_ofText?_iff {text : String} :
    (ofText? text).isSome ↔ text.toList.head? = some sigil := by
  rw [ofText?]
  cases text.toList with
  | nil => simp
  | cons c body =>
    by_cases hSigil : c = sigil
    · simp [hSigil]
    · simp [hSigil]

theorem Sheet.isSome_formula?_iff {sheet : Sheet} {cell : Address} :
    (sheet.formula? cell).isSome ↔
      ∃ text, sheet.text? cell = some text ∧ text.toList.head? = some Formula.sigil := by
  rw [formula?, Formula.isSome_ofText?_iff, text]
  cases sheet.text? cell with
  | none => simp
  | some text => simp

namespace Pass

def serve (requests : List Request) (pass : Pass) : Pass :=
  requests.foldl Request.run pass

theorem serve_eq (requests : List Request) (sheet : Sheet) (memo : Memo) :
    serve requests ⟨sheet, memo, ∅⟩ =
      ⟨sheet, memo.after sheet (requests.flatMap (Request.queries sheet)), ∅⟩ := by
  induction requests generalizing memo with
  | nil => rfl
  | cons request requests ih =>
    rw [serve, List.foldl_cons, request.run_eq, List.flatMap_cons, Memo.after_append]
    exact ih _

theorem keeps_computed (sheet : Sheet) :
    Keeps sheet Memo.Computed fun _ value => value.Proper :=
  fun query _ _ hMemo => (query.answerFully_computed hMemo).symm

structure Orderly (sheet : Sheet) (requests : List Request) (pass : Pass) : Prop where
  trail : pass.trail = ∅
  /-- The one trail of the machine that answers the same queries is empty too. -/
  machine : ∃ values calls,
    (Machine.askAll sheet (requests.flatMap (Request.queries sheet))).run (.idle .empty) =
      some (values, ⟨⟨pass.memo, none⟩, ∅, 0, calls⟩)
  cells : ∀ cell, pass.memo.contains cell →
    (∃ text, sheet.text? cell = some text ∧ text.toList.head? = some Formula.sigil) ∨
      ∃ text, .ask (.typed text cell) ∈ requests ∧ text.toList.head? = some Formula.sigil
  values : ∀ cell value, pass.memo.value? cell = some value → value.Computed
  keeps : ∀ later cell outcome, pass.memo.get? cell = some outcome →
    (pass.serve later).memo.get? cell = some outcome
  answers : ∀ query, ((ask query).run pass).1.Proper
  display : ∀ cell, ∃ value : Value, value.Proper ∧ ((Pass.display cell).run pass).1 = value.display
  displayGrid : ∀ (row col : Nat) (text : String),
    (Pass.displayGrid.run pass).1[row]?.bind (·[col]?) = some text →
      ∃ value : Value, value.Proper ∧ text = value.display

theorem typed_of_types {sheet : Sheet} {requests : List Request} {query : Query} {cell : Address}
    (hQuery : query ∈ requests.flatMap (Request.queries sheet)) (hTypes : query.Types cell) :
    ∃ text, .ask (.typed text cell) ∈ requests ∧ text.toList.head? = some Formula.sigil := by
  obtain ⟨request, hRequest, hQuery⟩ := List.mem_flatMap.mp hQuery
  cases query with
  | stored other => cases hTypes
  | loose text => cases hTypes
  | typed text other =>
    obtain ⟨rfl, hText⟩ := hTypes
    refine ⟨text, ?_, Formula.isSome_ofText?_iff.mp hText⟩
    cases request with
    | ask query => rwa [List.mem_singleton.mp hQuery]
    | display other => cases List.mem_singleton.mp hQuery
    | displayGrid =>
      obtain ⟨_, _, hSame⟩ := List.mem_map.mp hQuery
      cases hSame

/-- Whatever a pass has been told, nothing is in progress, and its memo holds computed values of formula
cells, which stay as they are. -/
theorem orderly_after_requests (sheet : Sheet) (requests : List Request) :
    ((Pass.start sheet).serve requests).Orderly sheet requests := by
  have hPass : (Pass.start sheet).serve requests = _ := serve_eq requests sheet .empty
  have hComputed := Memo.Computed.empty.after sheet
    (requests.flatMap (Request.queries sheet))
  have hIdle : ((Pass.start sheet).serve requests).Idle sheet Memo.Computed := by
    rw [hPass]
    exact ⟨rfl, rfl, hComputed⟩
  rw [hPass] at hIdle ⊢
  refine ⟨rfl, ?_, ?_, ?_, ?_, ?_, ?_, ?_⟩
  · obtain ⟨values, hValues⟩ := Machine.askAll_yields sheet
      (requests.flatMap (Request.queries sheet)) .empty
    obtain ⟨calls, hRun, _⟩ := hValues []
    exact ⟨values, calls ++ [], hRun⟩
  · intro cell hCell
    rw [Memo.contains_eq_isSome] at hCell
    obtain ⟨outcome, hOutcome⟩ := Option.isSome_iff_exists.mp hCell
    rcases Memo.after_adds _ (Memo.get?_empty cell) hOutcome with hFormula | ⟨query, hQuery, hTypes⟩
    · exact .inl (Sheet.isSome_formula?_iff.mp hFormula)
    · exact .inr (typed_of_types hQuery hTypes)
  · intro cell value hValue
    obtain ⟨outcome, hOutcome, rfl⟩ := Option.map_eq_some_iff.mp hValue
    exact hComputed cell outcome hOutcome
  · intro later cell outcome hOutcome
    rw [serve_eq]
    exact Memo.after_keeps _ hOutcome
  · intro query
    rw [run_ask]
    exact (query.answerFully_computed hComputed).1
  · exact fun cell => (hIdle.display (keeps_computed sheet) cell).2
  · exact fun row col text => hIdle.of_displayGrid (keeps_computed sheet)

end Pass
end FormulaGrid
