import FormulaGrid.Proofs.Evaluation.Growth
import FormulaGrid.Proofs.Evaluation.Rounds

/-!
# Computed values

What a formula comes to is a finite number or a failure, and no text: an operand on an open loop, whose
outcome a chain hands on, has the failure of the loop. So the memo has computed values only. A query adds
such values for formula cells and for the cell that it types a formula into, whatever text the sheet has
there, and changes no entry.
-/

set_option autoImplicit false

namespace FormulaGrid

def Value.Computed : Value → Prop
  | number x => x.toFloat.isFinite = true
  | text _ => False
  | fault _ => True

def Value.Proper (value : Value) : Prop := value.Computed ∨ ∃ s, value = .text s

theorem Value.Plain.computed {value : Value} (h : value.Plain) : value.Computed := by
  cases value with
  | number x => exact h
  | text s => exact h
  | fault f => trivial

def Outcome.Regular (outcome : Outcome) : Prop :=
  outcome.value.Computed ∨ outcome.root = none ∧ ∃ s, outcome.value = .text s

theorem Outcome.Regular.computed {outcome : Outcome} (h : outcome.Regular)
    (hRoot : outcome.root.isSome) : outcome.value.Computed := by
  refine h.resolve_right fun hText => ?_
  rw [hText.1] at hRoot
  cases hRoot

def Memo.Computed (memo : Memo) : Prop :=
  ∀ cell outcome, memo.get? cell = some outcome → outcome.value.Computed

namespace Memo.Computed

variable {memo : Memo} {trail : Trail} {cell : Address} {outcome : Outcome}

theorem empty : Memo.empty.Computed := by
  intro cell outcome h
  rw [Memo.get?_empty] at h
  cases h

theorem insert (h : memo.Computed) (hOutcome : outcome.value.Computed) :
    (memo.insert cell outcome).Computed := by
  intro other stored hStored
  rw [Memo.get?_insert] at hStored
  split at hStored
  · cases hStored
    exact hOutcome
  · exact h other stored hStored

theorem known? (h : memo.Computed) (hKnown : memo.known? trail cell = some outcome) :
    outcome.value.Computed := by
  rw [Memo.known?] at hKnown
  split at hKnown
  · cases hKnown
    trivial
  · obtain ⟨stored, hStored, rfl⟩ := Option.map_eq_some_iff.mp hKnown
    exact h cell stored hStored

end Memo.Computed

namespace Sheet

variable {sheet : Sheet} {trail : Trail} {cell : Address} {memo : Memo}

theorem follow_computed (sheet : Sheet) {reach : Address → StateM Memo Outcome} (formula : Formula)
    (hReach : ∀ other later, later.Computed →
      ((reach other).run later).1.Regular ∧ ((reach other).run later).2.Computed)
    (hMemo : memo.Computed) :
    (((formula.itinerary sheet).follow reach).run memo).1.value.Computed ∧
      (((formula.itinerary sheet).follow reach).run memo).2.Computed := by
  obtain ⟨hEnd, hAfter⟩ := (formula.itinerary_ends sheet fun _ => Outcome.Regular).follow
    (I := Memo.Computed) (fun other _ later hLater => hReach other later hLater) memo hMemo
  refine ⟨?_, hAfter⟩
  rcases hEnd with ⟨value, hPlain, hValue⟩ | ⟨_, _, _, _, hRegular, hRoot⟩
  · rw [hValue]
    exact hPlain.computed
  · exact hRegular.computed hRoot

theorem computeFully_computed (sheet : Sheet) (cell : Address)
    {reach : Address → StateM Memo Outcome} (formula : Formula)
    (hReach : ∀ other later, later.Computed →
      ((reach other).run later).1.Regular ∧ ((reach other).run later).2.Computed)
    (hMemo : memo.Computed) :
    ((sheet.computeFully cell formula reach).run memo).1.value.Computed ∧
      ((sheet.computeFully cell formula reach).run memo).2.Computed := by
  obtain ⟨hValue, hAfter⟩ := sheet.follow_computed formula hReach hMemo
  rw [← Outcome.value_closeLoop _ cell] at hValue
  rw [run_computeFully]
  exact ⟨hValue, hAfter.insert hValue⟩

theorem resolveFully_computed (sheet : Sheet) (trail : Trail) : ∀ cell memo, memo.Computed →
    ((sheet.resolveFully trail cell).run memo).1.Regular ∧
      ((sheet.resolveFully trail cell).run memo).2.Computed := by
  induction trail using trail_induction sheet with
  | step trail ih =>
    intro cell memo hMemo
    cases hKnown : memo.known? trail cell with
    | some outcome =>
      rw [resolveFully_known hKnown]
      exact ⟨.inl (hMemo.known? hKnown), hMemo⟩
    | none =>
      cases hFormula : sheet.formula? cell with
      | none =>
        rw [resolveFully_text hKnown hFormula]
        exact ⟨.inr ⟨rfl, _, rfl⟩, hMemo⟩
      | some formula =>
        have hCell := Memo.not_mem_of_known?_eq_none hKnown
        rw [resolveFully_formula hKnown hFormula]
        obtain ⟨hValue, hAfter⟩ := sheet.computeFully_computed cell formula
          (ih cell hCell (Option.isSome_of_eq_some hFormula)) hMemo
        exact ⟨.inl hValue, hAfter⟩

end Sheet

namespace Query

def Types : Query → Address → Prop
  | typed text cell, other => other = cell ∧ (Formula.ofText? text).isSome
  | _, _ => False

variable {sheet : Sheet} {memo : Memo}

theorem answerFully_computed (query : Query) (hMemo : memo.Computed) :
    ((query.answerFully sheet ∅).run memo).1.value.Proper ∧
      ((query.answerFully sheet ∅).run memo).2.Computed := by
  cases query with
  | stored cell =>
    obtain ⟨hRegular, hAfter⟩ := sheet.resolveFully_computed ∅ cell memo hMemo
    exact ⟨hRegular.imp_right And.right, hAfter⟩
  | typed text cell =>
    cases hText : Formula.ofText? text with
    | none =>
      simp only [answerFully, hText]
      exact ⟨.inr ⟨text, rfl⟩, hMemo⟩
    | some formula =>
      rw [run_answerFully_typed hText]
      cases hKnown : memo.known? ∅ cell with
      | some outcome => exact ⟨.inl (hMemo.known? hKnown), hMemo⟩
      | none =>
        obtain ⟨hValue, hAfter⟩ := sheet.computeFully_computed cell
          formula (sheet.resolveFully_computed ((∅ : Trail).insert cell)) hMemo
        exact ⟨.inl hValue, hAfter⟩
  | loose text =>
    cases hText : Formula.ofText? text with
    | none =>
      simp only [answerFully, hText]
      exact ⟨.inr ⟨text, rfl⟩, hMemo⟩
    | some formula =>
      simp only [answerFully, hText, Formula.outcome_eq_follow]
      obtain ⟨hValue, hAfter⟩ := sheet.follow_computed formula
        (sheet.resolveFully_computed ∅) hMemo
      exact ⟨.inl hValue, hAfter⟩

end Query

/-- What a query does to a memo: nothing is lost, and new are formula cells and the cell that it types a
formula into. -/
structure Query.Extends (sheet : Sheet) (query : Query) (memo later : Memo) : Prop where
  keeps : ∀ cell outcome, memo.get? cell = some outcome → later.get? cell = some outcome
  adds : ∀ cell outcome, memo.get? cell = none → later.get? cell = some outcome →
    (sheet.formula? cell).isSome ∨ query.Types cell

namespace Query

variable {sheet : Sheet} {memo later : Memo}

theorem extends_of_growsTo (query : Query) (h : memo.GrowsTo sheet later) :
    query.Extends sheet memo later where
  keeps := h.keeps
  adds cell outcome hNone hSome := .inl (h.adds cell outcome hNone hSome)

theorem extends_insert {query : Query} {cell : Address} (h : memo.GrowsTo sheet later)
    (hMemo : memo.get? cell = none) (hTypes : query.Types cell) (outcome : Outcome) :
    query.Extends sheet memo (later.insert cell outcome) where
  keeps other kept hOther := by
    rw [Memo.get?_insert, if_neg]
    · exact h.keeps other kept hOther
    · rintro rfl
      rw [hMemo] at hOther
      cases hOther
  adds other new hNone hSome := by
    rw [Memo.get?_insert] at hSome
    split at hSome
    · rename_i hSame
      exact .inr (hSame ▸ hTypes)
    · exact .inl (h.adds other new hNone hSome)

theorem answerFully_extends (sheet : Sheet) (query : Query) (memo : Memo) :
    query.Extends sheet memo ((query.answerFully sheet ∅).run memo).2 := by
  cases query with
  | stored cell => exact extends_of_growsTo _ (sheet.resolveFully_steady ∅ cell memo).grows
  | typed text cell =>
    cases hText : Formula.ofText? text with
    | none =>
      simp only [answerFully, hText]
      exact extends_of_growsTo _ (.refl memo)
    | some formula =>
      rw [run_answerFully_typed hText]
      cases hKnown : memo.known? ∅ cell with
      | some outcome => exact extends_of_growsTo _ (.refl memo)
      | none =>
        have hBody := Itinerary.follow_steady
          (sheet.resolveFully_steady ((∅ : Trail).insert cell)) (formula.itinerary sheet) memo
        simp only [Sheet.run_computeFully]
        have hTypes : (typed text cell).Types cell := ⟨rfl, Option.isSome_of_eq_some hText⟩
        exact extends_insert hBody.grows (Memo.get?_of_known?_eq_none hKnown) hTypes _
  | loose text =>
    cases hText : Formula.ofText? text with
    | none =>
      simp only [answerFully, hText]
      exact extends_of_growsTo _ (.refl memo)
    | some formula =>
      simp only [answerFully, hText, Formula.outcome_eq_follow]
      exact extends_of_growsTo _ (Itinerary.follow_steady (sheet.resolveFully_steady ∅)
        (formula.itinerary sheet) memo).grows

end Query

end FormulaGrid
