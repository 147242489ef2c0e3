import FormulaGrid.Proofs.Evaluation.Loose
import FormulaGrid.Proofs.Formula.Operands

/-!
# Formulas of one operand

The formula of a literal visits no cell, and the formula of a label visits one and reads the number of
its value. A literal is read whole where it is the text of a cell. In a formula the text is cut at signs
first, so a literal with a sign in its exponent is no operand there.
-/

set_option autoImplicit false

namespace FormulaGrid

theorem Itinerary.value_follow_cell {reach : Address → StateM Memo Outcome} {cell : Address}
    {memo : Memo} (hRoot : ((reach cell).run memo).1.root = none) :
    (((chain ⟨.cell cell, []⟩).follow reach).run memo).1.value =
      .ofResult (((reach cell).run memo).1.value.toNumber.map Number.Datum.toFloat) := by
  rw [chain, operand, run_visit]
  cases hNumber : ((reach cell).run memo).1.value.toNumber with
  | ok x =>
    rw [Outcome.toOperand_of_number hRoot hNumber]
    rfl
  | error f =>
    rw [Outcome.toOperand_of_fault hRoot hNumber]
    rfl

namespace Query

variable {sheet : Sheet} {memo : Memo} {text : String} {formula : Formula} {outcome : Outcome}
  {cell : Address}

theorem value_loose_of_arrive (hText : Formula.ofText? text = some formula)
    (hArrive : formula.itinerary sheet = .arrive outcome) :
    (((loose text).answerFully sheet ∅).run memo).1.value = outcome.value := by
  rw [run_answerFully_loose hText, hArrive]
  rfl

theorem value_typed_of_arrive (hText : Formula.ofText? text = some formula)
    (hArrive : formula.itinerary sheet = .arrive outcome) (hCell : memo.get? cell = none) :
    (((typed text cell).answerFully sheet ∅).run memo).1.value = outcome.value := by
  have hKnown : memo.known? ∅ cell = none :=
    Memo.known?_eq_none Std.ExtTreeSet.not_mem_empty hCell
  rw [run_answerFully_typed hText, hKnown]
  simp only [Sheet.run_computeFully, hArrive]
  exact Outcome.value_closeLoop outcome cell

theorem value_stored_of_arrive (hText : Formula.ofText? (sheet.text cell) = some formula)
    (hArrive : formula.itinerary sheet = .arrive outcome) (hCell : memo.get? cell = none) :
    (((stored cell).answerFully sheet ∅).run memo).1.value = outcome.value := by
  rw [← value_typed_of_arrive hText hArrive hCell,
    run_answerFully_typed_text sheet ∅ cell memo (Option.isSome_of_eq_some hText)]
  rfl

/-- Nothing is in progress above a text that stands nowhere, so a cell that it reads is on no open
loop. -/
theorem value_loose_cell (hText : Formula.ofText? text = some (.chain ⟨.cell cell, []⟩)) :
    (((loose text).answerFully sheet ∅).run memo).1.value =
      .ofResult ((((stored cell).answerFully sheet ∅).run memo).1.value.toNumber.map
        Number.Datum.toFloat) := by
  rw [run_answerFully_loose hText]
  apply Itinerary.value_follow_cell
  exact Outcome.root_eq_none (Sheet.root_mem_trail sheet ∅ cell memo)

end Query

theorem Formula.arrives_of_literal {text : String} {x : Float} (sheet : Sheet)
    (hRead : Number.ofText? text.toList = some x)
    (hHead : ∀ c ∈ text.toList.head?, c ≠ '+' ∧ c ≠ '-') :
    ∃ formula outcome, ofText? ("=" ++ text) = some formula ∧
      formula.itinerary sheet = .arrive outcome ∧
      outcome.value =
        if '+' ∈ text.toList ∨ '-' ∈ text.toList then .fault .reference else .number (.float x) := by
  have hText : ofText? ("=" ++ text) = some (ofBody text.toList) :=
    ofText?_sigil (String.toList_append ..)
  have hBody := ofBody_literal hRead hHead
  split at hBody
  · rename_i hSigns
    obtain ⟨op, y, hBody⟩ := hBody
    refine ⟨_, .fault .reference, hText, ?_, (if_pos hSigns).symm⟩
    rw [hBody]
    rfl
  · rename_i hSigns
    have hValue : Value.ofFloat x = .number (.float x) := if_pos (Number.isFinite_of_ofText? hRead)
    refine ⟨_, .settled (.ofFloat x), hText, ?_, hValue.trans (if_neg hSigns).symm⟩
    rw [hBody]
    rfl

theorem Formula.ofText?_label {cell : Address} (hRow : cell.row < Address.maxIndex)
    (hCol : cell.col < Address.maxIndex) :
    ofText? ("=" ++ cell.label) = some (.chain ⟨.cell cell, []⟩) := by
  have hText : ofText? ("=" ++ cell.label) = some (ofBody cell.labelChars) :=
    ofText?_sigil ((String.toList_append ..).trans (congrArg (sigil :: ·) String.toList_ofList))
  obtain ⟨-, hBody⟩ := ofBody_label (Address.names_labelChars cell) hRow hCol
    (List.forall_mem_nil _) (List.forall_mem_nil _)
  rw [List.append_nil, List.nil_append] at hBody
  rw [hText, hBody]

namespace Pass

/-- A literal without a sign means the same number as a formula and as the text of a cell that a formula
reads, whatever the sheet and the requests before. If its exponent has a sign, the formula fails and the
cell is still read. -/
theorem literal_as_formula_and_in_cell (sheet : Sheet) (requests : List Request) (text : String)
    (x : Float) (hRead : Number.ofText? text.toList = some x)
    (hHead : ∀ c ∈ text.toList.head?, c ≠ '+' ∧ c ≠ '-') :
    let pass := (Pass.start sheet).serve requests
    let value : Value :=
      if '+' ∈ text.toList ∨ '-' ∈ text.toList then .fault .reference else .number (.float x)
    ((ask (.loose ("=" ++ text))).run pass).1 = value ∧
      (∀ cell, pass.memo.contains cell = false →
        ((ask (.typed ("=" ++ text) cell)).run pass).1 = value ∧
          (sheet.text cell = "=" ++ text → ((ask (.stored cell)).run pass).1 = value)) ∧
      ∀ cell, sheet.text cell = text → pass.memo.contains cell = false →
        cell.row < Address.maxIndex → cell.col < Address.maxIndex →
          ((ask (.stored cell)).run pass).1.toNumber = .ok (.float x) ∧
            ((ask (.loose ("=" ++ cell.label))).run pass).1 = .number (.float x) := by
  intro pass value
  obtain ⟨memo, hPass⟩ : ∃ memo, pass = ⟨sheet, memo, ∅⟩ := ⟨_, serve_eq requests sheet .empty⟩
  obtain ⟨formula, outcome, hFormula, hArrive, hValue⟩ :=
    Formula.arrives_of_literal sheet hRead hHead
  have hNone : ∀ cell, memo.contains cell = false → memo.get? cell = none :=
    fun _ => Memo.contains_eq_false_iff.mp
  simp only [hPass, run_ask]
  refine ⟨?_, ?_, ?_⟩
  · exact (Query.value_loose_of_arrive hFormula hArrive).trans hValue
  · intro cell hCell
    constructor
    · exact (Query.value_typed_of_arrive hFormula hArrive (hNone cell hCell)).trans hValue
    · intro hText
      rw [← hText] at hFormula
      exact (Query.value_stored_of_arrive hFormula hArrive (hNone cell hCell)).trans hValue
  · intro cell hText hCell hRow hCol
    have hStored : ((Query.stored cell).answerFully sheet ∅).run memo =
        (.settled (.text text), memo) := by
      have hKnown := Memo.known?_eq_none Std.ExtTreeSet.not_mem_empty (hNone cell hCell)
      rw [← hText] at hRead hHead ⊢
      exact Sheet.resolveFully_text hKnown (Formula.ofText?_literal hRead hHead)
    have hNumber : (Value.text text).toNumber = .ok (.float x) := Value.toNumber_literal hRead hHead
    rw [Query.value_loose_cell (Formula.ofText?_label hRow hCol), hStored]
    refine ⟨hNumber, ?_⟩
    simp only [Outcome.settled, hNumber]
    exact if_pos (Number.isFinite_of_ofText? hRead)

theorem literal_as_formula_and_in_cell_1500 :
    let sheet : Sheet := ⟨[["1.5e3", "=1.5e3"]]⟩
    let pass := (Pass.start sheet).serve [.display ⟨0, 0⟩]
    Number.ofText? "1.5e3".toList = some 1500.0 ∧ (∀ c ∈ "1.5e3".toList.head?, c ≠ '+' ∧ c ≠ '-') ∧
      ((ask (.loose "=1.5e3")).run pass).1 = .number (.float 1500.0) ∧
      ((ask (.stored ⟨0, 1⟩)).run pass).1 = .number (.float 1500.0) ∧
      ((ask (.stored ⟨0, 0⟩)).run pass).1.toNumber = .ok (.float 1500.0) ∧
      ((ask (.loose ("=" ++ Address.label ⟨0, 0⟩))).run pass).1 = .number (.float 1500.0) := by
  intro sheet pass
  have hRead : Number.ofText? "1.5e3".toList = some 1500.0 := by decide +kernel
  have hHead : ∀ c ∈ "1.5e3".toList.head?, c ≠ '+' ∧ c ≠ '-' := by simp
  have hCells : pass.memo.contains ⟨0, 0⟩ = false ∧ pass.memo.contains ⟨0, 1⟩ = false := by
    decide +kernel
  obtain ⟨hLoose, hAt, hIn⟩ :=
    literal_as_formula_and_in_cell sheet [.display ⟨0, 0⟩] "1.5e3" 1500.0 hRead hHead
  exact ⟨hRead, hHead, hLoose, (hAt ⟨0, 1⟩ hCells.2).2 rfl,
    hIn ⟨0, 0⟩ rfl hCells.1 (by decide) (by decide)⟩

theorem literal_with_signed_exponent :
    Number.ofText? "1e-5".toList = some 1e-5 ∧
      ((ask (.loose "=1e-5")).run (.start ⟨[]⟩)).1 = .fault .reference ∧
      ¬ ∀ (sheet : Sheet) (text : String) (x : Float), Number.ofText? text.toList = some x →
        (∀ c ∈ text.toList.head?, c ≠ '+' ∧ c ≠ '-') →
          ((ask (.loose ("=" ++ text))).run (.start sheet)).1 = .number (.float x) := by
  have hRead : Number.ofText? "1e-5".toList = some 1e-5 := by decide +kernel
  have hFault : ((ask (.loose "=1e-5")).run (.start ⟨[]⟩)).1 = .fault .reference := by
    decide +kernel
  refine ⟨hRead, hFault, fun h => ?_⟩
  have hNumber := h ⟨[]⟩ "1e-5" 1e-5 hRead (by simp)
  cases hFault.symm.trans hNumber

end Pass

end FormulaGrid
