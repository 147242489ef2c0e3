import FormulaGrid.Proofs.Evaluation.Locality
import FormulaGrid.Proofs.Evaluation.Roots

/-!
# Texts that stand nowhere

A text as if it stood at a cell against the same text without a cell. The one has its cell in progress
where the other has nothing. If the text does not lead to the cell nobody visits it, and no root in the
memo is that cell; then the walk below is the same, and all that is left of the cell is its own outcome.
-/

set_option autoImplicit false

namespace FormulaGrid

open Relation

theorem Trail.insert_comm (trail : Trail) (a b : Address) :
    (trail.insert a).insert b = (trail.insert b).insert a := by
  apply Std.ExtTreeSet.ext_mem
  intro cell
  simp only [Sheet.mem_insert_iff]
  tauto

namespace Sheet

variable {sheet : Sheet} {trail : Trail} {cell away : Address} {memo : Memo}

theorem not_reflTransGen_of_closed {cells : List Address}
    (hClosed : ∀ cell ∈ cells, ∀ next ∈ sheet.references cell, next ∈ cells)
    (hCell : cell ∈ cells) (hAway : away ∉ cells) : ¬ ReflTransGen sheet.Refers cell away := by
  intro hPath
  have hMem : away ∈ cells := by
    clear hAway
    induction hPath with
    | refl => exact hCell
    | tail _ hNext ih => exact hClosed _ ih _ hNext
  exact hAway hMem

theorem known?_insert_of_unrooted (hCell : cell ≠ away)
    (hRoots : ∀ outcome, memo.get? cell = some outcome → outcome.root ≠ some away) :
    memo.known? (trail.insert away) cell = memo.known? trail cell := by
  rw [Memo.known?, Memo.known?]
  simp only [mem_insert_iff, hCell, false_or]
  split
  · rfl
  · cases hStored : memo.get? cell with
    | none => rfl
    | some outcome =>
      have hRoot : outcome.root.filter (· ∈ trail.insert away) = outcome.root.filter (· ∈ trail) := by
        cases hRoot : outcome.root with
        | none => rfl
        | some root =>
          have hOther : root ≠ away := fun h => hRoots outcome hStored (h ▸ hRoot)
          simp only [Option.filter, mem_insert_iff, hOther, false_or]
      rw [Option.map_some, Option.map_some, Outcome.onTrail, hRoot]
      rfl

theorem follow_insert_of_unreached
    (hReach : ∀ cell, ¬ ReflTransGen sheet.Refers cell away → ∀ memo, memo.Rooted trail →
      memo.get? away = none → (sheet.resolveFully (trail.insert away) cell).run memo =
        (sheet.resolveFully trail cell).run memo)
    {formula : Formula}
    (hUnreached : ∀ cell ∈ formula.references sheet, ¬ ReflTransGen sheet.Refers cell away)
    (hMemo : memo.Rooted trail) (hAway : memo.get? away = none) :
    ((formula.itinerary sheet).follow (sheet.resolveFully (trail.insert away))).run memo =
      ((formula.itinerary sheet).follow (sheet.resolveFully trail)).run memo := by
  apply (formula.itinerary_ends sheet fun _ _ => True).follow_congr
    (I := fun memo => memo.Rooted trail ∧ memo.get? away = none) _ ⟨hMemo, hAway⟩
  rintro cell hCell later ⟨hLater, hNone⟩
  have hSame := hReach cell (hUnreached cell hCell) later hLater hNone
  refine ⟨hSame, sheet.resolveFully_rooted trail cell later hLater, ?_⟩
  -- with the cell on its trail the walk leaves its place in the memo alone
  have hFrame := (sheet.resolveFully_steady (trail.insert away) cell later).frame away
    (mem_insert_self trail away)
  rw [← hSame, hFrame, hNone]

theorem resolveFully_insert_of_unreached (trail : Trail) : away ∉ trail →
    ∀ cell, ¬ ReflTransGen sheet.Refers cell away → ∀ memo, memo.Rooted trail →
      memo.get? away = none →
        (sheet.resolveFully (trail.insert away) cell).run memo =
          (sheet.resolveFully trail cell).run memo := by
  induction trail using trail_induction sheet with
  | step trail ih =>
    intro hTrail cell hUnreached memo hMemo hAway
    have hCell : cell ≠ away := by
      rintro rfl
      exact hUnreached .refl
    have hKnowns : memo.known? (trail.insert away) cell = memo.known? trail cell :=
      known?_insert_of_unrooted hCell fun _ hStored => hMemo.root_ne hTrail hAway hStored
    cases hKnown : memo.known? trail cell with
    | some outcome => rw [resolveFully_known hKnown, resolveFully_known (hKnowns.trans hKnown)]
    | none =>
      have hKnown' := hKnowns.trans hKnown
      cases hFormula : sheet.formula? cell with
      | none => rw [resolveFully_text hKnown hFormula, resolveFully_text hKnown' hFormula]
      | some formula =>
        have hDeeper : away ∉ trail.insert cell := fun hMem =>
          (mem_insert_iff.mp hMem).elim (Ne.symm hCell) hTrail
        have hReferences : ∀ next ∈ formula.references sheet,
            ¬ ReflTransGen sheet.Refers next away := by
          intro next hNext hPath
          refine hUnreached (.head ?_ hPath)
          rw [Refers, references, hFormula]
          exact hNext
        have hBody := follow_insert_of_unreached
          (ih cell (Memo.not_mem_of_known?_eq_none hKnown) (Option.isSome_of_eq_some hFormula) hDeeper)
          hReferences (hMemo.enter cell) hAway
        rw [resolveFully_formula hKnown hFormula, resolveFully_formula hKnown' hFormula,
          run_computeFully, run_computeFully, Trail.insert_comm, hBody]

end Sheet

namespace Query

variable {sheet : Sheet} {text : String} {cell : Address} {memo : Memo}

theorem run_answerFully_of_plain (hText : Formula.ofText? text = none) (sheet : Sheet)
    (cell : Address) (memo : Memo) :
    ((typed text cell).answerFully sheet ∅).run memo = (.settled (.text text), memo) ∧
      ((loose text).answerFully sheet ∅).run memo = (.settled (.text text), memo) := by
  simp only [answerFully, hText]
  exact ⟨rfl, rfl⟩

theorem run_answerFully_loose {formula : Formula} (hFormula : Formula.ofText? text = some formula)
    (trail : Trail) : ((loose text).answerFully sheet trail).run memo =
      ((formula.itinerary sheet).follow (sheet.resolveFully trail)).run memo := by
  simp only [answerFully, hFormula, Formula.outcome_eq_follow]

/-- A formula at a cell that it does not lead to comes to what it comes to without the cell, and leaves
the outcome of the cell behind besides. -/
theorem run_answerFully_typed_of_unreached {formula : Formula}
    (hFormula : Formula.ofText? text = some formula)
    (hUnreached : ∀ first ∈ formula.references sheet, ¬ ReflTransGen sheet.Refers first cell)
    (hMemo : memo.Rooted ∅) (hCell : memo.get? cell = none) :
    let loose := ((loose text).answerFully sheet ∅).run memo
    ((typed text cell).answerFully sheet ∅).run memo =
        (.settled loose.1.value, loose.2.insert cell (.settled loose.1.value)) ∧
      loose.2.get? cell = none := by
  intro loose
  have hTrail : cell ∉ (∅ : Trail) := Std.ExtTreeSet.not_mem_empty
  have hBody := Sheet.follow_insert_of_unreached
    (Sheet.resolveFully_insert_of_unreached ∅ hTrail) hUnreached hMemo hCell
  have hLoose : loose = _ := run_answerFully_loose hFormula ∅
  -- nothing is in progress above the formula, so it is on no open loop
  have hRoot : loose.1.root = none := by
    rw [hLoose]
    exact Outcome.root_eq_none fun root => Sheet.root_mem_of_follow formula
  have hClosed : loose.1.closeLoop cell = .settled loose.1.value := by
    rw [Outcome.closeLoop, hRoot, if_neg (by simp)]
    rw [Outcome.settled, ← hRoot]
  constructor
  · rw [run_answerFully_typed hFormula, Memo.known?_eq_none hTrail hCell]
    simp only [Sheet.run_computeFully, hBody, ← hLoose, hClosed]
  · have hSteady := Itinerary.follow_steady
      (sheet.resolveFully_steady ((∅ : Trail).insert cell)) (formula.itinerary sheet) memo
    have hFrame := hSteady.frame cell (Sheet.mem_insert_self ∅ cell)
    rw [hLoose, ← hBody, hFrame, hCell]

end Query

namespace Pass

/-- After any requests, a text at a cell that is not stored and that the text does not lead to has the
value of the text alone. The memos after both are the same but for the outcome of that cell, which is
the value of a formula. -/
theorem typed_as_loose (sheet : Sheet) (requests : List Request) (text : String) (cell : Address)
    (hCell : ((Pass.start sheet).serve requests).memo.contains cell = false)
    (hUnreached : ∀ formula, Formula.ofText? text = some formula →
      ∀ first ∈ formula.references sheet, ¬ ReflTransGen sheet.Refers first cell) :
    let pass := (Pass.start sheet).serve requests
    let typed := (ask (.typed text cell)).run pass
    let loose := (ask (.loose text)).run pass
    typed.1 = loose.1 ∧
      (∀ other, other ≠ cell → typed.2.memo.get? other = loose.2.memo.get? other) ∧
      loose.2.memo.get? cell = none ∧
      typed.2.memo.get? cell =
        if text.toList.head? = some Formula.sigil then some (.settled typed.1) else none := by
  intro pass typed loose
  obtain ⟨memo, hPass, hRooted⟩ : ∃ memo, pass = ⟨sheet, memo, ∅⟩ ∧ memo.Rooted ∅ :=
    ⟨_, serve_eq requests sheet .empty, (Memo.Rooted.empty ∅).after sheet _⟩
  have hTyped : typed = _ := run_ask (.typed text cell) pass
  have hLoose : loose = _ := run_ask (.loose text) pass
  have hNone : pass.memo.get? cell = none := Memo.contains_eq_false_iff.mp hCell
  rw [hPass] at hTyped hLoose hNone
  rw [hTyped, hLoose]
  simp only [← Formula.isSome_ofText?_iff]
  cases hText : Formula.ofText? text with
  | none =>
    obtain ⟨hRun, hRun'⟩ := Query.run_answerFully_of_plain hText sheet cell memo
    rw [hRun, hRun']
    exact ⟨rfl, fun _ _ => rfl, hNone, hNone⟩
  | some formula =>
    obtain ⟨hRun, hAway⟩ := Query.run_answerFully_typed_of_unreached hText
      (hUnreached formula hText) hRooted hNone
    rw [hRun]
    refine ⟨rfl, fun other hOther => ?_, hAway, ?_⟩
    · exact (Memo.get?_insert ..).trans (if_neg (Ne.symm hOther))
    · exact (Memo.get?_insert ..).trans (if_pos rfl)

theorem typed_as_loose_above_loop :
    let sheet : Sheet := ⟨[["=B1+1", "=A1", "=SUM(A1:B1)", "7"], ["=D1"]]⟩
    let pass := (Pass.start sheet).serve [.display ⟨0, 0⟩, .ask (.typed "=D1*2" ⟨0, 2⟩)]
    let typed := (ask (.typed "=C1-D1" ⟨1, 0⟩)).run pass
    pass.memo.contains ⟨1, 0⟩ = false ∧
      (∀ formula, Formula.ofText? "=C1-D1" = some formula →
        ∀ first ∈ formula.references sheet, ¬ ReflTransGen sheet.Refers first ⟨1, 0⟩) ∧
      typed.1 = .number (.float 7.0) ∧ ((ask (.loose "=C1-D1")).run pass).1 = .number (.float 7.0) ∧
      typed.2.memo.get? ⟨1, 0⟩ = some (.settled (.number (.float 7.0))) := by
  intro sheet pass typed
  have hCell : pass.memo.contains ⟨1, 0⟩ = false := by decide +kernel
  have hUnreached : ∀ formula, Formula.ofText? "=C1-D1" = some formula →
      ∀ first ∈ formula.references sheet, ¬ ReflTransGen sheet.Refers first ⟨1, 0⟩ := by
    intro formula hFormula first hFirst
    -- the cells of the first row refer to each other only
    let row : List Address := [⟨0, 0⟩, ⟨0, 1⟩, ⟨0, 2⟩, ⟨0, 3⟩]
    have hClosed : ∀ cell ∈ row, ∀ next ∈ sheet.references cell, next ∈ row := by decide +kernel
    have hAll : ∀ first ∈ ((Formula.ofText? "=C1-D1").elim [] (Formula.references sheet)),
        first ∈ row := by decide +kernel
    rw [hFormula] at hAll
    exact Sheet.not_reflTransGen_of_closed hClosed (hAll first hFirst) (by decide)
  obtain ⟨hValue, -, -, hStored⟩ := typed_as_loose sheet
    [.display ⟨0, 0⟩, .ask (.typed "=D1*2" ⟨0, 2⟩)] "=C1-D1" ⟨1, 0⟩ hCell hUnreached
  have hTyped : typed.1 = .number (.float 7.0) := by decide +kernel
  refine ⟨hCell, hUnreached, hTyped, hValue.symm.trans hTyped, ?_⟩
  rw [← hTyped]
  exact hStored

end Pass
end FormulaGrid
