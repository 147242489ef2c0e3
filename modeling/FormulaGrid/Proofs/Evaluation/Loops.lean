import FormulaGrid.Proofs.Evaluation.Requests
import FormulaGrid.Proofs.Number.Text

/-!
# Circular cells lie on loops

Every cell in progress leads to the cell that is visited. When a chain ends with an outcome whose loop
is still open, the operand leads to the root of that loop, the root is in progress and leads back to
the chain: the chain is on a loop. So it is for an outcome from the memo, whose root may be in
progress again for another reason. This needs no condition on the sums of the sheet.
-/

set_option autoImplicit false

namespace FormulaGrid

open Relation

namespace Sheet

def ChainOnLoop (sheet : Sheet) (cell : Address) : Prop :=
  (∃ operands, sheet.formula? cell = some (.chain operands)) ∧ TransGen sheet.Refers cell cell

structure Founded (sheet : Sheet) (cell : Address) (outcome : Outcome) : Prop where
  not_text : ∀ s, outcome.value ≠ .text s
  onLoop : outcome.value = .fault .circular → sheet.ChainOnLoop cell
  leads : ∀ root, outcome.root = some root → outcome.value = .fault .circular ∧
    ReflTransGen sheet.Refers cell root

def FoundedMemo (sheet : Sheet) (memo : Memo) : Prop :=
  ∀ cell outcome, memo.get? cell = some outcome → sheet.Founded cell outcome

structure Returns (sheet : Sheet) (trail : Trail) (cell : Address) (outcome : Outcome) : Prop where
  text : ∀ s, outcome.value = .text s → sheet.text cell = s
  closed : outcome.root = none → outcome.value = .fault .circular → sheet.ChainOnLoop cell
  opened : ∀ root, outcome.root = some root → outcome.value = .fault .circular ∧ root ∈ trail ∧
    ReflTransGen sheet.Refers cell root

variable {sheet : Sheet} {trail : Trail} {cell : Address} {memo : Memo} {outcome : Outcome}

theorem FoundedMemo.empty : sheet.FoundedMemo .empty := by
  intro cell outcome h
  rw [Memo.get?_empty] at h
  cases h

theorem FoundedMemo.insert (h : sheet.FoundedMemo memo) (hCell : sheet.Founded cell outcome) :
    sheet.FoundedMemo (memo.insert cell outcome) := by
  intro other stored hStored
  rw [Memo.get?_insert] at hStored
  split at hStored
  · rename_i hSame
    cases hStored
    exact hSame ▸ hCell
  · exact h other stored hStored

theorem FoundedMemo.returns (h : sheet.FoundedMemo memo)
    (hKnown : memo.known? trail cell = some outcome) : sheet.Returns trail cell outcome := by
  rw [Memo.known?] at hKnown
  split at hKnown
  · rename_i hCell
    cases hKnown
    refine ⟨?_, ?_, ?_⟩
    · rintro s ⟨⟩
    · rintro ⟨⟩
    · rintro root ⟨⟩
      exact ⟨rfl, hCell, .refl⟩
  · obtain ⟨stored, hStored, rfl⟩ := Option.map_eq_some_iff.mp hKnown
    have hFounded := h cell stored hStored
    refine ⟨?_, ?_, ?_⟩
    · exact fun s hText => absurd hText (hFounded.not_text s)
    · exact fun _ hCircular => hFounded.onLoop hCircular
    · intro root hRoot
      obtain ⟨hRoot, hMem⟩ := Outcome.root_onTrail.mp hRoot
      exact ⟨(hFounded.leads root hRoot).1, hMem, (hFounded.leads root hRoot).2⟩

theorem Founded.returns (h : sheet.Founded cell outcome)
    (hRoot : ∀ root, outcome.root = some root → root ∈ trail) :
    sheet.Returns trail cell outcome where
  text s hText := absurd hText (h.not_text s)
  closed _ hCircular := h.onLoop hCircular
  opened root hOpen := ⟨(h.leads root hOpen).1, hRoot root hOpen, (h.leads root hOpen).2⟩

theorem founded_of_plain {value : Value} (h : value.Plain) :
    sheet.Founded cell (.settled value) where
  not_text s := h.ne_text s
  onLoop hCircular := absurd hCircular h.ne_circular
  leads root hRoot := by cases hRoot

theorem founded_of_open {other root : Address} {operands : Chain Operand}
    (hFormula : sheet.formula? cell = some (.chain operands)) (hRefers : sheet.Refers cell other)
    (hAbove : ∀ above ∈ trail.insert cell, ReflTransGen sheet.Refers above cell)
    (hOther : sheet.Returns (trail.insert cell) other outcome) (hRoot : outcome.root = some root) :
    sheet.Founded cell (outcome.closeLoop cell) := by
  obtain ⟨hValue, hMem, hForth⟩ := hOther.opened root hRoot
  -- from the chain to the operand, on to the root, and from the root in progress back to the chain
  have hLoop : TransGen sheet.Refers cell cell :=
    .head' hRefers (hForth.trans (hAbove root hMem))
  refine ⟨?_, ?_, ?_⟩
  · rw [Outcome.value_closeLoop, hValue]
    rintro s ⟨⟩
  · exact fun _ => ⟨⟨operands, hFormula⟩, hLoop⟩
  · intro root' hRoot'
    obtain ⟨hRoot', _⟩ := Outcome.root_closeLoop.mp hRoot'
    rw [Outcome.value_closeLoop]
    exact ⟨hValue, .head hRefers (hOther.opened root' hRoot').2.2⟩

theorem founded_of_endsWith {formula : Formula} (hFormula : sheet.formula? cell = some formula)
    (hAbove : ∀ above ∈ trail.insert cell, ReflTransGen sheet.Refers above cell)
    (hEnd : formula.EndsWith (sheet.Returns (trail.insert cell)) outcome) :
    sheet.Founded cell (outcome.closeLoop cell) := by
  rcases hEnd with ⟨value, hPlain, rfl⟩ | ⟨operands, other, rfl, hOther, hReturns, hRoot⟩
  · exact founded_of_plain hPlain
  · obtain ⟨root, hRoot⟩ := Option.isSome_iff_exists.mp hRoot
    exact founded_of_open hFormula ((refers_of_chain hFormula).mpr hOther) hAbove hReturns hRoot

/-- Plain recursion keeps the memo founded when all cells in progress lead to the cell visited. -/
theorem resolveFully_returns (sheet : Sheet) (trail : Trail) : ∀ cell memo,
    (∀ above ∈ trail, ReflTransGen sheet.Refers above cell) → sheet.FoundedMemo memo →
      sheet.Returns trail cell ((sheet.resolveFully trail cell).run memo).1 ∧
        sheet.FoundedMemo ((sheet.resolveFully trail cell).run memo).2 := by
  induction trail using trail_induction sheet with
  | step trail ih =>
    intro cell memo hAbove hMemo
    cases hKnown : memo.known? trail cell with
    | some outcome =>
      rw [resolveFully_known hKnown]
      exact ⟨hMemo.returns hKnown, hMemo⟩
    | none =>
      cases hFormula : sheet.formula? cell with
      | none =>
        rw [resolveFully_text hKnown hFormula]
        refine ⟨⟨?_, ?_, ?_⟩, hMemo⟩
        · rintro s ⟨⟩
          rfl
        · rintro _ ⟨⟩
        · rintro root ⟨⟩
      | some formula =>
        have hCell := Memo.not_mem_of_known?_eq_none hKnown
        have hBelow : ∀ above ∈ trail.insert cell, ReflTransGen sheet.Refers above cell := by
          intro above hMem
          rcases mem_insert_iff.mp hMem with rfl | hMem
          · exact .refl
          · exact hAbove above hMem
        have hRoots := root_mem_trail sheet trail cell memo
        rw [resolveFully_formula hKnown hFormula, run_computeFully] at hRoots ⊢
        have hRefers : ∀ other ∈ formula.references sheet, sheet.Refers cell other := by
          intro other hOther
          rw [Refers, references, hFormula]
          exact hOther
        obtain ⟨hEnd, hAfter⟩ := (formula.itinerary_ends sheet
          (sheet.Returns (trail.insert cell))).follow (I := sheet.FoundedMemo)
          (fun other hOther later hLater => ih cell hCell (Option.isSome_of_eq_some hFormula) other later
            (fun above hMem => (hBelow above hMem).tail (hRefers other hOther)) hLater) memo hMemo
        have hFounded := founded_of_endsWith hFormula hBelow hEnd
        exact ⟨hFounded.returns hRoots, hAfter.insert hFounded⟩

def Answers (sheet : Sheet) : Query → Value → Prop
  | .loose _, value => value ≠ .fault .circular
  | .stored cell, value | .typed _ cell, value =>
    (value = .fault .circular → sheet.ChainOnLoop cell) ∧
      ∀ s, value = .text s → sheet.text cell = s

theorem Returns.answers (h : sheet.Returns ∅ cell outcome) :
    sheet.Answers (.stored cell) outcome.value := by
  have hRoot := Outcome.root_eq_none fun root hRoot => (h.opened root hRoot).2.1
  exact ⟨h.closed hRoot, h.text⟩

theorem resolveFully_answers (hMemo : sheet.FoundedMemo memo) (cell : Address) :
    sheet.Returns ∅ cell ((sheet.resolveFully ∅ cell).run memo).1 ∧
      sheet.FoundedMemo ((sheet.resolveFully ∅ cell).run memo).2 :=
  sheet.resolveFully_returns ∅ cell memo
    (fun _ hAbove => absurd hAbove Std.ExtTreeSet.not_mem_empty) hMemo

theorem follow_answers (formula : Formula) (hMemo : sheet.FoundedMemo memo) :
    (((formula.itinerary sheet).follow (sheet.resolveFully ∅)).run memo).1.value ≠
        .fault .circular ∧
      sheet.FoundedMemo (((formula.itinerary sheet).follow (sheet.resolveFully ∅)).run memo).2 := by
  obtain ⟨hEnd, hAfter⟩ := (formula.itinerary_ends sheet (sheet.Returns ∅)).follow
    (I := sheet.FoundedMemo) (fun other _ later hLater => resolveFully_answers hLater other)
    memo hMemo
  refine ⟨?_, hAfter⟩
  rcases hEnd with ⟨value, hPlain, hValue⟩ | ⟨_, other, _, _, hReturns, hRoot⟩
  · rw [hValue]
    exact hPlain.ne_circular
  · obtain ⟨root, hRoot⟩ := Option.isSome_iff_exists.mp hRoot
    exact absurd (hReturns.opened root hRoot).2.1 Std.ExtTreeSet.not_mem_empty

end Sheet

theorem Pass.keeps_founded (sheet : Sheet) : Keeps sheet sheet.FoundedMemo sheet.Answers := by
  intro query memo hQuery hMemo
  cases query with
  | stored cell =>
    obtain ⟨hReturns, hAfter⟩ := Sheet.resolveFully_answers hMemo cell
    exact ⟨hAfter, hReturns.answers⟩
  | typed text cell =>
    cases hQuery
    cases hFormula : sheet.formula? cell with
    | none =>
      have hText : Formula.ofText? (sheet.text cell) = none := hFormula
      simp only [Query.answerFully, hText]
      refine ⟨hMemo, ?_, ?_⟩
      · rintro ⟨⟩
      · rintro s ⟨⟩
        rfl
    | some formula =>
      obtain ⟨hReturns, hAfter⟩ := Sheet.resolveFully_answers hMemo cell
      rw [Query.run_answerFully_typed_text sheet ∅ cell memo (Option.isSome_of_eq_some hFormula)]
      exact ⟨hAfter, hReturns.answers⟩
  | loose text =>
    cases hText : Formula.ofText? text with
    | none =>
      simp only [Query.answerFully, hText]
      refine ⟨hMemo, ?_⟩
      rintro ⟨⟩
    | some formula =>
      simp only [Query.answerFully, hText, Formula.outcome_eq_follow]
      obtain ⟨hValue, hAfter⟩ := Sheet.follow_answers formula hMemo
      exact ⟨hAfter, hValue⟩

theorem Value.eq_of_display_eq_circular {value : Value}
    (h : value.display = Fault.circular.token) :
    value = .fault .circular ∨ value = .text Fault.circular.token := by
  cases value with
  | text s => exact .inr (congrArg Value.text h)
  | fault f =>
    cases f with
    | circular => exact .inl rfl
    | reference => exact absurd h (by decide)
    | zeroDivisor => exact absurd h (by decide)
    | invalid => exact absurd h (by decide)
  | number x =>
    rw [display] at h
    rcases Number.text_eq_invalidText_or x.toFloat with hInvalid | hNumeral
    · rw [hInvalid] at h
      exact absurd h (by decide)
    · rw [h] at hNumeral
      exact absurd (hNumeral '#' (by decide)) (by decide)

theorem Sheet.Answers.of_display {sheet : Sheet} {cell : Address} {value : Value}
    (h : sheet.Answers (.stored cell) value) (hDisplay : value.display = Fault.circular.token) :
    sheet.text cell = Fault.circular.token ∨ sheet.ChainOnLoop cell := by
  rcases Value.eq_of_display_eq_circular hDisplay with hValue | hText
  · exact .inr (h.1 hValue)
  · exact .inl (h.2 _ hText)

namespace Pass

/-- Where a pass has the failure of a loop, in its memo or in an answer, there is a chain on a loop. A
displayed text may also be what was typed. -/
structure CircularOnLoops (sheet : Sheet) (pass : Pass) : Prop where
  memo : ∀ cell, pass.memo.value? cell = some (.fault .circular) → sheet.ChainOnLoop cell
  stored : ∀ cell, ((ask (.stored cell)).run pass).1 = .fault .circular → sheet.ChainOnLoop cell
  display : ∀ cell, ((Pass.display cell).run pass).1 = Fault.circular.token →
    sheet.text cell = Fault.circular.token ∨ sheet.ChainOnLoop cell
  displayGrid : ∀ row col,
    (Pass.displayGrid.run pass).1[row]?.bind (·[col]?) = some Fault.circular.token →
      sheet.text ⟨row, col⟩ = Fault.circular.token ∨ sheet.ChainOnLoop ⟨row, col⟩
  loose : ∀ text, ((ask (.loose text)).run pass).1 ≠ .fault .circular

/-- Whatever a pass has been asked, it reports the failure of a loop for chains on loops alone. -/
theorem circular_only_on_loops {sheet : Sheet} {pass : Pass} (h : Reachable sheet pass) :
    pass.CircularOnLoops sheet := by
  have hKeeps := keeps_founded sheet
  have hIdle := h.idle .empty hKeeps
  refine ⟨?_, ?_, ?_, ?_, ?_⟩
  · intro cell hCircular
    obtain ⟨outcome, hOutcome, hValue⟩ := Option.map_eq_some_iff.mp hCircular
    exact (hIdle.memo cell outcome hOutcome).onLoop hValue
  · exact fun cell => (hIdle.ask hKeeps (.stored cell) trivial).2.1
  · intro cell hText
    obtain ⟨_, value, hValue, hShown⟩ := hIdle.display hKeeps cell
    exact hValue.of_display (hShown.symm.trans hText)
  · intro row col hText
    obtain ⟨value, hValue, hShown⟩ := hIdle.of_displayGrid hKeeps hText
    exact hValue.of_display hShown.symm
  · exact fun text => (hIdle.ask hKeeps (.loose text) trivial).2

theorem circular_on_sum_loop :
    let sheet : Sheet := ⟨[["=SUM(B1:B1)", "=A1+1"]]⟩
    let pass := ((ask (.stored ⟨0, 0⟩)).run (.start sheet)).2
    Reachable sheet pass ∧ pass.memo.value? ⟨0, 1⟩ = some (.fault .circular) ∧
      sheet.ChainOnLoop ⟨0, 1⟩ := by
  intro sheet pass
  have hPass : Reachable sheet pass := .ask (.stored ⟨0, 0⟩) trivial .start
  have hMemo : pass.memo.value? ⟨0, 1⟩ = some (.fault .circular) := by decide +kernel
  exact ⟨hPass, hMemo, (circular_only_on_loops hPass).memo ⟨0, 1⟩ hMemo⟩

end Pass
end FormulaGrid
