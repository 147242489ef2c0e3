import FormulaGrid.Proofs.Evaluation.Rounds
import FormulaGrid.Proofs.Number.Addition
import FormulaGrid.Proofs.Sheet.Mentions

/-!
# Evaluation looks at mentioned cells only

Two sheets with the same texts on all cells that a cell leads to come to the same outcome for it, also
where one of them has cells that the other has not. Such cells have no text: a visit to one leaves the
memo alone and adds zero to a sum, which changes no total but the negative zero, and no total is.
-/

set_option autoImplicit false

namespace FormulaGrid

theorem addReading_blank {total : Float} (hTotal : total ≠ -0.0) :
    addReading total (.settled (.text "")) = total :=
  Number.add_zero_of_ne_negZero hTotal

theorem addReading_ne_negZero {total : Float} (hTotal : total ≠ -0.0) (outcome : Outcome) :
    addReading total outcome ≠ -0.0 := by
  rw [addReading]
  split
  · exact Number.add_ne_negZero hTotal _
  · exact hTotal

namespace Itinerary

variable {I : Memo → Prop} {reach reach' : Address → StateM Memo Outcome}

theorem Ends.follow_congr {S : Address → Prop} {P : Outcome → Prop}
    (hReach : ∀ cell, S cell → ∀ memo, I memo →
      (reach' cell).run memo = (reach cell).run memo ∧ I ((reach cell).run memo).2)
    {itinerary : Itinerary} (h : itinerary.Ends S (fun _ _ => True) P) {memo : Memo}
    (hMemo : I memo) : (itinerary.follow reach').run memo = (itinerary.follow reach).run memo := by
  induction itinerary generalizing memo with
  | arrive outcome => rfl
  | visit cell next ih =>
    obtain ⟨hCell, hNext⟩ := h
    obtain ⟨hSame, hAfter⟩ := hReach cell hCell memo hMemo
    rw [run_visit, run_visit, hSame]
    exact ih _ (hNext _ trivial) hAfter

theorem follow_sumFrom_filter {p : Address → Bool}
    (hKeeps : ∀ cell memo, I memo → I ((reach cell).run memo).2) {cells : List Address}
    (hBlank : ∀ cell ∈ cells, p cell = false → ∀ memo, I memo →
      (reach cell).run memo = (.settled (.text ""), memo))
    {total : Float} (hTotal : total ≠ -0.0) {memo : Memo} (hMemo : I memo) :
    ((sumFrom (cells.filter p) total).follow reach).run memo =
      ((sumFrom cells total).follow reach).run memo := by
  induction cells generalizing total memo with
  | nil => rfl
  | cons cell cells ih =>
    rw [List.forall_mem_cons] at hBlank
    obtain ⟨hCell, hCells⟩ := hBlank
    have hSum : ((sumFrom (cell :: cells) total).follow reach).run memo =
        ((sumFrom cells (addReading total ((reach cell).run memo).1)).follow reach).run
          ((reach cell).run memo).2 :=
      run_visit
    rw [hSum]
    cases hp : p cell with
    | true =>
      rw [List.filter_cons_of_pos hp, sumFrom, run_visit]
      exact ih hCells (addReading_ne_negZero hTotal _) (hKeeps cell memo hMemo)
    | false =>
      rw [List.filter_cons_of_neg (by simp [hp]), hCell hp memo hMemo, addReading_blank hTotal]
      exact ih hCells hTotal hMemo

end Itinerary

def Memo.OnlyFormulas (sheet : Sheet) (memo : Memo) : Prop :=
  ∀ cell, sheet.formula? cell = none → memo.get? cell = none

namespace Sheet

variable {sheet other : Sheet} {S : Address → Prop} {trail : Trail} {cell : Address} {memo : Memo}

theorem onlyFormulas_resolveFully (sheet : Sheet) (trail : Trail) (cell : Address)
    (hMemo : memo.OnlyFormulas sheet) :
    ((sheet.resolveFully trail cell).run memo).2.OnlyFormulas sheet :=
  fun other hOther => (sheet.resolveFully_steady trail cell memo).grows.get?_eq_none
    (hMemo other hOther) hOther

theorem resolveFully_blank (hText : sheet.text cell = "")
    (hTrail : ∀ above ∈ trail, (sheet.formula? above).isSome) (hMemo : memo.OnlyFormulas sheet) :
    (sheet.resolveFully trail cell).run memo = (.settled (.text ""), memo) := by
  have hFormula : sheet.formula? cell = none := by
    rw [formula?, hText]
    rfl
  have hCell : cell ∉ trail := by
    intro hMem
    have hSome := hTrail cell hMem
    rw [hFormula] at hSome
    cases hSome
  rw [resolveFully_text (Memo.known?_eq_none hCell (hMemo cell hFormula)) hFormula, hText]

/-- What a sum comes to depends on the texts in its block only, not on the shape of the sheet. -/
theorem follow_sum_congr {block : Block}
    (hTexts : ∀ cell, block.contains cell = true → other.text cell = sheet.text cell)
    (hTrail : ∀ above ∈ trail, (sheet.formula? above).isSome) (hMemo : memo.OnlyFormulas sheet) :
    (((Formula.sum block).itinerary other).follow (sheet.resolveFully trail)).run memo =
      (((Formula.sum block).itinerary sheet).follow (sheet.resolveFully trail)).run memo := by
  have hZero : (0.0 : Float) ≠ -0.0 := by decide +kernel
  have hWritten : ∀ s : Sheet, (∀ cell, block.contains cell = true → s.text cell = sheet.text cell) →
      ((Itinerary.sumFrom (s.writtenIn block) 0.0).follow (sheet.resolveFully trail)).run memo =
        ((Itinerary.sumFrom (s.cellsIn block) 0.0).follow (sheet.resolveFully trail)).run memo := by
    intro s hs
    apply Itinerary.follow_sumFrom_filter (I := Memo.OnlyFormulas sheet) _ _ hZero hMemo
    · exact fun cell memo => onlyFormulas_resolveFully sheet trail cell
    · intro cell hCell hBlank memo hMemo
      rw [decide_eq_false_iff_not, not_not, hs cell (mem_cellsIn.mp hCell).1] at hBlank
      exact resolveFully_blank hBlank hTrail hMemo
  calc
    _ = ((Itinerary.sumFrom (other.writtenIn block) 0.0).follow
          (sheet.resolveFully trail)).run memo := (hWritten other hTexts).symm
    _ = ((Itinerary.sumFrom (sheet.writtenIn block) 0.0).follow
          (sheet.resolveFully trail)).run memo := by rw [writtenIn_congr hTexts]
    _ = _ := hWritten sheet fun _ _ => rfl

theorem follow_formula_congr {formula : Formula}
    (hTexts : ∀ cell, formula.Mentions cell → other.text cell = sheet.text cell)
    (hTrail : ∀ above ∈ trail, (sheet.formula? above).isSome) (hMemo : memo.OnlyFormulas sheet) :
    ((formula.itinerary other).follow (sheet.resolveFully trail)).run memo =
      ((formula.itinerary sheet).follow (sheet.resolveFully trail)).run memo := by
  cases formula with
  | blank => rfl
  | malformed => rfl
  | chain operands => rfl
  | sum block => exact follow_sum_congr hTexts hTrail hMemo

def Closed (sheet : Sheet) (S : Address → Prop) : Prop :=
  ∀ cell, S cell → ∀ other, sheet.Mentions cell other → S other

theorem resolveFully_congr (hClosed : sheet.Closed S)
    (hTexts : ∀ cell, S cell → other.text cell = sheet.text cell) (trail : Trail) :
    (∀ above ∈ trail, (sheet.formula? above).isSome) → ∀ cell, S cell → ∀ memo,
      memo.OnlyFormulas sheet →
        (other.resolveFully trail cell).run memo = (sheet.resolveFully trail cell).run memo := by
  induction trail using trail_induction sheet with
  | step trail ih =>
    intro hTrail cell hCell memo hMemo
    have hFormulas : other.formula? cell = sheet.formula? cell := by
      rw [formula?, formula?, hTexts cell hCell]
    cases hKnown : memo.known? trail cell with
    | some outcome => rw [resolveFully_known hKnown, resolveFully_known hKnown]
    | none =>
      cases hFormula : sheet.formula? cell with
      | none =>
        rw [resolveFully_text hKnown hFormula, resolveFully_text hKnown (hFormulas.trans hFormula),
          hTexts cell hCell]
      | some formula =>
        have hOnTrail := Memo.not_mem_of_known?_eq_none hKnown
        have hIsFormula : (sheet.formula? cell).isSome := Option.isSome_of_eq_some hFormula
        have hMentions : ∀ mentioned, formula.Mentions mentioned → S mentioned :=
          fun mentioned h => hClosed cell hCell mentioned ⟨formula, hFormula, h⟩
        have hDeeper : ∀ above ∈ trail.insert cell, (sheet.formula? above).isSome := by
          intro above hAbove
          rcases mem_insert_iff.mp hAbove with rfl | hAbove
          · exact hIsFormula
          · exact hTrail above hAbove
        -- first the same visits by either sheet's recursion, then either sheet's visits
        have hReach : ((formula.itinerary other).follow
            (other.resolveFully (trail.insert cell))).run memo = ((formula.itinerary other).follow
              (sheet.resolveFully (trail.insert cell))).run memo := by
          apply (formula.itinerary_ends other fun _ _ => True).follow_congr
            (I := Memo.OnlyFormulas sheet) _ hMemo
          intro next hNext later hLater
          have hNext := hMentions next (mentions_of_mem_references hNext)
          exact ⟨ih cell hOnTrail hIsFormula hDeeper next hNext later hLater,
            onlyFormulas_resolveFully sheet (trail.insert cell) next hLater⟩
        have hShape := follow_formula_congr
          (fun mentioned h => hTexts mentioned (hMentions mentioned h)) hDeeper hMemo
        rw [resolveFully_formula hKnown hFormula,
          resolveFully_formula hKnown (hFormulas.trans hFormula), run_computeFully,
          run_computeFully, hReach, hShape]

end Sheet

theorem Pass.display_congr {sheet other : Sheet} {cell : Address}
    (hTexts : ∀ next, Relation.ReflTransGen sheet.Mentions cell next →
      other.text next = sheet.text next) :
    ((Pass.display cell).run (.start other)).1 = ((Pass.display cell).run (.start sheet)).1 := by
  have hRun : ∀ s : Sheet, ((Pass.display cell).run (.start s)).1 =
      ((s.resolveFully ∅ cell).run .empty).1.value.display := by
    intro s
    change ((Pass.ask (.stored cell)).run (.start s)).1.display = _
    rw [Pass.run_ask]
    rfl
  rw [hRun, hRun, Sheet.resolveFully_congr (fun _ h _ hNext => h.tail hNext) hTexts ∅
    (fun _ h => absurd h Std.ExtTreeSet.not_mem_empty) cell .refl .empty
    fun next _ => Memo.get?_empty next]

end FormulaGrid
