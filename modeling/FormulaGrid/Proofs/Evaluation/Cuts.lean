import FormulaGrid.Proofs.Evaluation.Growth

/-!
# Cut attempts

An attempt with room for so many nested cells against plain recursion. If it is not cut, the two
agree. If it is cut, plain recursion comes to the same from the memo that the attempt leaves behind,
once the cell at the cut has been resolved: all the attempt had finished is answered by the memo,
and none of the cells in progress has been stored.
-/

set_option autoImplicit false

namespace FormulaGrid

namespace Sheet

variable {sheet : Sheet} {trail : Trail} {cell : Address}

theorem run_resolve (room : Nat) (progress : Progress) :
    (sheet.resolve room trail cell).run progress =
      match progress.memo.known? trail cell with
      | some outcome => (outcome, progress)
      | none =>
        match sheet.formula? cell with
        | none => (.settled (.text (sheet.text cell)), progress)
        | some formula =>
          (sheet.compute trail cell formula (sheet.deeper? room trail cell)).run progress := by
  rw [resolve_eq, StateT.run_bind, StateT.run_get]
  simp only [pure_bind, formula?]
  cases progress.memo.known? trail cell with
  | some outcome => rfl
  | none => cases Formula.ofText? (sheet.text cell) <;> rfl

theorem run_compute_of_cut {progress : Progress} (hCut : progress.cut.isSome) (formula : Formula)
    (deeper? : Option (Address → Walk Outcome)) :
    (sheet.compute trail cell formula deeper?).run progress = (.fault .invalid, progress) := by
  rw [compute.eq_def, StateT.run_bind, StateT.run_get]
  simp only [pure_bind, hCut, if_true]
  rfl

theorem run_compute_none (memo : Memo) (formula : Formula) :
    (sheet.compute trail cell formula none).run ⟨memo, none⟩ =
      (.fault .invalid, ⟨memo, some ⟨cell, trail⟩⟩) :=
  rfl

theorem run_compute_some (memo : Memo) (formula : Formula) (deeper : Address → Walk Outcome) :
    (sheet.compute trail cell formula (some deeper)).run ⟨memo, none⟩ =
      let body := ((formula.itinerary sheet).follow deeper).run ⟨memo, none⟩
      (body.1.closeLoop cell, body.2.store cell (body.1.closeLoop cell)) := by
  rw [← Formula.outcome_eq_follow]
  rfl

theorem resolve_of_cut {progress : Progress} (hCut : progress.cut.isSome) (room : Nat) :
    ((sheet.resolve room trail cell).run progress).2 = progress := by
  rw [run_resolve]
  split
  · rfl
  · split
    · rfl
    · rw [run_compute_of_cut hCut]

end Sheet

theorem Itinerary.follow_of_cut {reach : Address → Walk Outcome}
    (hReach : ∀ cell (progress : Progress), progress.cut.isSome →
      ((reach cell).run progress).2 = progress)
    (itinerary : Itinerary) {progress : Progress} (hCut : progress.cut.isSome) :
    ((itinerary.follow reach).run progress).2 = progress := by
  induction itinerary with
  | arrive outcome => rfl
  | visit cell next ih =>
    change (((next ((reach cell).run progress).1).follow reach).run
      ((reach cell).run progress).2).2 = progress
    rw [hReach cell progress hCut]
    exact ih _

structure CutShort (sheet : Sheet) (trail : Trail) (memo after : Memo) (cut : Cut) : Prop where
  grows : memo.GrowsTo sheet after
  frame : ∀ cell ∈ trail, after.get? cell = memo.get? cell
  below : ∀ cell ∈ trail, cell ∈ cut.ancestors
  unfinished : ∀ cell ∈ cut.ancestors, cell ∉ trail → after.get? cell = none
  fresh : cut.cell ∉ cut.ancestors
  unknown : after.get? cut.cell = none
  isFormula : (sheet.formula? cut.cell).isSome

def Cut.mend (sheet : Sheet) (cut : Cut) (memo : Memo) : Memo :=
  ((sheet.resolveFully cut.ancestors cut.cell).run memo).2

theorem Cut.growsTo_mend (sheet : Sheet) (cut : Cut) (memo : Memo) :
    memo.GrowsTo sheet (cut.mend sheet memo) :=
  (sheet.resolveFully_steady cut.ancestors cut.cell memo).grows

theorem Cut.get?_mend (sheet : Sheet) {cut : Cut} (memo : Memo) {cell : Address}
    (hCell : cell ∈ cut.ancestors) : (cut.mend sheet memo).get? cell = memo.get? cell :=
  (sheet.resolveFully_steady cut.ancestors cut.cell memo).frame cell hCell

structure Follows (sheet : Sheet) (trail : Trail) (attempt : Walk Outcome)
    (full : StateM Memo Outcome) (memo : Memo) : Prop where
  finishes : (attempt.run ⟨memo, none⟩).2.cut = none →
    full.run memo = ((attempt.run ⟨memo, none⟩).1, (attempt.run ⟨memo, none⟩).2.memo)
  cuts : ∀ cut, (attempt.run ⟨memo, none⟩).2.cut = some cut →
    CutShort sheet trail memo (attempt.run ⟨memo, none⟩).2.memo cut
  mends : ∀ cut, (attempt.run ⟨memo, none⟩).2.cut = some cut →
    full.run (cut.mend sheet (attempt.run ⟨memo, none⟩).2.memo) = full.run memo

theorem Follows.of_finished {sheet : Sheet} {trail : Trail} {attempt : Walk Outcome}
    {full : StateM Memo Outcome} {memo after : Memo} {outcome : Outcome}
    (hAttempt : attempt.run ⟨memo, none⟩ = (outcome, ⟨after, none⟩))
    (hFull : full.run memo = (outcome, after)) : Follows sheet trail attempt full memo := by
  constructor
  · intro _
    rw [hAttempt, hFull]
  · intro cut hCut
    rw [hAttempt] at hCut
    cases hCut
  · intro cut hCut
    rw [hAttempt] at hCut
    cases hCut

theorem Follows.of_cut {sheet : Sheet} {trail : Trail} {attempt : Walk Outcome}
    {full : StateM Memo Outcome} {memo after : Memo} {cut : Cut}
    (hAttempt : (attempt.run ⟨memo, none⟩).2 = ⟨after, some cut⟩)
    (hCuts : CutShort sheet trail memo after cut)
    (hMends : full.run (cut.mend sheet after) = full.run memo) :
    Follows sheet trail attempt full memo := by
  constructor
  · intro hNone
    rw [hAttempt] at hNone
    cases hNone
  · intro other hOther
    rw [hAttempt] at hOther ⊢
    cases hOther
    exact hCuts
  · intro other hOther
    rw [hAttempt] at hOther ⊢
    cases hOther
    exact hMends

theorem Follows.congr {sheet : Sheet} {trail : Trail} {attempt attempt' : Walk Outcome}
    {full : StateM Memo Outcome} {memo : Memo} (h : Follows sheet trail attempt full memo)
    (hRun : attempt'.run ⟨memo, none⟩ = attempt.run ⟨memo, none⟩) :
    Follows sheet trail attempt' full memo := by
  constructor
  · rw [hRun]
    exact h.finishes
  · rw [hRun]
    exact h.cuts
  · rw [hRun]
    exact h.mends

/-- One attempt after another. If the first one is cut, the second one does nothing. -/
theorem Follows.bind {sheet : Sheet} {trail : Trail} {first : Walk Outcome}
    {firstFull : StateM Memo Outcome} {rest : Outcome → Walk Outcome}
    {restFull : Outcome → StateM Memo Outcome} {memo : Memo}
    (hFirst : Follows sheet trail first firstFull memo)
    (hSteady : Steady sheet trail firstFull memo)
    (hHalted : ∀ outcome (progress : Progress), progress.cut.isSome →
      ((rest outcome).run progress).2 = progress)
    (hRest : ∀ outcome later, Follows sheet trail (rest outcome) (restFull outcome) later) :
    Follows sheet trail (first >>= rest) (firstFull >>= restFull) memo := by
  rcases hAttempt : first.run ⟨memo, none⟩ with ⟨outcome, between, cut?⟩
  have hRun : (first >>= rest).run ⟨memo, none⟩ = (rest outcome).run ⟨between, cut?⟩ := by
    rw [StateT.run_bind, hAttempt]
    rfl
  have hFullRun : ∀ later, (firstFull >>= restFull).run later =
      (restFull (firstFull.run later).1).run (firstFull.run later).2 := fun _ => rfl
  cases cut? with
  | some cut =>
    have hCuts := hFirst.cuts cut (by rw [hAttempt])
    have hMends := hFirst.mends cut (by rw [hAttempt])
    rw [hAttempt] at hCuts hMends
    refine .of_cut ?_ hCuts ?_
    · rw [hRun]
      exact hHalted outcome _ rfl
    · rw [hFullRun, hFullRun, hMends]
  | none =>
    have hFinishes := hFirst.finishes (by rw [hAttempt])
    rw [hAttempt] at hFinishes
    have hGrows := hSteady.grows
    have hFrame := hSteady.frame
    have hReplays := hSteady.replays
    rw [hFinishes] at hGrows hFrame hReplays
    have hThen := hRest outcome between
    refine ⟨?_, ?_, ?_⟩
    · intro hNone
      rw [hRun] at hNone ⊢
      rw [hFullRun, hFinishes]
      exact hThen.finishes hNone
    · intro cut hCut
      rw [hRun] at hCut ⊢
      have hCuts := hThen.cuts cut hCut
      exact { hCuts with
        grows := hGrows.trans hCuts.grows
        frame := fun cell hCell => (hCuts.frame cell hCell).trans (hFrame cell hCell) }
    · intro cut hCut
      rw [hRun] at hCut ⊢
      -- The memo answers for the first part, which lets the second one start where it did.
      have hAgain := hReplays _ ((hThen.cuts cut hCut).grows.trans (cut.growsTo_mend sheet _))
      rw [hFullRun, hFullRun, hAgain, hFinishes]
      exact hThen.mends cut hCut

theorem Itinerary.follow_follows {sheet : Sheet} {trail : Trail} {attempt : Address → Walk Outcome}
    {full : Address → StateM Memo Outcome}
    (hHalted : ∀ cell (progress : Progress), progress.cut.isSome →
      ((attempt cell).run progress).2 = progress)
    (hFollows : ∀ cell memo, Follows sheet trail (attempt cell) (full cell) memo)
    (hSteady : ∀ cell memo, Steady sheet trail (full cell) memo) (itinerary : Itinerary)
    (memo : Memo) :
    Follows sheet trail (itinerary.follow attempt) (itinerary.follow full) memo := by
  induction itinerary generalizing memo with
  | arrive outcome => exact .of_finished rfl rfl
  | visit cell next ih =>
    exact .bind (hFollows cell memo) (hSteady cell memo)
      (fun outcome _ hCut => follow_of_cut hHalted (next outcome) hCut) ih

namespace Sheet

variable {sheet : Sheet} {trail : Trail} {cell : Address}

theorem compute_follows {memo : Memo} {formula : Formula} {full : StateM Memo Outcome}
    {deeper : Address → Walk Outcome} {deeperFull : Address → StateM Memo Outcome}
    (hMemo : memo.get? cell = none)
    (hFull : ∀ later : Memo, later.get? cell = none →
      full.run later = (sheet.computeFully cell formula deeperFull).run later)
    (hBody : Follows sheet (trail.insert cell) ((formula.itinerary sheet).follow deeper)
      ((formula.itinerary sheet).follow deeperFull) memo) :
    Follows sheet trail (sheet.compute trail cell formula (some deeper)) full memo := by
  rcases hAttempt : ((formula.itinerary sheet).follow deeper).run ⟨memo, none⟩
    with ⟨outcome, between, cut?⟩
  have hRun : (sheet.compute trail cell formula (some deeper)).run ⟨memo, none⟩ = _ :=
    run_compute_some memo formula deeper
  rw [hAttempt] at hRun
  cases cut? with
  | none =>
    have hFinishes := hBody.finishes (by rw [hAttempt])
    rw [hAttempt] at hFinishes
    refine .of_finished hRun ?_
    rw [hFull memo hMemo, run_computeFully, hFinishes]
  | some cut =>
    have hCuts := hBody.cuts cut (by rw [hAttempt])
    have hMends := hBody.mends cut (by rw [hAttempt])
    rw [hAttempt] at hCuts hMends
    have hBetween : between.get? cell = none :=
      (hCuts.frame cell (mem_insert_self trail cell)).trans hMemo
    have hMended : (cut.mend sheet between).get? cell = none :=
      (cut.get?_mend sheet between (hCuts.below cell (mem_insert_self trail cell))).trans hBetween
    refine .of_cut (congrArg Prod.snd hRun) ?_ ?_
    · exact { hCuts with
        frame := fun other hOther => hCuts.frame other (mem_insert_of_mem hOther cell)
        below := fun other hOther => hCuts.below other (mem_insert_of_mem hOther cell)
        unfinished := by
          intro other hAncestor hOther
          by_cases hSame : other = cell
          · exact hSame ▸ hBetween
          · refine hCuts.unfinished other hAncestor fun hMem => ?_
            exact (mem_insert_iff.mp hMem).elim hSame hOther }
    · rw [hFull memo hMemo, hFull _ hMended, run_computeFully, run_computeFully, hMends]

theorem resolve_follows_of_formula {room : Nat} {memo : Memo}
    (hCompute : ∀ formula, memo.known? trail cell = none → sheet.formula? cell = some formula →
      Follows sheet trail (sheet.compute trail cell formula (sheet.deeper? room trail cell))
        (sheet.resolveFully trail cell) memo) :
    Follows sheet trail (sheet.resolve room trail cell) (sheet.resolveFully trail cell) memo := by
  cases hKnown : memo.known? trail cell with
  | some outcome =>
    refine .of_finished ?_ (resolveFully_known hKnown)
    rw [run_resolve, hKnown]
  | none =>
    cases hFormula : sheet.formula? cell with
    | none =>
      refine .of_finished ?_ (resolveFully_text hKnown hFormula)
      rw [run_resolve, hKnown, hFormula]
    | some formula =>
      refine (hCompute formula hKnown hFormula).congr ?_
      rw [run_resolve, hKnown, hFormula]

theorem compute_none_follows {memo : Memo} {formula : Formula}
    (hKnown : memo.known? trail cell = none) (hFormula : sheet.formula? cell = some formula) :
    Follows sheet trail (sheet.compute trail cell formula none) (sheet.resolveFully trail cell)
      memo := by
  refine .of_cut (congrArg Prod.snd (run_compute_none memo formula)) ?_ ?_
  · exact {
      grows := .refl memo
      frame := fun _ _ => rfl
      below := fun _ h => h
      unfinished := fun _ h hNot => absurd h hNot
      fresh := Memo.not_mem_of_known?_eq_none hKnown
      unknown := Memo.get?_of_known?_eq_none hKnown
      isFormula := by rw [hFormula]; rfl }
  · exact (sheet.resolveFully_steady trail cell memo).replays _ (.refl _)

theorem resolve_follows (sheet : Sheet) (room : Nat) : ∀ trail cell memo,
    Follows sheet trail (sheet.resolve room trail cell) (sheet.resolveFully trail cell) memo := by
  induction room with
  | zero =>
    intro trail cell memo
    apply resolve_follows_of_formula
    intro formula hKnown hFormula
    exact compute_none_follows hKnown hFormula
  | succ room ih =>
    intro trail cell memo
    apply resolve_follows_of_formula
    intro formula hKnown hFormula
    apply compute_follows (Memo.get?_of_known?_eq_none hKnown)
    · intro later hLater
      have hCell := Memo.not_mem_of_known?_eq_none hKnown
      exact resolveFully_formula (Memo.known?_eq_none hCell hLater) hFormula
    · exact Itinerary.follow_follows (fun _ _ hCut => resolve_of_cut hCut room)
        (ih (trail.insert cell)) (sheet.resolveFully_steady (trail.insert cell)) _ memo

end Sheet
end FormulaGrid
