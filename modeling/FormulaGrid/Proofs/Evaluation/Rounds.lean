import FormulaGrid.Evaluation.Pass
import FormulaGrid.Proofs.Evaluation.Cuts

/-!
# Rounds of a query

The cuts that wait are nested: each is deeper than the one before it and stands in progress above
the next. Their cells are formula cells that the memo does not know, so there are never more of them
than such cells. A round adds a cut or resolves one, which makes one such cell less; twice their
number of rounds is enough. What plain recursion makes of the query stays the same from round to round.
-/

set_option autoImplicit false

namespace FormulaGrid

namespace Query

variable {sheet : Sheet} {trail : Trail} {text : String} {formula : Formula}

theorem run_attempt_typed (hFormula : Formula.ofText? text = some formula) (room : Nat)
    (cell : Address) (progress : Progress) :
    ((typed text cell).attempt sheet room trail).run progress =
      match progress.memo.known? trail cell with
      | some outcome => (outcome, progress)
      | none =>
        (sheet.compute trail cell formula (sheet.deeper? room trail cell)).run progress := by
  simp only [attempt, hFormula]
  rw [StateT.run_bind, StateT.run_get]
  simp only [pure_bind]
  cases progress.memo.known? trail cell <;> rfl

theorem run_answerFully_typed (hFormula : Formula.ofText? text = some formula) (cell : Address)
    (memo : Memo) :
    ((typed text cell).answerFully sheet trail).run memo =
      match memo.known? trail cell with
      | some outcome => (outcome, memo)
      | none =>
        (sheet.computeFully cell formula (sheet.resolveFully (trail.insert cell))).run memo := by
  simp only [answerFully, hFormula]
  rw [StateT.run_bind, StateT.run_get]
  simp only [pure_bind]
  cases memo.known? trail cell <;> rfl

theorem attempt_typed_follows (room : Nat) (cell : Address) (memo : Memo)
    (hFormula : Formula.ofText? text = some formula) :
    Follows sheet trail ((typed text cell).attempt sheet (room + 1) trail)
      ((typed text cell).answerFully sheet trail) memo := by
  cases hKnown : memo.known? trail cell with
  | some outcome =>
    have hRun : ((typed text cell).answerFully sheet trail).run memo = (outcome, memo) := by
      rw [run_answerFully_typed hFormula, hKnown]
    refine .of_finished ?_ hRun
    rw [run_attempt_typed hFormula, hKnown]
  | none =>
    have hCell := Memo.not_mem_of_known?_eq_none hKnown
    have hBody := Itinerary.follow_follows (fun _ _ hCut => Sheet.resolve_of_cut hCut room)
      (sheet.resolve_follows room (trail.insert cell))
      (sheet.resolveFully_steady (trail.insert cell)) (formula.itinerary sheet) memo
    refine (Sheet.compute_follows (Memo.get?_of_known?_eq_none hKnown) ?_ hBody).congr ?_
    · intro later hLater
      rw [run_answerFully_typed hFormula, Memo.known?_eq_none hCell hLater]
    · rw [run_attempt_typed hFormula, hKnown]
      rfl

theorem attempt_follows (sheet : Sheet) (trail : Trail) (room : Nat) (query : Query)
    (memo : Memo) : Follows sheet trail (query.attempt sheet (room + 1) trail)
      (query.answerFully sheet trail) memo := by
  cases query with
  | stored cell => exact sheet.resolve_follows (room + 1) trail cell memo
  | typed text cell =>
    cases hText : Formula.ofText? text with
    | none =>
      simp only [attempt, answerFully, hText]
      exact .of_finished rfl rfl
    | some formula => exact attempt_typed_follows room cell memo hText
  | loose text =>
    cases hText : Formula.ofText? text with
    | none =>
      simp only [attempt, answerFully, hText]
      exact .of_finished rfl rfl
    | some formula =>
      simp only [attempt, answerFully, hText, Formula.outcome_eq_follow]
      exact Itinerary.follow_follows (fun _ _ hCut => Sheet.resolve_of_cut hCut _)
        (sheet.resolve_follows (room + 1) trail) (sheet.resolveFully_steady trail) _ memo

end Query

/-- The cuts that wait, the deepest one first. -/
structure Pending (sheet : Sheet) (cuts : List Cut) (memo : Memo) : Prop where
  fresh : ∀ cut ∈ cuts, cut.cell ∉ cut.ancestors
  unknown : ∀ cut ∈ cuts, memo.get? cut.cell = none
  isFormula : ∀ cut ∈ cuts, (sheet.formula? cut.cell).isSome
  nested : cuts.Pairwise fun deeper cut => cut.cell ∈ deeper.ancestors ∧
    ∀ cell ∈ cut.ancestors, cell ∈ deeper.ancestors

theorem Pending.nil (sheet : Sheet) (memo : Memo) : Pending sheet [] memo where
  fresh _ h := nomatch h
  unknown _ h := nomatch h
  isFormula _ h := nomatch h
  nested := .nil

namespace Sheet

variable {sheet : Sheet}

def unknownCells (sheet : Sheet) (memo : Memo) : Finset Address :=
  sheet.formulaCells.filter fun cell => memo.get? cell = none

theorem mem_unknownCells {memo : Memo} {cell : Address} :
    cell ∈ sheet.unknownCells memo ↔ (sheet.formula? cell).isSome ∧ memo.get? cell = none := by
  rw [unknownCells, Finset.mem_filter, mem_formulaCells]

theorem unknownCells_subset {memo later : Memo} (h : memo.GrowsTo sheet later) :
    sheet.unknownCells later ⊆ sheet.unknownCells memo := by
  intro cell hCell
  rw [mem_unknownCells] at hCell ⊢
  refine ⟨hCell.1, ?_⟩
  cases hMemo : memo.get? cell with
  | none => rfl
  | some outcome =>
    rw [h.keeps cell outcome hMemo] at hCell
    cases hCell.2

theorem card_unknownCells_lt {memo later : Memo} (h : memo.GrowsTo sheet later) {cell : Address}
    (hFormula : (sheet.formula? cell).isSome) (hMemo : memo.get? cell = none)
    (hLater : later.get? cell ≠ none) :
    (sheet.unknownCells later).card < (sheet.unknownCells memo).card := by
  apply Finset.card_lt_card
  rw [Finset.ssubset_iff_of_subset (unknownCells_subset h)]
  exact ⟨cell, mem_unknownCells.mpr ⟨hFormula, hMemo⟩, fun hCell =>
    hLater (mem_unknownCells.mp hCell).2⟩

theorem card_unknownCells_le (sheet : Sheet) (memo : Memo) :
    (sheet.unknownCells memo).card ≤ sheet.cellCount :=
  (Finset.card_filter_le _ _).trans sheet.card_formulaCells_le

end Sheet

theorem Pending.length_le {sheet : Sheet} {cuts : List Cut} {memo : Memo}
    (h : Pending sheet cuts memo) : cuts.length ≤ (sheet.unknownCells memo).card := by
  have hNodup : (cuts.map Cut.cell).Nodup := by
    rw [List.Nodup, List.pairwise_map]
    refine h.nested.imp_of_mem ?_
    intro deeper cut hDeeper _ hNested hSame
    exact h.fresh deeper hDeeper (hSame ▸ hNested.1)
  calc
    cuts.length = (cuts.map Cut.cell).toFinset.card := by
      rw [List.toFinset_card_of_nodup hNodup, List.length_map]
    _ ≤ (sheet.unknownCells memo).card := by
      apply Finset.card_le_card
      intro cell hCell
      obtain ⟨cut, hCut, rfl⟩ := List.mem_map.mp (List.mem_toFinset.mp hCell)
      exact Sheet.mem_unknownCells.mpr ⟨h.isFormula cut hCut, h.unknown cut hCut⟩

namespace Sheet

variable {sheet : Sheet}

def mendAll (sheet : Sheet) : List Cut → Memo → Memo
  | [], memo => memo
  | cut :: rest, memo => sheet.mendAll rest (cut.mend sheet memo)

inductive RoundOutcome (sheet : Sheet) (full : StateM Memo Outcome) (cuts : List Cut)
    (memo : Memo) : Round → Prop where
  | answered (outcome : Outcome) (after : Memo) (hCuts : cuts = [])
      (hFull : full.run memo = (outcome, after)) :
      RoundOutcome sheet full cuts memo (.answered outcome.value after)
  | pushed (cut : Cut) (after : Memo) (hGrows : memo.GrowsTo sheet after)
      (hPending : Pending sheet (cut :: cuts) after)
      (hFull : full.run (sheet.mendAll (cut :: cuts) after) =
        full.run (sheet.mendAll cuts memo)) :
      RoundOutcome sheet full cuts memo (.waiting (cut :: cuts) after)
  | popped (cut : Cut) (rest : List Cut) (hCuts : cuts = cut :: rest)
      (hStored : (cut.mend sheet memo).get? cut.cell ≠ none)
      (hPending : Pending sheet rest (cut.mend sheet memo)) :
      RoundOutcome sheet full cuts memo (.waiting rest (cut.mend sheet memo))

theorem mem_ancestors_of_cut {room : Nat} {trail : Trail} {cell : Address} {memo : Memo}
    {cut : Cut} (hCut : ((sheet.resolve (room + 1) trail cell).run ⟨memo, none⟩).2.cut = some cut) :
    cell ∈ cut.ancestors := by
  rw [run_resolve] at hCut
  split at hCut
  · cases hCut
  · split at hCut
    · cases hCut
    · rename_i formula _
      have hBody := Itinerary.follow_follows (fun _ _ hCut => resolve_of_cut hCut room)
        (sheet.resolve_follows room (trail.insert cell))
        (sheet.resolveFully_steady (trail.insert cell)) (formula.itinerary sheet) memo
      rcases hAttempt : ((formula.itinerary sheet).follow
        (sheet.resolve room (trail.insert cell))).run ⟨memo, none⟩ with ⟨outcome, between, cut?⟩
      rw [deeper?, run_compute_some, hAttempt] at hCut
      cases cut? with
      | none => cases hCut
      | some other =>
        cases hCut
        exact (hBody.cuts cut (by rw [hAttempt])).below cell (mem_insert_self trail cell)

theorem stored_of_resolveFully {trail : Trail} {cell : Address} {memo : Memo}
    (hCell : cell ∉ trail) (hMemo : memo.get? cell = none)
    (hFormula : (sheet.formula? cell).isSome) :
    ((sheet.resolveFully trail cell).run memo).2.get? cell ≠ none := by
  obtain ⟨formula, hFormula⟩ := Option.isSome_iff_exists.mp hFormula
  rw [resolveFully_formula (Memo.known?_eq_none hCell hMemo) hFormula, run_computeFully]
  simp [Memo.get?_insert]

section Round

variable {trail : Trail} {attempt : Walk Outcome} {full : StateM Memo Outcome} {memo : Memo}

theorem round_nil_spec (room : Nat) (hFollows : Follows sheet trail attempt full memo) :
    RoundOutcome sheet full [] memo (sheet.round room attempt [] memo) := by
  rcases hAttempt : attempt.run ⟨memo, none⟩ with ⟨outcome, after, cut?⟩
  rw [round, hAttempt]
  cases cut? with
  | none =>
    have hFinishes := hFollows.finishes (by rw [hAttempt])
    rw [hAttempt] at hFinishes
    exact .answered outcome after rfl hFinishes
  | some cut =>
    have hCuts := hFollows.cuts cut (by rw [hAttempt])
    have hMends := hFollows.mends cut (by rw [hAttempt])
    rw [hAttempt] at hCuts hMends
    refine .pushed cut after hCuts.grows ?_ hMends
    constructor
    · simpa using hCuts.fresh
    · simpa using hCuts.unknown
    · simpa using hCuts.isFormula
    · exact List.pairwise_singleton _ _

theorem round_cons_spec (room : Nat) {cut : Cut} {rest : List Cut}
    (hPending : Pending sheet (cut :: rest) memo) :
    RoundOutcome sheet full (cut :: rest) memo
      (sheet.round (room + 1) attempt (cut :: rest) memo) := by
  have hFollows := sheet.resolve_follows (room + 1) cut.ancestors cut.cell memo
  have hNested := List.pairwise_cons.mp hPending.nested
  rcases hAttempt : (sheet.resolve (room + 1) cut.ancestors cut.cell).run ⟨memo, none⟩
    with ⟨outcome, after, cut?⟩
  rw [round, hAttempt]
  cases cut? with
  | none =>
    have hFinishes := hFollows.finishes (by rw [hAttempt])
    rw [hAttempt] at hFinishes
    have hAfter : after = cut.mend sheet memo := by rw [Cut.mend, hFinishes]
    rw [hAfter]
    refine .popped cut rest rfl ?_ ⟨?_, ?_, ?_, hNested.2⟩
    · exact stored_of_resolveFully (hPending.fresh cut List.mem_cons_self)
        (hPending.unknown cut List.mem_cons_self) (hPending.isFormula cut List.mem_cons_self)
    · exact fun other hOther => hPending.fresh other (List.mem_cons_of_mem _ hOther)
    · intro other hOther
      rw [cut.get?_mend sheet memo (hNested.1 other hOther).1]
      exact hPending.unknown other (List.mem_cons_of_mem _ hOther)
    · exact fun other hOther => hPending.isFormula other (List.mem_cons_of_mem _ hOther)
  | some deeper =>
    have hCuts := hFollows.cuts deeper (by rw [hAttempt])
    have hMends := hFollows.mends deeper (by rw [hAttempt])
    have hCell := mem_ancestors_of_cut (by rw [hAttempt])
    rw [hAttempt] at hCuts hMends
    refine .pushed deeper after hCuts.grows ⟨?_, ?_, ?_, ?_⟩ ?_
    · exact List.forall_mem_cons.mpr ⟨hCuts.fresh, hPending.fresh⟩
    · refine List.forall_mem_cons.mpr ⟨hCuts.unknown, List.forall_mem_cons.mpr ⟨?_, ?_⟩⟩
      · exact hCuts.unfinished _ hCell (hPending.fresh cut List.mem_cons_self)
      · intro other hOther
        rw [hCuts.frame _ (hNested.1 other hOther).1]
        exact hPending.unknown other (List.mem_cons_of_mem _ hOther)
    · exact List.forall_mem_cons.mpr ⟨hCuts.isFormula, hPending.isFormula⟩
    · refine List.pairwise_cons.mpr ⟨List.forall_mem_cons.mpr ⟨⟨hCell, hCuts.below⟩, ?_⟩,
        hPending.nested⟩
      intro other hOther
      obtain ⟨hOtherCell, hBelow⟩ := hNested.1 other hOther
      exact ⟨hCuts.below _ hOtherCell, fun cell hCell => hCuts.below cell (hBelow cell hCell)⟩
    · have hMended : cut.mend sheet (deeper.mend sheet after) = cut.mend sheet memo :=
        congrArg Prod.snd hMends
      rw [mendAll, mendAll, hMended, mendAll]

theorem round_spec (room : Nat) (hFollows : ∀ memo, Follows sheet trail attempt full memo)
    {cuts : List Cut} (hPending : Pending sheet cuts memo) :
    RoundOutcome sheet full cuts memo (sheet.round (room + 1) attempt cuts memo) := by
  cases cuts with
  | nil => exact round_nil_spec (room + 1) (hFollows memo)
  | cons cut rest => exact round_cons_spec room hPending

theorem settleWithin_eq (room : Nat) (hFollows : ∀ memo, Follows sheet trail attempt full memo)
    (rounds : Nat) {cuts : List Cut} {memo : Memo} (hPending : Pending sheet cuts memo)
    (hRounds : 2 * (sheet.unknownCells memo).card + 1 ≤ rounds + cuts.length) :
    sheet.settleWithin (room + 1) attempt rounds cuts memo =
      some ((full.run (sheet.mendAll cuts memo)).1.value,
        (full.run (sheet.mendAll cuts memo)).2) := by
  induction rounds generalizing cuts memo with
  | zero =>
    have hLength := hPending.length_le
    omega
  | succ rounds ih =>
    have hRound := round_spec room hFollows hPending
    rw [settleWithin]
    generalize sheet.round (room + 1) attempt cuts memo = round at hRound
    cases hRound with
    | answered outcome after hCuts hFull =>
      subst hCuts
      simp [mendAll, hFull]
    | pushed cut after hGrows hPending hFull =>
      have hCard := Finset.card_le_card (unknownCells_subset hGrows)
      rw [← hFull]
      apply ih hPending
      rw [List.length_cons]
      omega
    | popped cut rest hCuts hStored hRest =>
      subst hCuts
      have hCard := card_unknownCells_lt (cut.growsTo_mend sheet memo)
        (hPending.isFormula cut List.mem_cons_self) (hPending.unknown cut List.mem_cons_self)
        hStored
      rw [List.length_cons] at hRounds
      exact ih hRest (by omega)

end Round

/-- The rounds of a query suffice, and they come to what plain recursion comes to. -/
theorem settleWithin_roundBound (sheet : Sheet) (room : Nat) (trail : Trail) (query : Query)
    (memo : Memo) :
    sheet.settleWithin (room + 1) (query.attempt sheet (room + 1) trail) sheet.roundBound [] memo =
      some (((query.answerFully sheet trail).run memo).1.value,
        ((query.answerFully sheet trail).run memo).2) := by
  apply settleWithin_eq room (query.attempt_follows sheet trail room) _ (.nil sheet memo)
  have hCard := sheet.card_unknownCells_le memo
  rw [roundBound, List.length_nil]
  omega

theorem settle_eq (sheet : Sheet) (room : Nat) (trail : Trail) (query : Query) (memo : Memo) :
    sheet.settle (room + 1) trail query memo =
      (((query.answerFully sheet trail).run memo).1.value,
        ((query.answerFully sheet trail).run memo).2) := by
  rw [settle, settleWithin_roundBound]
  rfl

end Sheet

theorem Pass.run_ask (query : Query) (pass : Pass) :
    (Pass.ask query).run pass =
      (((query.answerFully pass.sheet pass.trail).run pass.memo).1.value,
        { pass with memo := ((query.answerFully pass.sheet pass.trail).run pass.memo).2 }) := by
  change ((pass.sheet.settle nestingLimit pass.trail query pass.memo).1,
    { pass with memo := (pass.sheet.settle nestingLimit pass.trail query pass.memo).2 }) = _
  rw [Pass.nestingLimit, Sheet.settle_eq]

end FormulaGrid
