import FormulaGrid.Proofs.Evaluation.Rounds

/-!
# The limit to nesting

A query is answered after finitely many rounds, and nobody can tell from its value or from the memo
after it that attempts were cut on the way.
-/

set_option autoImplicit false

namespace FormulaGrid

/-- The cuts and the memo that come up while a query is being answered. -/
inductive Sheet.InRound (sheet : Sheet) (room : Nat) (attempt : Walk Outcome) (start : Memo) :
    List Cut → Memo → Prop where
  | first : sheet.InRound room attempt start [] start
  | next {cuts later : List Cut} {memo after : Memo} :
      sheet.InRound room attempt start cuts memo →
      sheet.round room attempt cuts memo = .waiting later after →
      sheet.InRound room attempt start later after

/-- A cell that is cut is not stored and not in progress, and more cells are in progress above it
than above the cut that waits below. -/
def Cut.Deepens (cut : Cut) (cuts : List Cut) (memo : Memo) : Prop :=
  memo.get? cut.cell = none ∧ cut.cell ∉ cut.ancestors ∧
    ∀ below ∈ cuts.head?, (∀ cell ∈ below.ancestors, cell ∈ cut.ancestors) ∧
      ∃ cell ∈ cut.ancestors, cell ∉ below.ancestors

def Round.Advances (cuts : List Cut) (memo : Memo) : Round → Prop
  | answered _ _ => cuts = []
  | waiting later after =>
    (∃ cut, later = cut :: cuts ∧ cut.Deepens cuts after) ∨
    (∃ cut, cuts = cut :: later ∧ memo.get? cut.cell = none ∧ (after.get? cut.cell).isSome)

theorem Pending.deepens {sheet : Sheet} {cut : Cut} {cuts : List Cut} {memo : Memo}
    (h : Pending sheet (cut :: cuts) memo) : cut.Deepens cuts memo := by
  refine ⟨h.unknown cut List.mem_cons_self, h.fresh cut List.mem_cons_self, ?_⟩
  intro below hBelow
  have hBelow := List.mem_of_mem_head? hBelow
  obtain ⟨hCell, hAncestors⟩ := (List.pairwise_cons.mp h.nested).1 below hBelow
  exact ⟨hAncestors, below.cell, hCell, h.fresh below (List.mem_cons_of_mem _ hBelow)⟩

namespace Sheet

variable {sheet : Sheet} {trail : Trail} {attempt : Walk Outcome} {full : StateM Memo Outcome}

theorem RoundOutcome.advances {cuts : List Cut} {memo : Memo} {round : Round}
    (hPending : Pending sheet cuts memo) (h : RoundOutcome sheet full cuts memo round) :
    round.Advances cuts memo := by
  cases h with
  | answered outcome after hCuts hFull => exact hCuts
  | pushed cut after hGrows hDeeper hFull => exact .inl ⟨cut, rfl, hDeeper.deepens⟩
  | popped cut rest hCuts hStored hRest =>
    subst hCuts
    exact .inr ⟨cut, rfl, hPending.unknown cut List.mem_cons_self,
      Option.isSome_iff_ne_none.mpr hStored⟩

theorem InRound.pending {room : Nat} {start : Memo} {cuts : List Cut} {memo : Memo}
    (hFollows : ∀ memo, Follows sheet trail attempt full memo)
    (h : sheet.InRound (room + 1) attempt start cuts memo) : Pending sheet cuts memo := by
  induction h with
  | first => exact .nil sheet start
  | next _ hRound ih =>
    have hSpec := round_spec room hFollows ih
    rw [hRound] at hSpec
    cases hSpec with
    | pushed cut after hGrows hPending hFull => exact hPending
    | popped cut rest hCuts hStored hPending => exact hPending

/-- Every query is answered within the bound on rounds, and each round until then adds a deeper cut
or stores the cell of the deepest one. -/
theorem query_terminates (sheet : Sheet) (query : Query) (memo : Memo) :
    sheet.settleWithin Pass.nestingLimit (query.attempt sheet Pass.nestingLimit ∅)
        sheet.roundBound [] memo = some (sheet.settle Pass.nestingLimit ∅ query memo) ∧
      ∀ cuts between, sheet.InRound Pass.nestingLimit (query.attempt sheet Pass.nestingLimit ∅)
          memo cuts between →
        (sheet.round Pass.nestingLimit (query.attempt sheet Pass.nestingLimit ∅) cuts
          between).Advances cuts between := by
  constructor
  · rw [Pass.nestingLimit, settle_eq, settleWithin_roundBound]
  · intro cuts between hBetween
    have hFollows := query.attempt_follows sheet ∅ 255
    have hPending := hBetween.pending hFollows
    exact (round_spec 255 hFollows hPending).advances hPending

end Sheet

namespace Walk

def SparesOpenCells (attempt : Walk Outcome) : Prop :=
  ∀ memo cut, (attempt.run ⟨memo, none⟩).2.cut = some cut →
    ∀ cell, cell = cut.cell ∨ cell ∈ cut.ancestors →
      (attempt.run ⟨memo, none⟩).2.memo.get? cell = memo.get? cell

def RestsOnceCut (attempt : Walk Outcome) : Prop :=
  ∀ progress : Progress, progress.cut.isSome → (attempt.run progress).2 = progress

end Walk

theorem CutShort.get?_eq {sheet : Sheet} {trail : Trail} {memo after : Memo} {cut : Cut}
    (h : CutShort sheet trail memo after cut) {cell : Address}
    (hCell : cell = cut.cell ∨ cell ∈ cut.ancestors) : after.get? cell = memo.get? cell := by
  have hNone : ∀ other, after.get? other = none → memo.get? other = none := by
    intro other hOther
    cases hMemo : memo.get? other with
    | none => rfl
    | some outcome => rw [h.grows.keeps other outcome hMemo] at hOther; cases hOther
  rcases hCell with rfl | hCell
  · rw [h.unknown, hNone _ h.unknown]
  · by_cases hTrail : cell ∈ trail
    · exact h.frame cell hTrail
    · have hAfter := h.unfinished cell hCell hTrail
      rw [hAfter, hNone _ hAfter]

theorem Follows.sparesOpenCells {sheet : Sheet} {trail : Trail} {attempt : Walk Outcome}
    {full : StateM Memo Outcome} (h : ∀ memo, Follows sheet trail attempt full memo) :
    Walk.SparesOpenCells attempt :=
  fun memo cut hCut _ hCell => ((h memo).cuts cut hCut).get?_eq hCell

/-- A query has the value and leaves the memo of plain recursion without a limit. Its attempts store
no cell that is in progress where they are cut, and none that they come to afterwards. -/
theorem depth_limit_unobservable (sheet : Sheet) (query : Query) (memo : Memo) :
    (Pass.ask query).run ⟨sheet, memo, ∅⟩ =
        (((query.answerFully sheet ∅).run memo).1.value,
          ⟨sheet, ((query.answerFully sheet ∅).run memo).2, ∅⟩) ∧
      Walk.SparesOpenCells (query.attempt sheet Pass.nestingLimit ∅) ∧
      (∀ cut : Cut, Walk.SparesOpenCells
        (sheet.resolve Pass.nestingLimit cut.ancestors cut.cell)) ∧
      ∀ room trail cell, Walk.RestsOnceCut (sheet.resolve room trail cell) := by
  refine ⟨Pass.run_ask query _, ?_, ?_, ?_⟩
  · exact Follows.sparesOpenCells (query.attempt_follows sheet ∅ 255)
  · intro cut
    exact Follows.sparesOpenCells (sheet.resolve_follows Pass.nestingLimit cut.ancestors cut.cell)
  · intro room trail cell progress hCut
    exact Sheet.resolve_of_cut hCut room

end FormulaGrid
