import FormulaGrid.Proofs.Evaluation.Computed
import FormulaGrid.Proofs.Evaluation.DepthLimit

/-!
# Moments of a query

While a query is answered cells are visited and formulas are read, in all attempts of all rounds. Each such
moment has the trail of the cells in progress then and the memo as far as it has come. What was stored
before the query is stored at every moment of it, and none of those cells is in progress.
-/

set_option autoImplicit false

namespace FormulaGrid

/-- A cell is visited or a formula is read, with room for so many cells below those in progress. -/
inductive Moment where
  | visit (room : Nat) (trail : Trail) (cell : Address) (progress : Progress)
  | read (room : Nat) (trail : Trail) (formula : Formula) (progress : Progress)

namespace Moment

def trail : Moment → Trail
  | visit _ trail _ _ => trail
  | read _ trail _ _ => trail

def progress : Moment → Progress
  | visit _ _ _ progress => progress
  | read _ _ _ progress => progress

def outcome (sheet : Sheet) : Moment → Outcome
  | visit room trail cell progress => ((sheet.resolve room trail cell).run progress).1
  | read room trail formula progress =>
    ((formula.outcome sheet (sheet.resolve room trail)).run progress).1

end Moment

inductive Itinerary.Passes (reach : Address → Walk Outcome) :
    Itinerary → Progress → Address → Progress → Prop where
  | here {cell : Address} {next : Outcome → Itinerary} {progress : Progress} :
      Passes reach (.visit cell next) progress cell progress
  | onward {first cell : Address} {next : Outcome → Itinerary} {progress between : Progress} :
      Passes reach (next ((reach first).run progress).1) ((reach first).run progress).2 cell between →
      Passes reach (.visit first next) progress cell between

/-- The moment at which an attempt of the query begins. A text at a cell puts the cell in progress. -/
inductive Query.Begins (memo : Memo) : Query → Moment → Prop where
  | stored (cell : Address) :
      Begins memo (.stored cell) (.visit Pass.nestingLimit ∅ cell ⟨memo, none⟩)
  | typed {text : String} {cell : Address} {formula : Formula} {room : Nat}
      (hFormula : Formula.ofText? text = some formula) (hKnown : memo.known? ∅ cell = none)
      (hRoom : room + 1 = Pass.nestingLimit) :
      Begins memo (.typed text cell) (.read room ((∅ : Trail).insert cell) formula ⟨memo, none⟩)
  | loose {text : String} {formula : Formula} (hFormula : Formula.ofText? text = some formula) :
      Begins memo (.loose text) (.read Pass.nestingLimit ∅ formula ⟨memo, none⟩)

/-- The moments while a query is answered with nothing in progress before. -/
inductive Sheet.During (sheet : Sheet) (query : Query) (start : Memo) : Moment → Prop where
  | begin {memo : Memo} {moment : Moment}
      (hRound : sheet.InRound Pass.nestingLimit (query.attempt sheet Pass.nestingLimit ∅) start []
        memo) :
      query.Begins memo moment → sheet.During query start moment
  | resume {cut : Cut} {rest : List Cut} {memo : Memo}
      (hRound : sheet.InRound Pass.nestingLimit (query.attempt sheet Pass.nestingLimit ∅) start
        (cut :: rest) memo) :
      sheet.During query start (.visit Pass.nestingLimit cut.ancestors cut.cell ⟨memo, none⟩)
  | enter {room : Nat} {trail : Trail} {cell : Address} {formula : Formula} {memo : Memo}
      (hKnown : memo.known? trail cell = none) (hFormula : sheet.formula? cell = some formula) :
      sheet.During query start (.visit (room + 1) trail cell ⟨memo, none⟩) →
      sheet.During query start (.read room (trail.insert cell) formula ⟨memo, none⟩)
  | pass {room : Nat} {trail : Trail} {formula : Formula} {progress between : Progress}
      {cell : Address}
      (hPasses : (formula.itinerary sheet).Passes (sheet.resolve room trail) progress cell between) :
      sheet.During query start (.read room trail formula progress) →
      sheet.During query start (.visit room trail cell between)

def Round.memo : Round → Memo
  | answered _ memo => memo
  | waiting _ memo => memo

structure Query.AttemptsKeep (sheet : Sheet) (query : Query) (start : Memo) (I : Memo → Prop) :
    Prop where
  resolve : ∀ room trail cell (progress : Progress),
    sheet.During query start (.visit room trail cell progress) → I progress.memo →
      I ((sheet.resolve room trail cell).run progress).2.memo
  attempt : ∀ memo,
    sheet.InRound Pass.nestingLimit (query.attempt sheet Pass.nestingLimit ∅) start [] memo →
      I memo → I ((query.attempt sheet Pass.nestingLimit ∅).run ⟨memo, none⟩).2.memo

theorem Itinerary.Passes.keeps {I : Memo → Prop} {reach : Address → Walk Outcome}
    {itinerary : Itinerary} {progress between : Progress} {cell : Address}
    (h : itinerary.Passes reach progress cell between)
    (hReach : ∀ other (between : Progress), itinerary.Passes reach progress other between →
      I between.memo → I ((reach other).run between).2.memo) (hProgress : I progress.memo) :
    I between.memo := by
  induction h with
  | here => exact hProgress
  | onward _ ih =>
    exact ih (fun other between hPasses => hReach other between (.onward hPasses))
      (hReach _ _ .here hProgress)

namespace Sheet

variable {sheet : Sheet} {query : Query} {start memo : Memo} {cuts : List Cut} {I : Memo → Prop}

theorem memo_round_nil (room : Nat) (attempt : Walk Outcome) (memo : Memo) :
    (sheet.round room attempt [] memo).memo = (attempt.run ⟨memo, none⟩).2.memo := by
  rcases hRun : attempt.run ⟨memo, none⟩ with ⟨outcome, after, cut?⟩
  rw [round, hRun]
  cases cut? <;> rfl

theorem memo_round_cons (room : Nat) (attempt : Walk Outcome) (cut : Cut) (rest : List Cut)
    (memo : Memo) : (sheet.round room attempt (cut :: rest) memo).memo =
      ((sheet.resolve room cut.ancestors cut.cell).run ⟨memo, none⟩).2.memo := by
  rcases hRun : (sheet.resolve room cut.ancestors cut.cell).run ⟨memo, none⟩
    with ⟨outcome, after, cut?⟩
  rw [round, hRun]
  cases cut? <;> rfl

theorem InRound.round_keeps
    (h : sheet.InRound Pass.nestingLimit (query.attempt sheet Pass.nestingLimit ∅) start cuts memo)
    (hKeep : query.AttemptsKeep sheet start I) (hMemo : I memo) :
    I (sheet.round Pass.nestingLimit (query.attempt sheet Pass.nestingLimit ∅) cuts memo).memo := by
  cases cuts with
  | nil =>
    rw [memo_round_nil]
    exact hKeep.attempt memo h hMemo
  | cons cut rest =>
    rw [memo_round_cons]
    exact hKeep.resolve _ _ _ ⟨memo, none⟩ (.resume h) hMemo

theorem InRound.keeps
    (h : sheet.InRound Pass.nestingLimit (query.attempt sheet Pass.nestingLimit ∅) start cuts memo)
    (hKeep : query.AttemptsKeep sheet start I) (hStart : I start) : I memo := by
  induction h with
  | first => exact hStart
  | next hBefore hRound ih =>
    have hAfter := hBefore.round_keeps hKeep ih
    rwa [hRound] at hAfter

theorem InRound.settleWithin_keeps
    (h : sheet.InRound Pass.nestingLimit (query.attempt sheet Pass.nestingLimit ∅) start cuts memo)
    (hKeep : query.AttemptsKeep sheet start I) (hMemo : I memo) (rounds : Nat) {value : Value}
    {after : Memo} (hSettle : sheet.settleWithin Pass.nestingLimit
      (query.attempt sheet Pass.nestingLimit ∅) rounds cuts memo = some (value, after)) :
    I after := by
  induction rounds generalizing cuts memo with
  | zero => cases hSettle
  | succ rounds ih =>
    have hAfter := h.round_keeps hKeep hMemo
    rw [settleWithin] at hSettle
    split at hSettle
    · rename_i hRound
      cases hSettle
      rwa [hRound] at hAfter
    · rename_i hRound
      rw [hRound] at hAfter
      exact ih (.next h hRound) hAfter hSettle

theorem During.keeps {moment : Moment} (h : sheet.During query start moment)
    (hKeep : query.AttemptsKeep sheet start I) (hStart : I start) : I moment.progress.memo := by
  induction h with
  | begin hRound hBegins =>
    have hMemo := hRound.keeps hKeep hStart
    cases hBegins <;> exact hMemo
  | resume hRound => exact hRound.keeps hKeep hStart
  | enter _ _ _ ih => exact ih
  | pass hPasses hRead ih =>
    exact hPasses.keeps (fun _ _ hOther => hKeep.resolve _ _ _ _ (.pass hOther hRead)) ih

end Sheet

theorem Query.AttemptsKeep.answerFully {sheet : Sheet} {query : Query} {start : Memo}
    {I : Memo → Prop} (h : query.AttemptsKeep sheet start I) (hStart : I start) :
    I ((query.answerFully sheet ∅).run start).2 :=
  Sheet.InRound.first.settleWithin_keeps h hStart sheet.roundBound
    (sheet.settleWithin_roundBound 255 ∅ query start)

def Memo.KeptIn (memo later : Memo) : Prop :=
  ∀ cell outcome, memo.get? cell = some outcome → later.get? cell = some outcome

def Memo.Lacks (memo : Memo) (trail : Trail) : Prop :=
  ∀ cell ∈ trail, memo.get? cell = none

structure Moment.Since (start : Memo) (moment : Moment) : Prop where
  keeps : start.KeptIn moment.progress.memo
  lacks : start.Lacks moment.trail

namespace Memo

variable {memo later : Memo} {trail : Trail} {cell : Address}

theorem KeptIn.refl (memo : Memo) : memo.KeptIn memo := fun _ _ h => h

theorem KeptIn.get?_eq_none (h : memo.KeptIn later) (hLater : later.get? cell = none) :
    memo.get? cell = none := by
  cases hMemo : memo.get? cell with
  | none => rfl
  | some outcome =>
    rw [h cell outcome hMemo] at hLater
    cases hLater

theorem Lacks.empty (memo : Memo) : memo.Lacks ∅ :=
  fun _ hCell => absurd hCell Std.ExtTreeSet.not_mem_empty

theorem Lacks.insert (h : memo.Lacks trail) (hCell : memo.get? cell = none) :
    memo.Lacks (trail.insert cell) := by
  intro other hOther
  rcases Sheet.mem_insert_iff.mp hOther with rfl | hMem
  · exact hCell
  · exact h other hMem

theorem Lacks.ancestors {sheet : Sheet} {between after : Memo} {cut : Cut} (h : memo.Lacks trail)
    (hShort : CutShort sheet trail between after cut) (hAfter : memo.KeptIn after) :
    memo.Lacks cut.ancestors := by
  intro cell hCell
  by_cases hMem : cell ∈ trail
  · exact h cell hMem
  · -- the attempt had the cell in progress when it was cut, so it has not stored it
    exact hAfter.get?_eq_none (hShort.unfinished cell hCell hMem)

end Memo

namespace Sheet

variable {sheet : Sheet} {query : Query} {start memo : Memo}

theorem resolve_keptIn (sheet : Sheet) (room : Nat) (trail : Trail) (cell : Address)
    (progress : Progress) :
    progress.memo.KeptIn ((sheet.resolve room trail cell).run progress).2.memo := by
  intro other outcome hOther
  obtain ⟨memo, cut?⟩ := progress
  cases cut? with
  | some cut => rwa [resolve_of_cut rfl]
  | none =>
    have hFollows := sheet.resolve_follows room trail cell memo
    cases hCut : ((sheet.resolve room trail cell).run ⟨memo, none⟩).2.cut with
    | some cut => exact (hFollows.cuts cut hCut).grows.keeps other outcome hOther
    | none =>
      have hGrows := (sheet.resolveFully_steady trail cell memo).grows
      rw [hFollows.finishes hCut] at hGrows
      exact hGrows.keeps other outcome hOther

theorem attempt_keptIn (sheet : Sheet) (query : Query) (memo : Memo) :
    memo.KeptIn ((query.attempt sheet Pass.nestingLimit ∅).run ⟨memo, none⟩).2.memo := by
  intro cell outcome hCell
  have hFollows := query.attempt_follows sheet ∅ 255 memo
  cases hCut : ((query.attempt sheet Pass.nestingLimit ∅).run ⟨memo, none⟩).2.cut with
  | some cut => exact (hFollows.cuts cut hCut).grows.keeps cell outcome hCell
  | none =>
    have hExtends := query.answerFully_extends sheet memo
    rw [hFollows.finishes hCut] at hExtends
    exact hExtends.keeps cell outcome hCell

theorem attemptsKeep_keptIn (sheet : Sheet) (query : Query) (start : Memo) :
    query.AttemptsKeep sheet start start.KeptIn where
  resolve room trail cell progress _ hStart other outcome hOther :=
    sheet.resolve_keptIn room trail cell progress other outcome (hStart other outcome hOther)
  attempt memo _ hStart cell outcome hCell :=
    sheet.attempt_keptIn query memo cell outcome (hStart cell outcome hCell)

theorem InRound.round_lacks {cuts later : List Cut} {after : Memo}
    (h : sheet.InRound Pass.nestingLimit (query.attempt sheet Pass.nestingLimit ∅) start cuts memo)
    (hCuts : ∀ cut ∈ cuts, start.Lacks cut.ancestors)
    (hRound : sheet.round Pass.nestingLimit (query.attempt sheet Pass.nestingLimit ∅) cuts memo =
      .waiting later after) : ∀ cut ∈ later, start.Lacks cut.ancestors := by
  have hKeep := attemptsKeep_keptIn sheet query start
  have hAfter := h.round_keeps hKeep (h.keeps hKeep (.refl start))
  rw [hRound] at hAfter
  cases cuts with
  | nil =>
    have hFollows : Follows sheet ∅ (query.attempt sheet Pass.nestingLimit ∅) _ memo :=
      query.attempt_follows sheet ∅ 255 memo
    rcases hRun : (query.attempt sheet Pass.nestingLimit ∅).run ⟨memo, none⟩
      with ⟨outcome, between, cut?⟩
    rw [round, hRun] at hRound
    cases cut? with
    | none => cases hRound
    | some cut =>
      cases hRound
      have hShort := hFollows.cuts cut (by rw [hRun])
      rw [hRun] at hShort
      exact List.forall_mem_singleton.mpr ((Memo.Lacks.empty start).ancestors hShort hAfter)
  | cons cut rest =>
    have hFollows := sheet.resolve_follows Pass.nestingLimit cut.ancestors cut.cell memo
    obtain ⟨hCut, hRest⟩ := List.forall_mem_cons.mp hCuts
    rcases hRun : (sheet.resolve Pass.nestingLimit cut.ancestors cut.cell).run ⟨memo, none⟩
      with ⟨outcome, between, cut?⟩
    rw [round, hRun] at hRound
    cases cut? with
    | none =>
      cases hRound
      exact hRest
    | some deeper =>
      cases hRound
      have hShort := hFollows.cuts deeper (by rw [hRun])
      rw [hRun] at hShort
      exact List.forall_mem_cons.mpr ⟨hCut.ancestors hShort hAfter, hCuts⟩

theorem InRound.lacks {cuts : List Cut}
    (h : sheet.InRound Pass.nestingLimit (query.attempt sheet Pass.nestingLimit ∅) start cuts memo) :
    ∀ cut ∈ cuts, start.Lacks cut.ancestors := by
  induction h with
  | first => exact fun _ hCut => nomatch hCut
  | next hBefore hRound ih => exact hBefore.round_lacks ih hRound

theorem During.lacks {moment : Moment} (h : sheet.During query start moment) :
    start.Lacks moment.trail := by
  have hKeep := attemptsKeep_keptIn sheet query start
  -- a cell joins the trail only where the memo does not know it
  induction h with
  | begin hRound hBegins =>
    have hMemo := hRound.keeps hKeep (.refl start)
    cases hBegins with
    | stored cell => exact .empty start
    | typed _ hKnown _ =>
      exact .insert (.empty start) (hMemo.get?_eq_none (Memo.get?_of_known?_eq_none hKnown))
    | loose _ => exact .empty start
  | resume hRound => exact hRound.lacks _ List.mem_cons_self
  | enter hKnown _ hVisit ih =>
    have hMemo : start.KeptIn _ := hVisit.keeps hKeep (.refl start)
    exact ih.insert (hMemo.get?_eq_none (Memo.get?_of_known?_eq_none hKnown))
  | pass _ _ ih => exact ih

theorem During.since {moment : Moment} (h : sheet.During query start moment) :
    moment.Since start :=
  ⟨h.keeps (attemptsKeep_keptIn sheet query start) (.refl start), h.lacks⟩

end Sheet

/-- Whatever is stored was stored before the query, or was in progress at a moment of it. -/
def Sheet.Accounts (sheet : Sheet) (query : Query) (start memo : Memo) : Prop :=
  ∀ cell, (memo.get? cell).isSome → (start.get? cell).isSome ∨
    ∃ moment, sheet.During query start moment ∧ cell ∈ moment.trail

theorem Itinerary.follow_keeps_on_way {I : Memo → Prop} {reach : Address → Walk Outcome}
    (itinerary : Itinerary) {progress : Progress}
    (hReach : ∀ cell (between : Progress), itinerary.Passes reach progress cell between →
      I between.memo → I ((reach cell).run between).2.memo) (hProgress : I progress.memo) :
    I ((itinerary.follow reach).run progress).2.memo := by
  induction itinerary generalizing progress with
  | arrive outcome => exact hProgress
  | visit cell next ih =>
    rw [run_visit]
    exact ih _ (fun other between hPasses => hReach other between (.onward hPasses))
      (hReach cell progress .here hProgress)

namespace Sheet

variable {sheet : Sheet} {query : Query} {start memo : Memo} {room : Nat} {trail : Trail}
  {cell : Address} {formula : Formula}

theorem Accounts.insert (h : sheet.Accounts query start memo) {moment : Moment}
    (hMoment : sheet.During query start moment) (hCell : cell ∈ moment.trail) (outcome : Outcome) :
    sheet.Accounts query start (memo.insert cell outcome) := by
  intro other hOther
  rw [Memo.get?_insert] at hOther
  split at hOther
  · rename_i hSame
    exact .inr ⟨moment, hMoment, hSame ▸ hCell⟩
  · exact h other hOther

theorem compute_accounts
    (hRead : sheet.During query start (.read room (trail.insert cell) formula ⟨memo, none⟩))
    (hVisits : ∀ other (between : Progress),
      sheet.During query start (.visit room (trail.insert cell) other between) →
      sheet.Accounts query start between.memo → sheet.Accounts query start
        ((sheet.resolve room (trail.insert cell) other).run between).2.memo)
    (hMemo : sheet.Accounts query start memo) :
    sheet.Accounts query start ((sheet.compute trail cell formula
      (some (sheet.resolve room (trail.insert cell)))).run ⟨memo, none⟩).2.memo := by
  have hBody : sheet.Accounts query start (((formula.itinerary sheet).follow
      (sheet.resolve room (trail.insert cell))).run ⟨memo, none⟩).2.memo :=
    Itinerary.follow_keeps_on_way _
      (fun other between hPasses => hVisits other between (.pass hPasses hRead)) hMemo
  rw [run_compute_some]
  rcases hRun : ((formula.itinerary sheet).follow (sheet.resolve room (trail.insert cell))).run
    ⟨memo, none⟩ with ⟨outcome, after, cut?⟩
  rw [hRun] at hBody
  cases cut? with
  | some cut => exact hBody
  | none =>
    -- the cell that is stored was in progress when its formula was read
    exact Accounts.insert hBody hRead (mem_insert_self trail cell) _

/-- A visit leaves the memo alone unless the cell is computed, with room for those that it reads. -/
theorem resolve_cases (sheet : Sheet) (room : Nat) (trail : Trail) (cell : Address)
    (progress : Progress) :
    ((sheet.resolve room trail cell).run progress).2.memo = progress.memo ∨
      ∃ less memo formula, room = less + 1 ∧ progress = ⟨memo, none⟩ ∧
        memo.known? trail cell = none ∧ sheet.formula? cell = some formula ∧
        (sheet.resolve room trail cell).run progress = (sheet.compute trail cell formula
          (some (sheet.resolve less (trail.insert cell)))).run ⟨memo, none⟩ := by
  obtain ⟨memo, cut?⟩ := progress
  cases cut? with
  | some cut => exact .inl (congrArg Progress.memo (resolve_of_cut rfl room))
  | none =>
    rw [run_resolve]
    cases hKnown : memo.known? trail cell with
    | some outcome => exact .inl rfl
    | none =>
      cases sheet.formula? cell with
      | none => exact .inl rfl
      | some formula =>
        cases room with
        | zero => exact .inl rfl
        | succ less => exact .inr ⟨less, memo, formula, rfl, rfl, hKnown, rfl, rfl⟩

theorem resolve_accounts (room : Nat) : ∀ trail cell (progress : Progress),
    sheet.During query start (.visit room trail cell progress) →
      sheet.Accounts query start progress.memo →
        sheet.Accounts query start ((sheet.resolve room trail cell).run progress).2.memo := by
  induction room with
  | zero =>
    intro trail cell progress _ hProgress
    obtain hSame | ⟨_, _, _, hRoom, _⟩ := sheet.resolve_cases 0 trail cell progress
    · rwa [hSame]
    · cases hRoom
  | succ room ih =>
    intro trail cell progress hVisit hProgress
    obtain hSame | ⟨_, memo, formula, ⟨⟩, rfl, hKnown, hFormula, hRun⟩ :=
      sheet.resolve_cases (room + 1) trail cell progress
    · rwa [hSame]
    · rw [hRun]
      exact compute_accounts (.enter hKnown hFormula hVisit) (ih _) hProgress

theorem attempt_accounts
    (hRound : sheet.InRound Pass.nestingLimit (query.attempt sheet Pass.nestingLimit ∅) start [] memo)
    (hMemo : sheet.Accounts query start memo) : sheet.Accounts query start
      ((query.attempt sheet Pass.nestingLimit ∅).run ⟨memo, none⟩).2.memo := by
  cases query with
  | stored cell =>
    exact resolve_accounts Pass.nestingLimit ∅ cell ⟨memo, none⟩ (.begin hRound (.stored cell)) hMemo
  | typed text cell =>
    cases hText : Formula.ofText? text with
    | none =>
      simp only [Query.attempt, hText]
      exact hMemo
    | some formula =>
      rw [Query.run_attempt_typed hText]
      split
      · exact hMemo
      · rename_i hKnown
        exact compute_accounts (.begin hRound (.typed hText hKnown rfl)) (resolve_accounts _ _) hMemo
  | loose text =>
    cases hText : Formula.ofText? text with
    | none =>
      simp only [Query.attempt, hText]
      exact hMemo
    | some formula =>
      simp only [Query.attempt, hText, Formula.outcome_eq_follow]
      exact Itinerary.follow_keeps_on_way _ (fun other between hPasses =>
        resolve_accounts _ _ other between (.pass hPasses (.begin hRound (.loose hText)))) hMemo

theorem answerFully_accounts (sheet : Sheet) (query : Query) (start : Memo) :
    sheet.Accounts query start ((query.answerFully sheet ∅).run start).2 := by
  have hKeep : query.AttemptsKeep sheet start (sheet.Accounts query start) :=
    ⟨resolve_accounts, fun _ => attempt_accounts⟩
  exact hKeep.answerFully fun cell hCell => .inl hCell

end Sheet
end FormulaGrid
