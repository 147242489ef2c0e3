import FormulaGrid.Proofs.Evaluation.Moments
import FormulaGrid.Proofs.Evaluation.Roots

/-!
# Loops that are over

A visit finds a loop open only while the root is in progress, and it comes to the failure of the loop then.
Once nothing is in progress every root is stored. It is not in progress again until the memo is forgotten,
and the cells that were stored with it are on no open loop any more. So it is after requests of any kind,
also when values are put into the memo between them.
-/

set_option autoImplicit false

namespace FormulaGrid

def Outcome.FailsOn (trail : Trail) (outcome : Outcome) : Prop :=
  ∀ root, outcome.root = some root → outcome.value = .fault .circular ∧ root ∈ trail

def Memo.LoopsFail (memo : Memo) : Prop :=
  ∀ cell outcome root, memo.get? cell = some outcome → outcome.root = some root →
    outcome.value = .fault .circular

def Walk.FailsOn (trail : Trail) (walk : Walk Outcome) : Prop :=
  ∀ progress : Progress, progress.memo.LoopsFail →
    (walk.run progress).1.FailsOn trail ∧ (walk.run progress).2.memo.LoopsFail

theorem Outcome.failsOn_settled (trail : Trail) (value : Value) :
    (settled value).FailsOn trail := by
  rintro root ⟨⟩

theorem Outcome.FailsOn.closeLoop {trail : Trail} {cell : Address} {outcome : Outcome}
    (h : outcome.FailsOn (trail.insert cell)) : (outcome.closeLoop cell).FailsOn trail := by
  intro root hRoot
  obtain ⟨hRoot, hCell⟩ := Outcome.root_closeLoop.mp hRoot
  obtain ⟨hValue, hMem⟩ := h root hRoot
  rw [Outcome.value_closeLoop]
  exact ⟨hValue, (Sheet.mem_insert_iff.mp hMem).resolve_left hCell⟩

namespace Memo.LoopsFail

variable {memo : Memo} {trail : Trail} {cell : Address} {outcome : Outcome}

theorem empty : Memo.empty.LoopsFail := by
  intro cell outcome root h
  rw [Memo.get?_empty] at h
  cases h

theorem insert (h : memo.LoopsFail) (hOutcome : outcome.FailsOn trail) (cell : Address) :
    (memo.insert cell outcome).LoopsFail := by
  intro other stored root hStored hRoot
  rw [Memo.get?_insert] at hStored
  split at hStored
  · cases hStored
    exact (hOutcome root hRoot).1
  · exact h other stored root hStored hRoot

theorem store {progress : Progress} (h : progress.memo.LoopsFail) (hOutcome : outcome.FailsOn trail)
    (cell : Address) : (progress.store cell outcome).memo.LoopsFail := by
  obtain ⟨memo, cut?⟩ := progress
  cases cut? with
  | none => exact insert h hOutcome cell
  | some cut => exact h

theorem known? (h : memo.LoopsFail) (hKnown : memo.known? trail cell = some outcome) :
    outcome.FailsOn trail := by
  intro root hRoot
  refine ⟨?_, Sheet.root_mem_of_known? hKnown hRoot⟩
  rw [Memo.known?] at hKnown
  split at hKnown
  · cases hKnown
    rfl
  · obtain ⟨stored, hStored, rfl⟩ := Option.map_eq_some_iff.mp hKnown
    exact h cell stored root hStored (Outcome.root_onTrail.mp hRoot).1

end Memo.LoopsFail

namespace Sheet

variable {sheet : Sheet} {trail : Trail} {cell : Address}

theorem follow_failsOn (sheet : Sheet) {reach : Address → Walk Outcome}
    (hReach : ∀ other, Walk.FailsOn trail (reach other)) (formula : Formula) :
    Walk.FailsOn trail ((formula.itinerary sheet).follow reach) := by
  intro progress hProgress
  obtain ⟨hEnd, hAfter⟩ := (formula.itinerary_ends sheet fun _ => Outcome.FailsOn trail).follow
    (I := fun progress : Progress => progress.memo.LoopsFail)
    (fun other _ progress hProgress => hReach other progress hProgress) progress hProgress
  refine ⟨?_, hAfter⟩
  rcases hEnd with ⟨value, -, hValue⟩ | ⟨_, _, _, _, hOpen, _⟩
  · rw [hValue]
    exact Outcome.failsOn_settled trail value
  · exact hOpen

theorem compute_failsOn {room : Nat} (hDeeper : ∀ deeper, sheet.deeper? room trail cell = some deeper →
      ∀ other, Walk.FailsOn (trail.insert cell) (deeper other)) (formula : Formula) :
    Walk.FailsOn trail (sheet.compute trail cell formula (sheet.deeper? room trail cell)) := by
  rintro ⟨memo, cut?⟩ hMemo
  cases cut? with
  | some cut =>
    rw [run_compute_of_cut rfl]
    exact ⟨Outcome.failsOn_settled trail _, hMemo⟩
  | none =>
    cases hRoom : sheet.deeper? room trail cell with
    | none =>
      rw [run_compute_none]
      exact ⟨Outcome.failsOn_settled trail _, hMemo⟩
    | some deeper =>
      obtain ⟨hOutcome, hAfter⟩ := sheet.follow_failsOn (hDeeper deeper hRoom) formula ⟨memo, none⟩
        hMemo
      rw [run_compute_some]
      exact ⟨hOutcome.closeLoop, hAfter.store hOutcome.closeLoop cell⟩

theorem resolve_failsOn_of_deeper {room : Nat}
    (hDeeper : ∀ deeper, sheet.deeper? room trail cell = some deeper →
      ∀ other, Walk.FailsOn (trail.insert cell) (deeper other)) :
    Walk.FailsOn trail (sheet.resolve room trail cell) := by
  intro progress hProgress
  rw [run_resolve]
  cases hKnown : progress.memo.known? trail cell with
  | some outcome => exact ⟨hProgress.known? hKnown, hProgress⟩
  | none =>
    cases sheet.formula? cell with
    | none => exact ⟨Outcome.failsOn_settled trail _, hProgress⟩
    | some formula => exact compute_failsOn hDeeper formula progress hProgress

theorem resolve_failsOn (sheet : Sheet) (room : Nat) : ∀ trail cell,
    Walk.FailsOn trail (sheet.resolve room trail cell) := by
  induction room with
  | zero => exact fun trail cell => resolve_failsOn_of_deeper fun _ h => nomatch h
  | succ room ih =>
    intro trail cell
    apply resolve_failsOn_of_deeper
    rintro _ ⟨⟩ other
    exact ih (trail.insert cell) other

theorem deeper?_failsOn (sheet : Sheet) (room : Nat) (trail : Trail) (cell : Address)
    (deeper : Address → Walk Outcome) (hDeeper : sheet.deeper? room trail cell = some deeper)
    (other : Address) : Walk.FailsOn (trail.insert cell) (deeper other) := by
  cases room with
  | zero => cases hDeeper
  | succ room =>
    cases hDeeper
    exact sheet.resolve_failsOn room (trail.insert cell) other

end Sheet

namespace Query

variable {sheet : Sheet} {query : Query} {start : Memo}

theorem attempt_failsOn (sheet : Sheet) (query : Query) (room : Nat) (trail : Trail) :
    Walk.FailsOn trail (query.attempt sheet room trail) := by
  intro progress hProgress
  cases query with
  | stored cell => exact sheet.resolve_failsOn room trail cell progress hProgress
  | typed text cell =>
    cases hText : Formula.ofText? text with
    | none =>
      simp only [attempt, hText]
      exact ⟨Outcome.failsOn_settled trail _, hProgress⟩
    | some formula =>
      rw [run_attempt_typed hText]
      cases hKnown : progress.memo.known? trail cell with
      | some outcome => exact ⟨hProgress.known? hKnown, hProgress⟩
      | none =>
        exact Sheet.compute_failsOn (sheet.deeper?_failsOn room trail cell) formula progress
          hProgress
  | loose text =>
    cases hText : Formula.ofText? text with
    | none =>
      simp only [attempt, hText]
      exact ⟨Outcome.failsOn_settled trail _, hProgress⟩
    | some formula =>
      simp only [attempt, hText, Formula.outcome_eq_follow]
      exact sheet.follow_failsOn (sheet.resolve_failsOn room trail) formula progress hProgress

theorem attemptsKeep_loopsFail (sheet : Sheet) (query : Query) (start : Memo) :
    query.AttemptsKeep sheet start Memo.LoopsFail where
  resolve room trail cell progress _ hProgress :=
    (sheet.resolve_failsOn room trail cell progress hProgress).2
  attempt memo _ hMemo := (query.attempt_failsOn sheet Pass.nestingLimit ∅ ⟨memo, none⟩ hMemo).2

end Query

theorem Sheet.During.failsOn {sheet : Sheet} {query : Query} {start : Memo} {moment : Moment}
    (hStart : start.LoopsFail) (h : sheet.During query start moment) :
    (moment.outcome sheet).FailsOn moment.trail := by
  have hMemo := h.keeps (query.attemptsKeep_loopsFail sheet start) hStart
  cases moment with
  | visit room trail cell progress =>
    exact (sheet.resolve_failsOn room trail cell progress hMemo).1
  | read room trail formula progress =>
    rw [Moment.outcome, Formula.outcome_eq_follow]
    exact (sheet.follow_failsOn (sheet.resolve_failsOn room trail) formula progress hMemo).1

structure Memo.LoopsOver (memo : Memo) : Prop where
  fails : memo.LoopsFail
  rooted : memo.Rooted ∅

namespace Memo.LoopsOver

variable {memo : Memo}

theorem empty : Memo.empty.LoopsOver := ⟨.empty, .empty ∅⟩

theorem isSome_root (h : memo.LoopsOver) {cell root : Address} {outcome : Outcome}
    (hStored : memo.get? cell = some outcome) (hRoot : outcome.root = some root) :
    (memo.get? root).isSome :=
  (h.rooted cell outcome root hStored hRoot).resolve_left Std.ExtTreeSet.not_mem_empty

theorem insert (h : memo.LoopsOver) (cell : Address) (value : Value) :
    (memo.insert cell (.settled value)).LoopsOver where
  fails := h.fails.insert (Outcome.failsOn_settled ∅ value) cell
  rooted := by
    intro other stored root hStored hRoot
    rw [Memo.get?_insert] at hStored ⊢
    split at hStored
    · cases hStored
      cases hRoot
    · split
      · exact .inr rfl
      · exact .inr (h.isSome_root hStored hRoot)

theorem after (h : memo.LoopsOver) (sheet : Sheet) (queries : List Query) :
    (memo.after sheet queries).LoopsOver := by
  induction queries generalizing memo with
  | nil => exact h
  | cons query queries ih =>
    exact ih ⟨(query.attemptsKeep_loopsFail sheet memo).answerFully h.fails,
      query.answerFully_rooted sheet h.rooted⟩

end Memo.LoopsOver

namespace Moment.Since

variable {start : Memo} {moment : Moment} {cell : Address} {outcome : Outcome}

theorem not_mem (h : moment.Since start) (hStored : start.get? cell = some outcome) :
    cell ∉ moment.trail := by
  intro hMem
  rw [h.lacks cell hMem] at hStored
  cases hStored

theorem known?_eq (h : moment.Since start) (hOver : start.LoopsOver)
    (hStored : start.get? cell = some outcome) :
    moment.progress.memo.known? moment.trail cell = some (.settled outcome.value) := by
  have hRoot : (outcome.onTrail moment.trail).root = none := by
    rw [Option.eq_none_iff_forall_ne_some]
    intro root hRoot
    obtain ⟨hRoot, hMem⟩ := Outcome.root_onTrail.mp hRoot
    obtain ⟨stored, hStored⟩ := Option.isSome_iff_exists.mp (hOver.isSome_root hStored hRoot)
    exact h.not_mem hStored hMem
  rw [Memo.known?, if_neg (h.not_mem hStored), h.keeps cell outcome hStored, Option.map_some,
    Outcome.settled, ← hRoot]
  rfl

end Moment.Since

/-- What a pass may come through: requests, and between them changes to its memo. -/
inductive Event where
  | request (request : Request)
  | remember (cell : Address) (value : Value)
  | forget

def Pass.meet (pass : Pass) : Event → Pass
  | .request request => request.run pass
  | .remember cell value => pass.remember cell value
  | .forget => pass.forget

def Pass.through (events : List Event) (pass : Pass) : Pass :=
  events.foldl meet pass

def Pass.During (pass : Pass) (request : Request) (moment : Moment) : Prop :=
  ∃ before query after, request.queries pass.sheet = before ++ query :: after ∧
    pass.sheet.During query (pass.serve (before.map .ask)).memo moment

namespace Memo

variable {sheet : Sheet} {memo : Memo} {cell : Address}

def meet (sheet : Sheet) (memo : Memo) : Event → Memo
  | .request request => memo.after sheet (request.queries sheet)
  | .remember cell value => memo.insert cell (.settled value)
  | .forget => .empty

def through (sheet : Sheet) (events : List Event) (memo : Memo) : Memo :=
  events.foldl (meet sheet) memo

theorem LoopsOver.through (h : memo.LoopsOver) (sheet : Sheet) (events : List Event) :
    (memo.through sheet events).LoopsOver := by
  induction events generalizing memo with
  | nil => exact h
  | cons event events ih =>
    apply ih
    cases event with
    | request request => exact h.after sheet (request.queries sheet)
    | remember cell value => exact h.insert cell value
    | forget => exact .empty

theorem isSome_through {events : List Event} (hEvents : .forget ∉ events)
    (h : (memo.get? cell).isSome) : ((memo.through sheet events).get? cell).isSome := by
  induction events generalizing memo with
  | nil => exact h
  | cons event events ih =>
    obtain ⟨hEvent, hEvents⟩ := List.ne_and_not_mem_of_not_mem_cons hEvents
    apply ih hEvents
    cases event with
    | request request =>
      obtain ⟨outcome, hOutcome⟩ := Option.isSome_iff_exists.mp h
      exact Option.isSome_of_eq_some (after_keeps (request.queries sheet) hOutcome)
    | remember other value =>
      rw [meet, get?_insert]
      split
      · rfl
      · exact h
    | forget => exact absurd rfl hEvent

theorem exists_query_of_after (queries : List Query) (hNone : memo.get? cell = none)
    (hSome : ((memo.after sheet queries).get? cell).isSome) :
    ∃ before query after, queries = before ++ query :: after ∧
      (memo.after sheet before).get? cell = none ∧
      (((query.answerFully sheet ∅).run (memo.after sheet before)).2.get? cell).isSome := by
  induction queries generalizing memo with
  | nil =>
    rw [after, List.foldl_nil, hNone] at hSome
    cases hSome
  | cons query queries ih =>
    cases hNext : ((query.answerFully sheet ∅).run memo).2.get? cell with
    | some outcome => exact ⟨[], query, queries, rfl, hNone, Option.isSome_of_eq_some hNext⟩
    | none =>
      obtain ⟨before, other, after, rfl, hBefore, hOther⟩ := ih hNext hSome
      exact ⟨query :: before, other, after, rfl, hBefore, hOther⟩

end Memo

namespace Pass

variable {sheet : Sheet} {memo : Memo}

theorem through_eq (events : List Event) (sheet : Sheet) (memo : Memo) :
    through events ⟨sheet, memo, ∅⟩ = ⟨sheet, memo.through sheet events, ∅⟩ := by
  induction events generalizing memo with
  | nil => rfl
  | cons event events ih =>
    rw [through, List.foldl_cons]
    cases event with
    | request request =>
      rw [meet, request.run_eq]
      exact ih _
    | remember cell value => exact ih _
    | forget => exact ih _

theorem serve_asks (queries : List Query) (sheet : Sheet) (memo : Memo) :
    (serve (queries.map .ask) ⟨sheet, memo, ∅⟩).memo = memo.after sheet queries := by
  simp [serve_eq, List.flatMap_map, Request.queries]

theorem During.query {request : Request} {moment : Moment}
    (h : (⟨sheet, memo, ∅⟩ : Pass).During request moment) :
    ∃ query queries, sheet.During query (memo.after sheet queries) moment := by
  obtain ⟨before, query, after, -, hMoment⟩ := h
  rw [serve_asks] at hMoment
  exact ⟨query, before, hMoment⟩

/-- What a pass has stored when all its loops are over is not in progress while it serves a request, and
the memo answers for it. -/
theorem During.of_stored {request : Request} {moment : Moment} {cell : Address} {outcome : Outcome}
    (h : (⟨sheet, memo, ∅⟩ : Pass).During request moment) (hOver : memo.LoopsOver)
    (hStored : memo.get? cell = some outcome) : cell ∉ moment.trail ∧
      moment.progress.memo.known? moment.trail cell = some (.settled outcome.value) := by
  obtain ⟨query, queries, hMoment⟩ := h.query
  have hStays : (memo.after sheet queries).get? cell = some outcome :=
    Memo.after_keeps queries hStored
  exact ⟨hMoment.since.not_mem hStays,
    hMoment.since.known?_eq (hOver.after sheet queries) hStays⟩

theorem exists_during_of_run {request : Request} {cell : Address} (hNone : memo.get? cell = none)
    (hSome : ((request.run ⟨sheet, memo, ∅⟩).memo.get? cell).isSome) :
    ∃ moment, (⟨sheet, memo, ∅⟩ : Pass).During request moment ∧ cell ∈ moment.trail := by
  rw [request.run_eq] at hSome
  obtain ⟨before, query, after, hQueries, hBefore, hStored⟩ :=
    Memo.exists_query_of_after _ hNone hSome
  rcases sheet.answerFully_accounts query _ cell hStored with hStart | ⟨moment, hMoment, hCell⟩
  · rw [hBefore] at hStart
    cases hStart
  · refine ⟨moment, ⟨before, query, after, hQueries, ?_⟩, hCell⟩
    rwa [serve_asks]

structure LoopsOver (pass : Pass) : Prop where
  stored : ∀ cell outcome root, pass.memo.get? cell = some outcome → outcome.root = some root →
    outcome.value = .fault .circular ∧ (pass.memo.get? root).isSome
  /-- Until the memo is forgotten the root is not in progress any more. The memo answers for the cell
  with the value that it has when the request is made, on no open loop. -/
  later : ∀ cell outcome root, pass.memo.get? cell = some outcome → outcome.root = some root →
    ∀ events, .forget ∉ events → ∀ request moment, (pass.through events).During request moment →
      root ∉ moment.trail ∧ ∃ value, (pass.through events).memo.value? cell = some value ∧
        moment.progress.memo.known? moment.trail cell = some (.settled value)
  opened : ∀ request moment root, pass.During request moment →
    (moment.outcome pass.sheet).root = some root →
      (moment.outcome pass.sheet).value = .fault .circular ∧ root ∈ moment.trail
  /-- The moments of a request miss no cell that it computes for the memo. -/
  entered : ∀ request cell, pass.memo.get? cell = none →
    ((request.run pass).memo.get? cell).isSome →
      ∃ moment, pass.During request moment ∧ cell ∈ moment.trail

/-- No root outlives its loop: whatever a pass has come through, all its loops are over. -/
theorem loopsOver_through (sheet : Sheet) (events : List Event) :
    ((Pass.start sheet).through events).LoopsOver := by
  have hPass : (Pass.start sheet).through events = _ := through_eq events sheet .empty
  have hOver := Memo.LoopsOver.empty.through sheet events
  rw [hPass]
  generalize Memo.empty.through sheet events = memo at hOver
  refine ⟨?_, ?_, ?_, fun _ _ => exists_during_of_run⟩
  · exact fun cell outcome root hStored hRoot =>
      ⟨hOver.fails cell outcome root hStored hRoot, hOver.isSome_root hStored hRoot⟩
  · intro cell outcome root hStored hRoot later hLater request moment hMoment
    rw [through_eq] at hMoment ⊢
    have hOver' := hOver.through sheet later
    obtain ⟨stored, hCell⟩ := Option.isSome_iff_exists.mp
      (Memo.isSome_through hLater (Option.isSome_of_eq_some hStored))
    obtain ⟨storedRoot, hRootCell⟩ := Option.isSome_iff_exists.mp
      (Memo.isSome_through hLater (hOver.isSome_root hStored hRoot))
    exact ⟨(hMoment.of_stored hOver' hRootCell).1, stored.value,
      congrArg (Option.map Outcome.value) hCell, (hMoment.of_stored hOver' hCell).2⟩
  · intro request moment root hMoment hRoot
    obtain ⟨query, queries, hMoment⟩ := hMoment.query
    exact hMoment.failsOn (hOver.after sheet queries).fails root hRoot

/-- The sum hands no open loop on, and the chain that it visited is stored with the sum as its root. -/
example :
    let sheet : Sheet := ⟨[["=SUM(B1:B1)", "=A1+1"]]⟩
    ((start sheet).through [.request (.display ⟨0, 0⟩)]).memo.get? ⟨0, 1⟩ = some (.loop ⟨0, 0⟩) := by
  decide +kernel

end Pass
end FormulaGrid
