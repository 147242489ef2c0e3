import FormulaGrid.Proofs.Evaluation.Rounds

/-!
# The walk on one trail

A machine that walks along references with one trail for all of them. It enters a cell before it
computes it and leaves it afterwards; where a cut is resolved, the ancestors of the cut take the place
of the trail until that is done. How deep an attempt is it finds by counting: the cells of the trail
less those that were in progress when the attempt began. All its calls to compute a cell are recorded.
It halts without a result when its stack is used up or the count is below zero, and neither happens: it
does what the walk does, and its trail is as before in the end.
-/

set_option autoImplicit false

namespace FormulaGrid

structure Call where
  cell : Address
  trail : Trail
  /-- The number of cells that were in progress when the attempt began. -/
  inherited : Nat
  /-- The calls of the attempt that are in progress on the trail, the last one first. -/
  callers : List Address

structure Machine where
  progress : Progress
  trail : Trail
  inherited : Nat
  calls : List Call

namespace Machine

abbrev Run := StateT Machine Option

def idle (memo : Memo) : Machine := ⟨⟨memo, none⟩, ∅, 0, []⟩

def record (cell : Address) (callers : List Address) (machine : Machine) : Machine :=
  { machine with calls := ⟨cell, machine.trail, machine.inherited, callers⟩ :: machine.calls }

def depth? (machine : Machine) : Option Nat :=
  if machine.inherited ≤ machine.trail.size then some (machine.trail.size - machine.inherited)
  else none

def enter (cell : Address) (machine : Machine) : Machine :=
  { machine with trail := machine.trail.insert cell }

def leave (cell : Address) (machine : Machine) : Machine :=
  { machine with trail := machine.trail.erase cell }

def store (cell : Address) (outcome : Outcome) (machine : Machine) : Machine :=
  { machine with progress := machine.progress.store cell outcome }

def cutAt (cell : Address) (machine : Machine) : Machine :=
  { machine with progress := machine.progress.cutAt cell machine.trail }

def compute (sheet : Sheet) (callers : List Address) (cell : Address) (formula : Formula)
    (visit : Address → Run Outcome) : Run Outcome := do
  modify (·.record cell callers)
  if (← get).progress.cut.isSome then return .fault .invalid
  if Pass.nestingLimit ≤ (← (← get).depth?) then
    modify (·.cutAt cell)
    return .fault .invalid
  modify (·.enter cell)
  let outcome ← formula.outcome sheet visit
  modify (·.leave cell)
  modify (·.store cell (outcome.closeLoop cell))
  return outcome.closeLoop cell

/-- The outcome of a cell, on a stack with so many frames left. -/
def resolve (sheet : Sheet) : Nat → List Address → Address → Run Outcome
  | 0, _, _ => failure
  | frames + 1, callers, cell => do
    let machine ← get
    match machine.progress.memo.known? machine.trail cell with
    | some outcome => return outcome
    | none =>
      match sheet.formula? cell with
      | none => return .settled (.text (sheet.text cell))
      | some formula =>
        compute sheet callers cell formula (resolve sheet frames (cell :: callers))

/-- A stack with this many frames has one for each nested computation and one for a last visit. -/
def frames : Nat := Pass.nestingLimit + 1

def attempt (sheet : Sheet) : Query → Run Outcome
  | .stored cell => resolve sheet frames [] cell
  | .typed text cell => do
    match Formula.ofText? text with
    | none => return .settled (.text text)
    | some formula =>
      let machine ← get
      match machine.progress.memo.known? machine.trail cell with
      | some outcome => return outcome
      | none => compute sheet [] cell formula (resolve sheet Pass.nestingLimit [cell])
  | .loose text =>
    match Formula.ofText? text with
    | none => return .settled (.text text)
    | some formula => formula.outcome sheet (resolve sheet frames [])

def resume (sheet : Sheet) (cut : Cut) : Run Outcome := do
  let outer ← get
  modify fun machine =>
    { machine with trail := cut.ancestors, inherited := cut.ancestors.size }
  let outcome ← resolve sheet frames [] cut.cell
  modify fun machine => { machine with trail := outer.trail, inherited := outer.inherited }
  return outcome

def takeCut : Run (Option Cut) := do
  let machine ← get
  set { machine with progress := { machine.progress with cut := none } }
  return machine.progress.cut

def settle (sheet : Sheet) (query : Query) : Nat → List Cut → Run Value
  | 0, _ => failure
  | rounds + 1, cuts => do
    let outcome ← match cuts with
      | [] => attempt sheet query
      | cut :: _ => resume sheet cut
    match ← takeCut, cuts with
    | some deeper, _ => settle sheet query rounds (deeper :: cuts)
    | none, _ :: rest => settle sheet query rounds rest
    | none, [] => return outcome.value

def ask (sheet : Sheet) (query : Query) : Run Value :=
  settle sheet query sheet.roundBound []

end Machine

/-- The trail has the cells that the attempt began with and those that it has entered. -/
structure Level (trail : Trail) (inherited : Nat) (callers : List Address) : Prop where
  size_eq : trail.size = inherited + callers.length
  distinct : callers.Nodup
  entered : ∀ caller ∈ callers, caller ∈ trail

theorem Level.start (trail : Trail) : Level trail trail.size [] where
  size_eq := rfl
  distinct := .nil
  entered _ h := nomatch h

variable {sheet : Sheet} {trail : Trail} {inherited : Nat} {callers : List Address}
  {cell : Address}

theorem Level.enter (h : Level trail inherited callers) (hCell : cell ∉ trail) :
    Level (trail.insert cell) inherited (cell :: callers) where
  size_eq := by
    rw [Std.ExtTreeSet.size_insert, if_neg (by rwa [Std.ExtTreeSet.contains_iff_mem]), h.size_eq,
      List.length_cons, Nat.add_assoc]
  distinct := List.nodup_cons.mpr ⟨fun hMem => hCell (h.entered cell hMem), h.distinct⟩
  entered := List.forall_mem_cons.mpr ⟨Sheet.mem_insert_self trail cell,
    fun caller hMem => Sheet.mem_insert_of_mem (h.entered caller hMem) cell⟩

theorem Trail.erase_insert (hCell : cell ∉ trail) : (trail.insert cell).erase cell = trail := by
  apply Std.ExtTreeSet.ext_mem
  intro other
  rw [Std.ExtTreeSet.mem_erase, Sheet.mem_insert_iff, ne_eq, Std.LawfulEqCmp.compare_eq_iff_eq]
  constructor
  · rintro ⟨hOther, hMem⟩
    exact hMem.resolve_left (Ne.symm hOther)
  · intro hMem
    refine ⟨?_, .inr hMem⟩
    rintro rfl
    exact hCell hMem

structure Call.Counted (call : Call) : Prop where
  level : Level call.trail call.inherited call.callers
  bounded : call.callers.length ≤ Pass.nestingLimit

namespace Machine

/-- From this progress the run comes to this result and that progress. It leaves the trail as it was,
and all its calls are counted right. -/
def Yields {α : Type} (trail : Trail) (inherited : Nat) (run : Run α) (progress : Progress) (x : α)
    (after : Progress) : Prop :=
  ∀ calls, ∃ new, run.run ⟨progress, trail, inherited, calls⟩ =
      some (x, ⟨after, trail, inherited, new ++ calls⟩) ∧ ∀ call ∈ new, call.Counted

def Tracks (trail : Trail) (inherited : Nat) (run : Run Outcome) (walk : Walk Outcome) : Prop :=
  ∀ progress, Yields trail inherited run progress (walk.run progress).1 (walk.run progress).2

theorem Yields.of_run {α : Type} {run : Run α} {progress after : Progress} {x : α}
    (h : ∀ calls, run.run ⟨progress, trail, inherited, calls⟩ =
      some (x, ⟨after, trail, inherited, calls⟩)) : Yields trail inherited run progress x after :=
  fun calls => ⟨[], h calls, fun _ hCall => nomatch hCall⟩

theorem run_bind {α β : Type} {run : Run α} {next : α → Run β} {machine after : Machine} {x : α}
    (h : run.run machine = some (x, after)) :
    (run >>= next).run machine = (next x).run after := by
  rw [StateT.run_bind, h]
  rfl

theorem Yields.bind {α β : Type} {run : Run α} {next : α → Run β}
    {progress between after : Progress} {x : α} {y : β}
    (hFirst : Yields trail inherited run progress x between)
    (hNext : Yields trail inherited (next x) between y after) :
    Yields trail inherited (run >>= next) progress y after := by
  intro calls
  obtain ⟨first, hFirst, hCounted⟩ := hFirst calls
  obtain ⟨rest, hRest, hCounted'⟩ := hNext (first ++ calls)
  refine ⟨rest ++ first, ?_, ?_⟩
  · rw [run_bind hFirst, hRest, List.append_assoc]
  · intro call hCall
    exact (List.mem_append.mp hCall).elim (hCounted' call) (hCounted call)

theorem follow_tracks {visit : Address → Run Outcome} {walk : Address → Walk Outcome}
    (hVisit : ∀ cell, Tracks trail inherited (visit cell) (walk cell)) (itinerary : Itinerary) :
    Tracks trail inherited (itinerary.follow visit) (itinerary.follow walk) := by
  induction itinerary with
  | arrive outcome => exact fun progress => .of_run fun _ => rfl
  | visit cell next ih => exact fun progress => .bind (hVisit cell progress) (ih _ _)

theorem run_compute_of_cut {progress : Progress} (hCut : progress.cut.isSome) (formula : Formula)
    (visit : Address → Run Outcome) (calls : List Call) :
    (compute sheet callers cell formula visit).run ⟨progress, trail, inherited, calls⟩ =
      some (.fault .invalid,
        ⟨progress, trail, inherited, ⟨cell, trail, inherited, callers⟩ :: calls⟩) := by
  simp [compute, record, hCut]

theorem run_compute_of_full (hLevel : Level trail inherited callers)
    (hFull : callers.length = Pass.nestingLimit) (memo : Memo) (formula : Formula)
    (visit : Address → Run Outcome) (calls : List Call) :
    (compute sheet callers cell formula visit).run ⟨⟨memo, none⟩, trail, inherited, calls⟩ =
      some (.fault .invalid, ⟨⟨memo, some ⟨cell, trail⟩⟩, trail, inherited,
        ⟨cell, trail, inherited, callers⟩ :: calls⟩) := by
  simp [compute, record, depth?, hLevel.size_eq, hFull, cutAt, Progress.cutAt]

theorem run_compute_of_room (hLevel : Level trail inherited callers)
    (hRoom : callers.length < Pass.nestingLimit) (hCell : cell ∉ trail) {memo : Memo}
    {formula : Formula} {visit : Address → Run Outcome} {calls later : List Call}
    {outcome : Outcome} {after : Progress}
    (hBody : ((formula.itinerary sheet).follow visit).run ⟨⟨memo, none⟩, trail.insert cell,
      inherited, ⟨cell, trail, inherited, callers⟩ :: calls⟩ =
        some (outcome, ⟨after, trail.insert cell, inherited, later⟩)) :
    (compute sheet callers cell formula visit).run ⟨⟨memo, none⟩, trail, inherited, calls⟩ =
      some (outcome.closeLoop cell,
        ⟨after.store cell (outcome.closeLoop cell), trail, inherited, later⟩) := by
  have hDeep : ¬ Pass.nestingLimit ≤ callers.length := Nat.not_le.mpr hRoom
  rw [← Formula.outcome_eq_follow] at hBody
  simp [compute, record, depth?, hLevel.size_eq, hDeep, enter, hBody, leave, store,
    Trail.erase_insert hCell]

theorem compute_tracks {room : Nat} (hLevel : Level trail inherited callers)
    (hRoom : room + callers.length = Pass.nestingLimit) (hCell : cell ∉ trail) (formula : Formula)
    {visit : Address → Run Outcome}
    (hVisit : ∀ deeper, sheet.deeper? room trail cell = some deeper →
      ∀ other, Tracks (trail.insert cell) inherited (visit other) (deeper other)) :
    Tracks trail inherited (compute sheet callers cell formula visit)
      (sheet.compute trail cell formula (sheet.deeper? room trail cell)) := by
  have hLength : callers.length ≤ Pass.nestingLimit := by omega
  have hCounted : ∀ call ∈ [⟨cell, trail, inherited, callers⟩], Call.Counted call :=
    List.forall_mem_singleton.mpr ⟨hLevel, hLength⟩
  rintro ⟨memo, cut?⟩ calls
  cases cut? with
  | some cut =>
    refine ⟨_, ?_, hCounted⟩
    rw [run_compute_of_cut rfl, Sheet.run_compute_of_cut rfl]
    rfl
  | none =>
    cases room with
    | zero =>
      refine ⟨_, ?_, hCounted⟩
      rw [run_compute_of_full hLevel (by omega)]
      rfl
    | succ room =>
      obtain ⟨new, hBody, hNew⟩ := follow_tracks (hVisit _ rfl) (formula.itinerary sheet)
        ⟨memo, none⟩ (⟨cell, trail, inherited, callers⟩ :: calls)
      refine ⟨new ++ [⟨cell, trail, inherited, callers⟩], ?_, ?_⟩
      · rw [run_compute_of_room hLevel (by omega) hCell hBody, Sheet.deeper?,
          Sheet.run_compute_some, List.append_assoc]
        rfl
      · intro call hCall
        exact (List.mem_append.mp hCall).elim (hNew call) (hCounted call)

theorem resolve_tracks_of_compute {room : Nat}
    (hCompute : ∀ formula, cell ∉ trail → Tracks trail inherited
      (compute sheet callers cell formula (resolve sheet room (cell :: callers)))
      (sheet.compute trail cell formula (sheet.deeper? room trail cell))) :
    Tracks trail inherited (resolve sheet (room + 1) callers cell)
      (sheet.resolve room trail cell) := by
  intro progress
  rw [Sheet.run_resolve, resolve]
  cases hKnown : progress.memo.known? trail cell with
  | some outcome => exact .of_run fun _ => by simp [hKnown]
  | none =>
    cases hFormula : sheet.formula? cell with
    | none => exact .of_run fun _ => by simp [hKnown]
    | some formula =>
      intro calls
      obtain ⟨new, hRun, hNew⟩ :=
        hCompute formula (Memo.not_mem_of_known?_eq_none hKnown) progress calls
      exact ⟨new, by simp [hKnown, hRun], hNew⟩

theorem resolve_tracks (sheet : Sheet) (room : Nat) : ∀ trail inherited callers cell,
    Level trail inherited callers → room + callers.length = Pass.nestingLimit →
      Tracks trail inherited (resolve sheet (room + 1) callers cell)
        (sheet.resolve room trail cell) := by
  induction room with
  | zero =>
    intro trail inherited callers cell hLevel hRoom
    apply resolve_tracks_of_compute
    intro formula hCell
    exact compute_tracks hLevel hRoom hCell formula fun _ h => nomatch h
  | succ room ih =>
    intro trail inherited callers cell hLevel hRoom
    apply resolve_tracks_of_compute
    intro formula hCell
    apply compute_tracks hLevel hRoom hCell formula
    rintro _ ⟨⟩ other
    apply ih _ _ _ _ (hLevel.enter hCell)
    rw [List.length_cons]
    omega

theorem visit_tracks (sheet : Sheet) (trail : Trail) (cell : Address) :
    Tracks trail trail.size (resolve sheet frames [] cell)
      (sheet.resolve Pass.nestingLimit trail cell) :=
  resolve_tracks sheet Pass.nestingLimit trail trail.size [] cell (.start trail) rfl

theorem attempt_typed_tracks {text : String} {formula : Formula} (sheet : Sheet) (trail : Trail)
    (cell : Address) (hText : Formula.ofText? text = some formula) :
    Tracks trail trail.size (attempt sheet (.typed text cell))
      (Query.attempt (.typed text cell) sheet Pass.nestingLimit trail) := by
  intro progress
  rw [Query.run_attempt_typed hText]
  cases hKnown : progress.memo.known? trail cell with
  | some outcome => exact .of_run fun _ => by simp [attempt, hText, hKnown]
  | none =>
    have hCell := Memo.not_mem_of_known?_eq_none hKnown
    have hLevel : Level (trail.insert cell) trail.size [cell] := (Level.start trail).enter hCell
    have hCompute : Tracks trail trail.size
        (compute sheet [] cell formula (resolve sheet Pass.nestingLimit [cell]))
        (sheet.compute trail cell formula (sheet.deeper? Pass.nestingLimit trail cell)) := by
      apply compute_tracks (.start trail) rfl hCell formula
      rintro _ ⟨⟩ other
      exact resolve_tracks sheet 255 _ _ _ _ hLevel rfl
    intro calls
    obtain ⟨new, hRun, hNew⟩ := hCompute progress calls
    exact ⟨new, by simp [attempt, hText, hKnown, hRun], hNew⟩

theorem attempt_tracks (sheet : Sheet) (trail : Trail) (query : Query) :
    Tracks trail trail.size (attempt sheet query)
      (query.attempt sheet Pass.nestingLimit trail) := by
  cases query with
  | stored cell => exact visit_tracks sheet trail cell
  | typed text cell =>
    cases hText : Formula.ofText? text with
    | none =>
      simp only [attempt, Query.attempt, hText]
      exact fun progress => .of_run fun _ => rfl
    | some formula => exact attempt_typed_tracks sheet trail cell hText
  | loose text =>
    cases hText : Formula.ofText? text with
    | none =>
      simp only [attempt, Query.attempt, hText]
      exact fun progress => .of_run fun _ => rfl
    | some formula =>
      simp only [attempt, Query.attempt, hText, Formula.outcome_eq_follow]
      exact follow_tracks (visit_tracks sheet trail) (formula.itinerary sheet)

theorem resume_tracks (sheet : Sheet) (trail : Trail) (inherited : Nat) (cut : Cut) :
    Tracks trail inherited (resume sheet cut)
      (sheet.resolve Pass.nestingLimit cut.ancestors cut.cell) := by
  intro progress calls
  obtain ⟨new, hRun, hNew⟩ := visit_tracks sheet cut.ancestors cut.cell progress calls
  exact ⟨new, by simp [resume, hRun], hNew⟩

theorem takeCut_yields (memo : Memo) (cut? : Option Cut) :
    Yields trail inherited takeCut ⟨memo, cut?⟩ cut? ⟨memo, none⟩ :=
  .of_run fun _ => rfl

theorem settle_yields {query : Query} {rounds : Nat} {cuts : List Cut} {memo after : Memo}
    {value : Value} (h : sheet.settleWithin Pass.nestingLimit
      (query.attempt sheet Pass.nestingLimit trail) rounds cuts memo = some (value, after)) :
    Yields trail trail.size (settle sheet query rounds cuts) ⟨memo, none⟩ value ⟨after, none⟩ := by
  induction rounds generalizing cuts memo with
  | zero => cases h
  | succ rounds ih =>
    rw [Sheet.settleWithin] at h
    cases cuts with
    | nil =>
      have hAttempt := attempt_tracks sheet trail query ⟨memo, none⟩
      rw [Sheet.round] at h
      rcases hRun : (query.attempt sheet Pass.nestingLimit trail).run ⟨memo, none⟩
        with ⟨outcome, memo', cut?⟩
      rw [hRun] at h hAttempt
      refine hAttempt.bind ((takeCut_yields memo' cut?).bind ?_)
      cases cut? with
      | none =>
        cases h
        exact .of_run fun _ => rfl
      | some cut => exact ih h
    | cons cut rest =>
      have hResume := resume_tracks sheet trail trail.size cut ⟨memo, none⟩
      rw [Sheet.round] at h
      rcases hRun : (sheet.resolve Pass.nestingLimit cut.ancestors cut.cell).run ⟨memo, none⟩
        with ⟨outcome, memo', cut?⟩
      rw [hRun] at h hResume
      refine hResume.bind ((takeCut_yields memo' cut?).bind ?_)
      cases cut? with
      | none => exact ih h
      | some deeper => exact ih h

theorem ask_yields (sheet : Sheet) (query : Query) (memo : Memo) :
    Yields ∅ 0 (ask sheet query) ⟨memo, none⟩ ((query.answerFully sheet ∅).run memo).1.value
      ⟨((query.answerFully sheet ∅).run memo).2, none⟩ :=
  settle_yields (sheet.settleWithin_roundBound 255 ∅ query memo)

/-- A query is answered on a stack with no more frames than that, and the trail is empty again. Each
call to compute a cell, in whatever attempt, finds no fewer cells on the trail than the attempt began
with; what it has in excess are the distinct cells of the calls in progress, within the limit. -/
theorem nesting_counted (sheet : Sheet) (query : Query) (memo : Memo) :
    ∃ calls, (ask sheet query).run (idle memo) =
        some (((Pass.ask query).run ⟨sheet, memo, ∅⟩).1,
          ⟨⟨((Pass.ask query).run ⟨sheet, memo, ∅⟩).2.memo, none⟩, ∅, 0, calls⟩) ∧
      ∀ call ∈ calls, call.inherited ≤ call.trail.size ∧
        call.trail.size - call.inherited = call.callers.length ∧
        call.callers.Nodup ∧ (∀ caller ∈ call.callers, caller ∈ call.trail) ∧
        call.callers.length ≤ Pass.nestingLimit := by
  obtain ⟨calls, hRun, hCounted⟩ := ask_yields sheet query memo []
  rw [List.append_nil] at hRun
  refine ⟨calls, ?_, ?_⟩
  · rw [Pass.run_ask]
    exact hRun
  · intro call hCall
    obtain ⟨hLevel, hBounded⟩ := hCounted call hCall
    have hSize := hLevel.size_eq
    exact ⟨by omega, by omega, hLevel.distinct, hLevel.entered, hBounded⟩

end Machine
end FormulaGrid
