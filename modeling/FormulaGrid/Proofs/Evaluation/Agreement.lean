import FormulaGrid.Proofs.Evaluation.Soundness

/-!
# Evaluation and values

Where no sum lies on a loop, plain recursion comes by the values of cells from any sound memo. A sum
meets no open loop below it, because that would lead back to the sum. A chain that stops at an open
loop is itself on the loop, and circular; one that stops at a settled cell is not.
-/

set_option autoImplicit false

namespace FormulaGrid

open Relation

theorem Outcome.toOperand_eq_ok {outcome : Outcome} {x : Float} (h : outcome.toOperand = .ok x) :
    outcome.root = none ∧ outcome.value.number? = some x := by
  cases hRoot : outcome.root with
  | some root =>
    rw [toOperand_of_root hRoot] at h
    cases h
  | none =>
    refine ⟨rfl, ?_⟩
    cases hNumber : outcome.value.toNumber with
    | error f =>
      rw [toOperand_of_fault hRoot hNumber] at h
      cases h
    | ok y =>
      rw [toOperand_of_number hRoot hNumber] at h
      cases h
      simp only [Value.number?, hNumber]

theorem Outcome.toOperand_eq_error {outcome failed : Outcome}
    (h : outcome.toOperand = .error failed) :
    (∃ root, outcome.root = some root ∧ failed = outcome) ∨
      outcome.root = none ∧ outcome.value.number? = none ∧ failed = .fault .reference := by
  cases hRoot : outcome.root with
  | some root =>
    rw [toOperand_of_root hRoot] at h
    cases h
    exact .inl ⟨root, rfl, rfl⟩
  | none =>
    cases hNumber : outcome.value.toNumber with
    | ok y =>
      rw [toOperand_of_number hRoot hNumber] at h
      cases h
    | error f =>
      rw [toOperand_of_fault hRoot hNumber, Value.toNumber_error hNumber] at h
      cases h
      exact .inr ⟨rfl, by simp only [Value.number?, hNumber], rfl⟩

theorem addReading_eq (total : Float) (outcome : Outcome) :
    addReading total outcome = outcome.value.number?.elim total (total + ·) := by
  rw [addReading, Value.number?]
  cases outcome.value.toNumber <;> rfl

namespace Sheet

/-- How an operand without a number ends a chain. -/
def Stops (sheet : Sheet) (value : Address → Value) (trail : Trail) (result : Outcome × Memo) :
    Operand → Prop
  | .number _ => False
  | .unreadable => result.1 = .fault .reference ∧ sheet.Sound value trail result.2 none
  | .cell address => ∃ outcome, sheet.Settles value trail address (outcome, result.2) ∧
      outcome.toOperand = .error result.1

variable {sheet : Sheet} {value : Address → Value} {trail : Trail} {cell other : Address}
  {memo : Memo}

section Reach

variable {reach : Address → StateM Memo Outcome}

theorem follow_sumFrom_sound {share : Address → Option Float} (cells : List Address)
    (total : Float) (hMemo : sheet.Sound value trail memo none)
    (hReach : ∀ other ∈ cells, ∀ memo, sheet.Sound value trail memo none →
      sheet.Sound value trail ((reach other).run memo).2 none ∧
        ((reach other).run memo).1.value.number? = share other) :
    ∃ later, sheet.Sound value trail later none ∧
      ((Itinerary.sumFrom cells total).follow reach).run memo =
        (.settled (.ofFloat ((cells.filterMap share).foldl (· + ·) total)), later) := by
  induction cells generalizing total memo with
  | nil => exact ⟨memo, hMemo, rfl⟩
  | cons first cells ih =>
    rw [List.forall_mem_cons] at hReach
    obtain ⟨hSound, hNumber⟩ := hReach.1 memo hMemo
    have hRest := ih ((share first).elim total (total + ·)) hSound hReach.2
    rw [Itinerary.sumFrom, Itinerary.run_visit, addReading_eq, hNumber]
    cases hFirst : share first with
    | none =>
      rw [hFirst] at hRest
      rw [List.filterMap_cons_none hFirst]
      exact hRest
    | some x =>
      rw [hFirst] at hRest
      rw [List.filterMap_cons_some hFirst]
      exact hRest

theorem follow_operand_sound {x : Operand} (next : Float → Itinerary)
    (hMemo : sheet.Sound value trail memo none)
    (hReach : ∀ other, x = .cell other → sheet.Settles value trail other ((reach other).run memo)) :
    (∃ y later, x.number? value = some y ∧ sheet.Sound value trail later none ∧
      ((Itinerary.operand next x).follow reach).run memo = ((next y).follow reach).run later) ∨
    sheet.Stops value trail (((Itinerary.operand next x).follow reach).run memo) x := by
  cases x with
  | number y => exact .inl ⟨y, memo, rfl, hMemo, rfl⟩
  | unreadable => exact .inr ⟨rfl, hMemo⟩
  | cell other =>
    have hSettles := hReach other rfl
    cases hOperand : ((reach other).run memo).1.toOperand with
    | error failed =>
      rw [Itinerary.operand, Itinerary.run_visit, hOperand]
      exact .inr ⟨_, hSettles, hOperand⟩
    | ok y =>
      obtain ⟨hRoot, hNumber⟩ := Outcome.toOperand_eq_ok hOperand
      refine .inl ⟨y, ((reach other).run memo).2, ?_, hSettles.sound_of_root hRoot, ?_⟩
      · rw [← hNumber, (hSettles.settled hRoot).1]
        rfl
      · rw [Itinerary.operand, Itinerary.run_visit, hOperand]

theorem follow_links_sound (rest : List (Operator × Operand))
    (next : List (Operator × Float) → Itinerary) (hMemo : sheet.Sound value trail memo none)
    (hReach : ∀ before other after, rest.map Prod.snd = before ++ .cell other :: after →
      (∀ x ∈ before, (x.number? value).isSome) → ∀ memo, sheet.Sound value trail memo none →
        sheet.Settles value trail other ((reach other).run memo)) :
    (∃ numbers later, (rest.mapM fun link => do return (link.1, ← link.2.number? value)) =
        some numbers ∧ sheet.Sound value trail later none ∧
      ((Itinerary.links rest next).follow reach).run memo =
        ((next numbers).follow reach).run later) ∨
    ∃ before x after, rest.map Prod.snd = before ++ x :: after ∧
      (∀ y ∈ before, (y.number? value).isSome) ∧
      sheet.Stops value trail (((Itinerary.links rest next).follow reach).run memo) x := by
  induction rest generalizing next memo with
  | nil => exact .inl ⟨[], memo, rfl, hMemo, rfl⟩
  | cons link rest ih =>
    rw [List.map_cons]
    rw [List.map_cons] at hReach
    have hFirst := follow_operand_sound
      (fun y => Itinerary.links rest fun ys => next ((link.1, y) :: ys)) hMemo
      fun other hLink => hReach [] other (rest.map Prod.snd) (congrArg (· :: _) hLink) (by simp)
        memo hMemo
    rcases hFirst with ⟨y, later, hNumber, hSound, hRun⟩ | hStops
    · have hBehind : ∀ before, (∀ x ∈ before, (x.number? value).isSome) →
          ∀ x ∈ link.2 :: before, (x.number? value).isSome :=
        fun before hBefore => List.forall_mem_cons.mpr ⟨by rw [hNumber]; rfl, hBefore⟩
      have hRest := ih (fun ys => next ((link.1, y) :: ys)) hSound
        fun before other after hList hBefore => hReach (link.2 :: before) other after
          (congrArg (link.2 :: ·) hList) (hBehind before hBefore)
      rcases hRest with ⟨numbers, last, hNumbers, hLast, hRest⟩ |
        ⟨before, x, after, hList, hBefore, hStops⟩
      · refine .inl ⟨(link.1, y) :: numbers, last, ?_, hLast, hRun.trans hRest⟩
        rw [List.mapM_cons, hNumber, hNumbers]
        rfl
      · rw [← hRun] at hStops
        exact .inr ⟨link.2 :: before, x, after, congrArg (link.2 :: ·) hList,
          hBehind before hBefore, hStops⟩
    · exact .inr ⟨[], link.2, rest.map Prod.snd, rfl, by simp, hStops⟩

theorem follow_chain_sound (operands : Chain Operand) (hMemo : sheet.Sound value trail memo none)
    (hReach : ∀ before other after, operands.toList = before ++ .cell other :: after →
      (∀ x ∈ before, (x.number? value).isSome) → ∀ memo, sheet.Sound value trail memo none →
        sheet.Settles value trail other ((reach other).run memo)) :
    (∃ numbers later, operands.mapM (Operand.number? value) = some numbers ∧
      sheet.Sound value trail later none ∧
      ((Itinerary.chain operands).follow reach).run memo =
        (.settled (.ofResult numbers.total), later)) ∨
    ∃ before x after, operands.toList = before ++ x :: after ∧
      (∀ y ∈ before, (y.number? value).isSome) ∧
      sheet.Stops value trail (((Itinerary.chain operands).follow reach).run memo) x := by
  -- The first operand counts as one more link, whose operator does not matter.
  have hLinks := follow_links_sound ((.add, operands.first) :: operands.links)
    (fun
      | (_, x) :: xs => .arrive (.settled (.ofResult (Chain.total ⟨x, xs⟩)))
      | [] => .arrive (.fault .invalid)) hMemo hReach
  rcases hLinks with ⟨numbers, later, hNumbers, hLater, hRun⟩ | hStops
  · rw [List.mapM_cons] at hNumbers
    obtain ⟨first, hFirst, hNumbers⟩ := Option.bind_eq_some_iff.mp hNumbers
    obtain ⟨x, hx, hFirst⟩ := Option.bind_eq_some_iff.mp hFirst
    obtain ⟨xs, hxs, hNumbers⟩ := Option.bind_eq_some_iff.mp hNumbers
    cases hFirst
    cases hNumbers
    refine .inl ⟨⟨x, xs⟩, later, ?_, hLater, hRun⟩
    rw [Chain.mapM, hx, hxs]
    rfl
  · exact .inr hStops

end Reach

theorem sum_computes {block : Block} {reach : Address → StateM Memo Outcome}
    (hGrounded : sheet.Grounded value) (hLeads : sheet.LeadsTo value trail cell)
    (hMemo : sheet.Sound value (trail.insert cell) memo none)
    (hFormula : sheet.formula? cell = some (.sum block))
    (hSelf : ∀ memo, (reach cell).run memo = (.loop cell, memo))
    (hReach : ∀ other, sheet.Visits value cell other → ∀ memo,
      sheet.Sound value (trail.insert cell) memo none →
      sheet.Settles value (trail.insert cell) other ((reach other).run memo)) :
    sheet.Computes value trail cell
      (((Itinerary.sumFrom (sheet.cellsIn block) 0.0).follow reach).run memo) := by
  have hVisits : ∀ other ∈ sheet.cellsIn block, ∀ memo,
      sheet.Sound value (trail.insert cell) memo none →
      sheet.Sound value (trail.insert cell) ((reach other).run memo).2 none ∧
        ((reach other).run memo).1.value.number? =
          if other ≠ cell then (value other).number? else none := by
    intro other hOther memo hMemo
    by_cases hSame : other = cell
    · rw [hSame, hSelf, if_neg (by simp)]
      exact ⟨hMemo, rfl⟩
    · have hSettles := hReach other (.inl ⟨block, hFormula, hOther⟩) memo hMemo
      have hRefers : sheet.Refers cell other := (refers_of_sum hFormula).mpr hOther
      -- An open loop would lead from the sum back to it.
      have hRoot : ((reach other).run memo).1.root = none := by
        rw [Option.eq_none_iff_forall_ne_some]
        intro root hRoot
        obtain ⟨_, hMem, hPath, _⟩ := hSettles.looping root hRoot
        have hBack := (reflTransGen_of_blames hPath).trans
          (reflTransGen_of_visits (hLeads.of_mem_insert hMem))
        exact hGrounded.sumsOffLoops cell block hFormula other hSame (.single hRefers)
          ((reflTransGen_iff_eq_or_transGen.mp hBack).resolve_left (Ne.symm hSame))
      rw [if_pos hSame, (hSettles.settled hRoot).1]
      exact ⟨hSettles.sound_of_root hRoot, rfl⟩
  obtain ⟨later, hLater, hRun⟩ := follow_sumFrom_sound (sheet.cellsIn block) 0.0 hMemo hVisits
  rw [hRun]
  apply Computes.of_no_chain hLater
  · rw [hGrounded.isValuation cell, rule_sum hFormula, List.filterMap_filter]
    simp only [decide_eq_true_eq]
  · rw [hFormula]
    exact fun _ h => by cases h

section Chain

variable {operands : Chain Operand}

theorem computes_of_unreadable (hValuation : sheet.IsValuation value)
    (hFormula : sheet.formula? cell = some (.chain operands))
    (hFailing : operands.failing? value = some .unreadable)
    (hMemo : sheet.Sound value (trail.insert cell) memo none) :
    sheet.Computes value trail cell (.fault .reference, memo) := by
  have hBlames : ∀ other, ¬ sheet.Blames value cell other := by
    rintro other ⟨operands', hFormula', hFailing'⟩
    rw [hFormula] at hFormula'
    cases hFormula'
    rw [hFailing] at hFailing'
    cases hFailing'
  apply Computes.of_settled hMemo
  · have hNumbers : operands.mapM (Operand.number? value) = none :=
      Chain.mapM_eq_none_iff.mpr ⟨.unreadable, List.mem_of_find?_eq_some hFailing, rfl⟩
    rw [hValuation cell, rule_reference hFormula hNumbers]
    intro hLoop
    obtain ⟨next, hNext, _⟩ := TransGen.head'_iff.mp hLoop
    exact hBlames next hNext
  · exact fun other hOther => absurd hOther (hBlames other)

/-- A chain that blames a settled cell is on no loop of blame. -/
theorem computes_of_stored (hValuation : sheet.IsValuation value)
    (hFormula : sheet.formula? cell = some (.chain operands))
    (hBlames : sheet.Blames value cell other)
    (hMemo : sheet.Sound value (trail.insert cell) memo none)
    (hStored : (sheet.formula? other).isSome → (memo.get? other).isSome) :
    sheet.Computes value trail cell (.fault .reference, memo) := by
  apply Computes.of_settled hMemo
  · rw [hValuation cell, rule_reference hFormula (hBlames.mapM_eq_none hFormula)]
    intro hLoop
    obtain ⟨next, hNext, hPath⟩ := TransGen.head'_iff.mp hLoop
    obtain rfl := hNext.unique hBlames
    have hIsFormula : (sheet.formula? next).isSome := by
      rcases hPath.cases_head with rfl | ⟨third, hThird, _⟩
      · exact hBlames.refers.isFormula
      · exact hThird.refers.isFormula
    exact hMemo.not_reflTransGen (hStored hIsFormula) (mem_insert_self trail cell)
      hBlames.refers.isFormula hPath
  · intro third hThird hIsFormula
    obtain rfl := hThird.unique hBlames
    exact hStored hIsFormula

/-- A chain that meets an open loop is on that loop. -/
theorem computes_of_open (hGrounded : sheet.Grounded value)
    (hLeads : sheet.LeadsTo value trail cell)
    (hFormula : sheet.formula? cell = some (.chain operands))
    (hVisits : sheet.Visits value cell other) {outcome : Outcome} {root : Address}
    (hSettles : sheet.Settles value (trail.insert cell) other (outcome, memo))
    (hRoot : outcome.root = some root) : sheet.Computes value trail cell (outcome, memo) := by
  obtain ⟨hValue, hMem, hPath, hStored⟩ := hSettles.looping root hRoot
  have hAbove := hLeads.of_mem_insert hMem
  have hForth := reflTransGen_of_blames hPath
  have hLoop : TransGen sheet.Refers cell cell :=
    .head' hVisits.refers (hForth.trans (reflTransGen_of_visits hAbove))
  obtain ⟨_, hNumber⟩ := hGrounded.of_loop hFormula hLoop (.single hVisits.refers)
    (hForth.trans (reflTransGen_of_visits hAbove))
  have hBlames := hVisits.blames hFormula hNumber
  have hBack := hGrounded.blames_of_visits hFormula hAbove hLoop
    (.head hVisits.refers hForth)
  refine ⟨hSettles.sound, ?_, ?_, ?_⟩
  · rw [hGrounded.isValuation cell, rule_circular hFormula (hBlames.mapM_eq_none hFormula)
      (.head' hBlames (hPath.trans hBack))]
    exact hValue
  · intro third hThird _
    obtain rfl := hThird.unique hBlames
    rcases hStored with hStored | rfl
    · exact .inl hStored
    · exact .inr hRoot
  · intro root' hRoot'
    obtain rfl := Option.some.inj (hRoot.symm.trans hRoot')
    exact ⟨hValue, hMem, .head hBlames hPath⟩

theorem chain_computes {reach : Address → StateM Memo Outcome}
    (hGrounded : sheet.Grounded value) (hLeads : sheet.LeadsTo value trail cell)
    (hMemo : sheet.Sound value (trail.insert cell) memo none)
    (hFormula : sheet.formula? cell = some (.chain operands))
    (hReach : ∀ other, sheet.Visits value cell other → ∀ memo,
      sheet.Sound value (trail.insert cell) memo none →
      sheet.Settles value (trail.insert cell) other ((reach other).run memo)) :
    sheet.Computes value trail cell (((Itinerary.chain operands).follow reach).run memo) := by
  have hVisits : ∀ before other after, operands.toList = before ++ .cell other :: after →
      (∀ x ∈ before, (x.number? value).isSome) → sheet.Visits value cell other :=
    fun before other after hList hBefore => .inr ⟨operands, hFormula, before, after, hList, hBefore⟩
  rcases follow_chain_sound operands hMemo fun before other after hList hBefore =>
    hReach other (hVisits before other after hList hBefore) with
    ⟨numbers, later, hNumbers, hLater, hRun⟩ | ⟨before, x, after, hList, hBefore, hStops⟩
  · rw [hRun]
    apply Computes.of_settled hLater
    · rw [hGrounded.isValuation cell, rule_numbers hFormula hNumbers]
    · intro other hBlames
      rw [hBlames.mapM_eq_none hFormula] at hNumbers
      cases hNumbers
  · have hFailing : x.number? value = none → operands.failing? value = some x :=
      fun hNumber => Chain.failing?_eq_some_iff.mpr ⟨hNumber, before, after, hList, hBefore⟩
    generalize ((Itinerary.chain operands).follow reach).run memo = body at hStops
    obtain ⟨outcome, later⟩ := body
    cases x with
    | number x => exact hStops.elim
    | unreadable =>
      obtain ⟨rfl, hLater⟩ := hStops
      exact computes_of_unreadable hGrounded.isValuation hFormula (hFailing rfl) hLater
    | cell other =>
      obtain ⟨found, hSettles, hOperand⟩ := hStops
      rcases Outcome.toOperand_eq_error hOperand with ⟨root, hRoot, rfl⟩ | ⟨hRoot, hNumber, rfl⟩
      · exact computes_of_open hGrounded hLeads hFormula
          (hVisits before other after hList hBefore) hSettles hRoot
      · obtain ⟨hValue, hStored⟩ := hSettles.settled hRoot
        rw [hValue] at hNumber
        exact computes_of_stored hGrounded.isValuation hFormula
          ⟨operands, hFormula, hFailing hNumber⟩ (hSettles.sound_of_root hRoot) hStored

end Chain

theorem resolveFully_settles (hGrounded : sheet.Grounded value) (trail : Trail) :
    ∀ cell memo, sheet.LeadsTo value trail cell → sheet.Sound value trail memo none →
      sheet.Settles value trail cell ((sheet.resolveFully trail cell).run memo) := by
  induction trail using trail_induction sheet with
  | step trail ih =>
    intro cell memo hLeads hMemo
    cases hKnown : memo.known? trail cell with
    | some outcome =>
      rw [resolveFully_known hKnown]
      exact hMemo.settles_of_known? hKnown
    | none =>
      have hCell := Memo.not_mem_of_known?_eq_none hKnown
      cases hFormula : sheet.formula? cell with
      | none =>
        rw [resolveFully_text hKnown hFormula]
        refine ⟨hMemo, fun _ => ⟨?_, ?_⟩, fun _ hRoot => by cases hRoot⟩
        · rw [hGrounded.isValuation cell, rule, hFormula]
          rfl
        · rw [hFormula]
          exact fun h => by cases h
      | some formula =>
        have hBelow : sheet.Sound value (trail.insert cell) memo none :=
          hMemo.enter (Memo.get?_of_known?_eq_none hKnown)
        have hReach : ∀ other, sheet.Visits value cell other → ∀ memo,
            sheet.Sound value (trail.insert cell) memo none → sheet.Settles value
              (trail.insert cell) other ((sheet.resolveFully (trail.insert cell) other).run memo) :=
          fun other hOther memo hMemo =>
            ih cell hCell (Option.isSome_of_eq_some hFormula) other memo (hLeads.insert hOther) hMemo
        rw [resolveFully_formula hKnown hFormula, run_computeFully]
        apply Computes.settles _ hCell
        cases formula with
        | blank =>
          apply Computes.of_no_chain hBelow
          · rw [hGrounded.isValuation cell, rule, hFormula]
          · rw [hFormula]
            exact fun _ h => by cases h
        | malformed =>
          apply Computes.of_no_chain hBelow
          · rw [hGrounded.isValuation cell, rule, hFormula]
          · rw [hFormula]
            exact fun _ h => by cases h
        | sum block =>
          have hSelf : ∀ memo, (sheet.resolveFully (trail.insert cell) cell).run memo =
              (.loop cell, memo) := fun memo =>
            resolveFully_known (by rw [Memo.known?, if_pos (mem_insert_self trail cell)])
          exact sum_computes hGrounded hLeads hBelow hFormula hSelf hReach
        | chain operands =>
          exact chain_computes hGrounded hLeads hBelow hFormula hReach

end Sheet
end FormulaGrid
