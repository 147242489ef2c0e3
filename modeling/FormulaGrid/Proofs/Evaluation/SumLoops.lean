import FormulaGrid.Proofs.Evaluation.Agreement
import FormulaGrid.Proofs.Evaluation.Endings
import FormulaGrid.Proofs.Evaluation.Rounds

/-!
# Sums on loops

A sum whose block has a chain that reads the sum. While the sum is in progress the chain closes a
loop, and it is circular for the rest of the pass although the sum passes over it. In a fresh pass
the chain comes first; then the sum passes over the open loop, and the chain reads a settled sum.
-/

set_option autoImplicit false

namespace FormulaGrid

namespace Itinerary

theorem links_numbers (links : List (Operator × Float))
    (next : List (Operator × Float) → Itinerary) :
    Itinerary.links (links.map fun link => (link.1, .number link.2)) next = next links := by
  induction links generalizing next with
  | nil => rfl
  | cons link links ih => exact ih _

theorem chain_numbers (cell : Address) (links : List (Operator × Float)) :
    chain ⟨.cell cell, links.map fun link => (link.1, .number link.2)⟩ =
      visit cell fun outcome =>
        match outcome.toOperand with
        | .ok x => arrive (.settled (.ofResult (Chain.total ⟨x, links⟩)))
        | .error failed => arrive failed := by
  rw [chain, operand]
  congr 1
  funext outcome
  cases outcome.toOperand with
  | error failed => rfl
  | ok x => exact links_numbers links _

theorem sumFrom_settled (reach : Address → StateM Memo Outcome) (cells : List Address)
    (total : Float) (memo : Memo) : ∃ x later,
      ((sumFrom cells total).follow reach).run memo = (.settled (.ofFloat x), later) := by
  induction cells generalizing total memo with
  | nil => exact ⟨total, memo, rfl⟩
  | cons first cells ih => exact ih _ _

theorem sumFrom_stores {sheet : Sheet} {trail : Trail} {reach : Address → StateM Memo Outcome}
    {cell : Address} (hSteady : ∀ other memo, Steady sheet trail (reach other) memo)
    (hStores : ∀ memo, (((reach cell).run memo).2.get? cell).isSome) {cells : List Address}
    (hCell : cell ∈ cells) (total : Float) (memo : Memo) :
    ((((sumFrom cells total).follow reach).run memo).2.get? cell).isSome := by
  induction cells generalizing total memo with
  | nil => cases hCell
  | cons first cells ih =>
    rw [sumFrom, run_visit]
    rcases List.mem_cons.mp hCell with rfl | hCell
    · obtain ⟨outcome, hOutcome⟩ := Option.isSome_iff_exists.mp (hStores memo)
      have hRest := follow_steady hSteady (sumFrom cells
        (addReading total ((reach cell).run memo).1)) ((reach cell).run memo).2
      rw [hRest.grows.keeps cell outcome hOutcome]
      rfl
    · exact ih hCell _ _

end Itinerary

namespace Sheet

def ReadsOnly (sheet : Sheet) (cell other : Address) : Prop :=
  ∃ links : List (Operator × Float), sheet.formula? cell =
    some (.chain ⟨.cell other, links.map fun link => (link.1, .number link.2)⟩)

variable {sheet : Sheet} {trail : Trail} {cell other : Address} {memo : Memo}

theorem ReadsOnly.run_resolveFully (h : sheet.ReadsOnly cell other)
    (hKnown : memo.known? trail cell = none) :
    let visited := (sheet.resolveFully (trail.insert cell) other).run memo
    ∃ outcome, (sheet.resolveFully trail cell).run memo =
        (outcome.closeLoop cell, visited.2.insert cell (outcome.closeLoop cell)) ∧
      (visited.1.toOperand = .error outcome ∨ ∃ x numbers, visited.1.toOperand = .ok x ∧
        outcome = .settled (.ofResult (Chain.total numbers))) := by
  intro visited
  obtain ⟨links, hFormula⟩ := h
  rw [resolveFully_formula hKnown hFormula, run_computeFully, Formula.itinerary,
    Itinerary.chain_numbers, Itinerary.run_visit]
  cases hOperand : visited.1.toOperand with
  | error failed => exact ⟨failed, rfl, .inl rfl⟩
  | ok x => exact ⟨_, rfl, .inr ⟨x, _, rfl, rfl⟩⟩

theorem known?_empty (cell : Address) : Memo.empty.known? ∅ cell = none :=
  Memo.known?_eq_none Std.ExtTreeSet.not_mem_empty (Memo.get?_empty cell)

/-- A chain that is computed while its cell is in progress lies on the loop of that cell. -/
theorem ReadsOnly.run_on_loop (h : sheet.ReadsOnly cell other) (hCell : cell ≠ other)
    (hOther : other ∈ trail) (hKnown : memo.known? trail cell = none) :
    (sheet.resolveFully trail cell).run memo = (.loop other, memo.insert cell (.loop other)) := by
  obtain ⟨outcome, hRun, hOutcome⟩ := h.run_resolveFully hKnown
  have hLoop : (sheet.resolveFully (trail.insert cell) other).run memo = (.loop other, memo) :=
    resolveFully_known (by rw [Memo.known?, if_pos (mem_insert_of_mem hOther cell)])
  have hOpen : (Outcome.loop other).closeLoop cell = .loop other := by
    rw [Outcome.closeLoop, if_neg]
    exact fun hRoot => hCell (Option.some.inj hRoot).symm
  rw [hLoop] at hRun hOutcome
  rcases hOutcome with hOutcome | ⟨x, numbers, hOutcome, _⟩
  · cases hOutcome
    rw [hRun, hOpen]
  · cases hOutcome

def HeldBy (cell other : Address) (memo : Memo) : Prop :=
  ∀ outcome, memo.get? cell = some outcome → outcome = .loop other

theorem ReadsOnly.keeps_heldBy (h : sheet.ReadsOnly cell other) (hCell : cell ≠ other)
    (trail : Trail) : other ∈ trail → ∀ third memo, HeldBy cell other memo →
      HeldBy cell other ((sheet.resolveFully trail third).run memo).2 := by
  induction trail using trail_induction sheet with
  | step trail ih =>
    intro hOther third memo hMemo
    cases hKnown : memo.known? trail third with
    | some outcome =>
      rw [resolveFully_known hKnown]
      exact hMemo
    | none =>
      have hThird := Memo.not_mem_of_known?_eq_none hKnown
      by_cases hSame : third = cell
      · subst hSame
        rw [h.run_on_loop hCell hOther hKnown]
        intro outcome hOutcome
        rw [Memo.get?_insert, if_pos rfl] at hOutcome
        exact (Option.some.inj hOutcome).symm
      · cases hFormula : sheet.formula? third with
        | none =>
          rw [resolveFully_text hKnown hFormula]
          exact hMemo
        | some formula =>
          rw [resolveFully_formula hKnown hFormula, run_computeFully]
          intro outcome hOutcome
          rw [Memo.get?_insert, if_neg hSame] at hOutcome
          exact Itinerary.follow_keeps (ih third hThird (Option.isSome_of_eq_some hFormula)
            (mem_insert_of_mem hOther third)) (formula.itinerary sheet) hMemo outcome hOutcome

variable {block : Block}

theorem ReadsOnly.get?_after_sum (h : sheet.ReadsOnly cell other) (hCell : cell ≠ other)
    (hSum : sheet.formula? other = some (.sum block)) (hBlock : cell ∈ sheet.cellsIn block) :
    ((sheet.resolveFully ∅ other).run .empty).2.get? cell = some (.loop other) := by
  have hFormula : (sheet.formula? cell).isSome := by
    obtain ⟨links, hFormula⟩ := h
    rw [hFormula]
    rfl
  have hOff : cell ∉ (∅ : Trail).insert other := by
    rw [mem_insert_iff, not_or]
    exact ⟨hCell, Std.ExtTreeSet.not_mem_empty⟩
  have hSteady := resolveFully_steady sheet ((∅ : Trail).insert other)
  have hStores : ∀ memo,
      (((sheet.resolveFully ((∅ : Trail).insert other) cell).run memo).2.get? cell).isSome := by
    intro memo
    cases hMemo : memo.get? cell with
    | none => exact Option.isSome_iff_ne_none.mpr (stored_of_resolveFully hOff hMemo hFormula)
    | some outcome =>
      rw [(hSteady cell memo).grows.keeps cell outcome hMemo]
      rfl
  have hKeeps := h.keeps_heldBy hCell ((∅ : Trail).insert other) (mem_insert_self ∅ other)
  have hEmpty : HeldBy cell other .empty := by
    intro outcome hOutcome
    rw [Memo.get?_empty] at hOutcome
    cases hOutcome
  have hHeld := Itinerary.follow_keeps hKeeps (.sumFrom (sheet.cellsIn block) 0.0) hEmpty
  obtain ⟨outcome, hOutcome⟩ := Option.isSome_iff_exists.mp
    (Itinerary.sumFrom_stores hSteady hStores hBlock 0.0 .empty)
  rw [resolveFully_formula (known?_empty other) hSum, run_computeFully, Memo.get?_insert,
    if_neg (Ne.symm hCell)]
  exact hOutcome.trans (congrArg some (hHeld outcome hOutcome))

theorem ReadsOnly.value_ne_circular (h : sheet.ReadsOnly cell other) (hCell : cell ≠ other)
    (hSum : sheet.formula? other = some (.sum block)) :
    ((sheet.resolveFully ∅ cell).run .empty).1.value ≠ .fault .circular := by
  obtain ⟨outcome, hRun, hOutcome⟩ := h.run_resolveFully (known?_empty cell)
  rw [hRun, Outcome.value_closeLoop]
  rcases hOutcome with hOutcome | ⟨x, numbers, _, rfl⟩
  · have hOff : other ∉ (∅ : Trail).insert cell := by
      rw [mem_insert_iff, not_or]
      exact ⟨Ne.symm hCell, Std.ExtTreeSet.not_mem_empty⟩
    obtain ⟨x, later, hBody⟩ := Itinerary.sumFrom_settled
      (sheet.resolveFully (((∅ : Trail).insert cell).insert other)) (sheet.cellsIn block) 0.0 .empty
    rw [resolveFully_formula (Memo.known?_eq_none hOff (Memo.get?_empty other)) hSum,
      run_computeFully, Formula.itinerary, hBody] at hOutcome
    rcases Outcome.toOperand_eq_error hOutcome with ⟨root, hRoot, _⟩ | ⟨_, _, rfl⟩
    · cases hRoot
    · intro h
      cases h
  · exact (Chain.plain_ofResult_total numbers).ne_circular

end Sheet

/-- A chain that reads a sum and nothing else, while its cell is in the block of the sum, is not
circular in a fresh pass, and circular once the sum was asked for. -/
theorem Pass.order_matters_on_sum_loop {sheet : Sheet} {cell other : Address} {block : Block}
    (hSum : sheet.formula? other = some (.sum block)) (hBlock : cell ∈ sheet.cellsIn block)
    (hReads : sheet.ReadsOnly cell other) :
    ((Pass.ask (.stored cell)).run (.start sheet)).1 ≠ .fault .circular ∧
      ((Pass.ask (.stored cell)).run ((Pass.ask (.stored other)).run (.start sheet)).2).1 =
        .fault .circular := by
  have hCell : cell ≠ other := by
    rintro rfl
    obtain ⟨links, hChain⟩ := hReads
    rw [hSum] at hChain
    cases hChain
  constructor
  · rw [run_ask]
    exact hReads.value_ne_circular hCell hSum
  · have hStored := hReads.get?_after_sum hCell hSum hBlock
    rw [run_ask, run_ask]
    have hKnown : ((sheet.resolveFully ∅ other).run .empty).2.known? ∅ cell =
        some ((Outcome.loop other).onTrail ∅) := by
      rw [Memo.known?, if_neg Std.ExtTreeSet.not_mem_empty, hStored]
      rfl
    exact congrArg (fun result => result.1.value) (Sheet.resolveFully_known hKnown)

end FormulaGrid
