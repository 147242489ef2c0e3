import FormulaGrid.Proofs.Evaluation.Histories

/-!
# Roots of loops

An outcome is stored with the root of its loop while the root is in progress, and the root is stored
when it is left. So the root of a stored outcome is in progress or stored itself, and once nothing is in
progress the memo has all of them. This holds also of a memo that texts were typed into.
-/

set_option autoImplicit false

namespace FormulaGrid

def Memo.Rooted (trail : Trail) (memo : Memo) : Prop :=
  ∀ cell outcome root, memo.get? cell = some outcome → outcome.root = some root →
    root ∈ trail ∨ (memo.get? root).isSome

namespace Memo.Rooted

variable {trail : Trail} {memo : Memo} {cell : Address} {outcome : Outcome}

theorem empty (trail : Trail) : Memo.empty.Rooted trail := by
  intro cell outcome root h
  rw [Memo.get?_empty] at h
  cases h

theorem enter (h : memo.Rooted trail) (cell : Address) : memo.Rooted (trail.insert cell) :=
  fun other stored root hStored hRoot =>
    (h other stored root hStored hRoot).imp_left fun hMem => Sheet.mem_insert_of_mem hMem cell

theorem leave (h : memo.Rooted (trail.insert cell))
    (hOutcome : ∀ root, outcome.root = some root → root ∈ trail) :
    (memo.insert cell outcome).Rooted trail := by
  intro other stored root hStored hRoot
  rw [Memo.get?_insert] at hStored
  rw [Memo.get?_insert]
  by_cases hCell : cell = root
  · rw [if_pos hCell]
    exact .inr rfl
  · rw [if_neg hCell]
    split at hStored
    · cases hStored
      exact .inl (hOutcome root hRoot)
    · exact (h other stored root hStored hRoot).imp_left fun hMem =>
        (Sheet.mem_insert_iff.mp hMem).resolve_left (Ne.symm hCell)

theorem root_ne {away : Address} (h : memo.Rooted trail) (hTrail : away ∉ trail)
    (hAway : memo.get? away = none) (hStored : memo.get? cell = some outcome) :
    outcome.root ≠ some away := by
  intro hRoot
  rcases h cell outcome away hStored hRoot with hMem | hSome
  · exact hTrail hMem
  · rw [hAway] at hSome
    cases hSome

end Memo.Rooted

namespace Sheet

variable {sheet : Sheet} {trail : Trail} {cell : Address} {memo : Memo}

theorem root_mem_of_follow (formula : Formula) {root : Address}
    (hRoot : (((formula.itinerary sheet).follow (sheet.resolveFully trail)).run memo).1.root =
      some root) : root ∈ trail := by
  have hEnds := formula.itinerary_ends sheet fun _ outcome =>
    ∀ root, outcome.root = some root → root ∈ trail
  have hEnd := (hEnds.follow (I := fun _ => True) (fun other _ later _ =>
    ⟨root_mem_trail sheet trail other later, trivial⟩) memo trivial).1
  rcases hEnd with ⟨value, _, hValue⟩ | ⟨_, _, _, _, hOther, _⟩
  · rw [hValue] at hRoot
    cases hRoot
  · exact hOther root hRoot

theorem root_mem_of_computeFully (formula : Formula) {root : Address}
    (hRoot : ((sheet.computeFully cell formula
      (sheet.resolveFully (trail.insert cell))).run memo).1.root = some root) : root ∈ trail := by
  rw [run_computeFully] at hRoot
  obtain ⟨hRoot, hCell⟩ := Outcome.root_closeLoop.mp hRoot
  exact (mem_insert_iff.mp (root_mem_of_follow formula hRoot)).resolve_left hCell

theorem computeFully_rooted (formula : Formula)
    (hReach : ∀ other later, later.Rooted (trail.insert cell) →
      ((sheet.resolveFully (trail.insert cell) other).run later).2.Rooted (trail.insert cell))
    (hMemo : memo.Rooted trail) :
    ((sheet.computeFully cell formula
      (sheet.resolveFully (trail.insert cell))).run memo).2.Rooted trail := by
  have hBody := Itinerary.follow_keeps hReach (formula.itinerary sheet) (hMemo.enter cell)
  have hRoot := fun root => @root_mem_of_computeFully sheet trail cell memo formula root
  rw [run_computeFully] at hRoot ⊢
  exact hBody.leave hRoot

theorem resolveFully_rooted (sheet : Sheet) (trail : Trail) : ∀ cell memo, memo.Rooted trail →
    ((sheet.resolveFully trail cell).run memo).2.Rooted trail := by
  induction trail using trail_induction sheet with
  | step trail ih =>
    intro cell memo hMemo
    cases hKnown : memo.known? trail cell with
    | some outcome => rwa [resolveFully_known hKnown]
    | none =>
      cases hFormula : sheet.formula? cell with
      | none => rwa [resolveFully_text hKnown hFormula]
      | some formula =>
        have hCell := Memo.not_mem_of_known?_eq_none hKnown
        rw [resolveFully_formula hKnown hFormula]
        exact computeFully_rooted formula (ih cell hCell (Option.isSome_of_eq_some hFormula)) hMemo

end Sheet

theorem Query.answerFully_rooted (sheet : Sheet) (query : Query) {memo : Memo}
    (hMemo : memo.Rooted ∅) : ((query.answerFully sheet ∅).run memo).2.Rooted ∅ := by
  cases query with
  | stored cell => exact sheet.resolveFully_rooted ∅ cell memo hMemo
  | typed text cell =>
    cases hText : Formula.ofText? text with
    | none =>
      simp only [answerFully, hText]
      exact hMemo
    | some formula =>
      rw [run_answerFully_typed hText]
      cases hKnown : memo.known? ∅ cell with
      | some outcome => exact hMemo
      | none => exact Sheet.computeFully_rooted formula (sheet.resolveFully_rooted _) hMemo
  | loose text =>
    cases hText : Formula.ofText? text with
    | none =>
      simp only [answerFully, hText]
      exact hMemo
    | some formula =>
      simp only [answerFully, hText, Formula.outcome_eq_follow]
      exact Itinerary.follow_keeps (sheet.resolveFully_rooted ∅) (formula.itinerary sheet) hMemo

theorem Memo.Rooted.after (sheet : Sheet) (queries : List Query) {memo : Memo}
    (h : memo.Rooted ∅) : (memo.after sheet queries).Rooted ∅ := by
  induction queries generalizing memo with
  | nil => exact h
  | cons query queries ih => exact ih (query.answerFully_rooted sheet h)

end FormulaGrid
