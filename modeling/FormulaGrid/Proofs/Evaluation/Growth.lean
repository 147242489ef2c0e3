import FormulaGrid.Proofs.Evaluation.Endings
import FormulaGrid.Proofs.Evaluation.Unbounded

/-!
# Growth of the memo

Plain recursion only ever adds to the memo: outcomes of formula cells that were neither known nor in
progress. What it has added is enough to answer the same question again, so that going over the
same ground a second time, with a memo that has grown meanwhile, changes nothing.
-/

set_option autoImplicit false

namespace FormulaGrid

structure Memo.GrowsTo (sheet : Sheet) (memo later : Memo) : Prop where
  keeps : ∀ cell outcome, memo.get? cell = some outcome → later.get? cell = some outcome
  adds : ∀ cell outcome, memo.get? cell = none → later.get? cell = some outcome →
    (sheet.formula? cell).isSome

namespace Memo.GrowsTo

variable {sheet : Sheet} {memo later latest : Memo}

theorem refl (memo : Memo) : memo.GrowsTo sheet memo where
  keeps _ _ h := h
  adds cell outcome hNone hSome := by
    rw [hNone] at hSome
    cases hSome

theorem trans (h : memo.GrowsTo sheet later) (h' : later.GrowsTo sheet latest) :
    memo.GrowsTo sheet latest where
  keeps cell outcome hCell := h'.keeps cell outcome (h.keeps cell outcome hCell)
  adds cell outcome hNone hSome := by
    cases hLater : later.get? cell with
    | none => exact h'.adds cell outcome hLater hSome
    | some _ => exact h.adds cell _ hNone hLater

theorem insert {cell : Address} (hMemo : memo.get? cell = none)
    (hFormula : (sheet.formula? cell).isSome) (outcome : Outcome) :
    memo.GrowsTo sheet (memo.insert cell outcome) where
  keeps other kept hOther := by
    rw [Memo.get?_insert, if_neg]
    · exact hOther
    · rintro rfl
      rw [hMemo] at hOther
      cases hOther
  adds other new hNone hSome := by
    rw [Memo.get?_insert] at hSome
    split at hSome
    · rename_i hCell
      exact hCell ▸ hFormula
    · rw [hNone] at hSome
      cases hSome

theorem get?_eq_none (h : memo.GrowsTo sheet later) {cell : Address}
    (hMemo : memo.get? cell = none) (hText : sheet.formula? cell = none) :
    later.get? cell = none := by
  cases hLater : later.get? cell with
  | none => rfl
  | some outcome =>
    have hFormula := h.adds cell outcome hMemo hLater
    rw [hText] at hFormula
    cases hFormula

end Memo.GrowsTo

structure Steady (sheet : Sheet) (trail : Trail) (act : StateM Memo Outcome) (memo : Memo) :
    Prop where
  grows : memo.GrowsTo sheet (act.run memo).2
  frame : ∀ cell ∈ trail, (act.run memo).2.get? cell = memo.get? cell
  /-- A second run from a memo that has grown since the first changes nothing. -/
  replays : ∀ later, (act.run memo).2.GrowsTo sheet later →
    act.run later = ((act.run memo).1, later)

namespace Itinerary

theorem follow_steady {sheet : Sheet} {trail : Trail} {reach : Address → StateM Memo Outcome}
    (hReach : ∀ cell memo, Steady sheet trail (reach cell) memo) (itinerary : Itinerary)
    (memo : Memo) : Steady sheet trail (itinerary.follow reach) memo := by
  induction itinerary generalizing memo with
  | arrive outcome => exact ⟨.refl memo, fun _ _ => rfl, fun _ _ => rfl⟩
  | visit cell next ih =>
    have hFirst := hReach cell memo
    have hRest := ih ((reach cell).run memo).1 ((reach cell).run memo).2
    refine ⟨hFirst.grows.trans hRest.grows, ?_, ?_⟩
    · intro other hOther
      exact (hRest.frame other hOther).trans (hFirst.frame other hOther)
    · intro later hLater
      have hAgain := hFirst.replays later (hRest.grows.trans hLater)
      rw [run_visit, run_visit, hAgain]
      exact hRest.replays later hLater

theorem follow_keeps {P : Memo → Prop} {reach : Address → StateM Memo Outcome}
    (hReach : ∀ cell memo, P memo → P ((reach cell).run memo).2) (itinerary : Itinerary)
    {memo : Memo} (hMemo : P memo) : P ((itinerary.follow reach).run memo).2 := by
  induction itinerary generalizing memo with
  | arrive outcome => exact hMemo
  | visit cell next ih => exact ih _ (hReach cell memo hMemo)

end Itinerary

theorem Outcome.root_closeLoop {outcome : Outcome} {cell root : Address} :
    (outcome.closeLoop cell).root = some root ↔ outcome.root = some root ∧ root ≠ cell := by
  rw [closeLoop]
  split
  · simp_all [settled, eq_comm]
  · rename_i hCell
    refine ⟨fun h => ⟨h, ?_⟩, And.left⟩
    rintro rfl
    exact hCell h

theorem Outcome.value_closeLoop (outcome : Outcome) (cell : Address) :
    (outcome.closeLoop cell).value = outcome.value := by
  rw [closeLoop]
  split <;> rfl

theorem Outcome.root_eq_none {outcome : Outcome}
    (h : ∀ root, outcome.root = some root → root ∈ (∅ : Trail)) : outcome.root = none := by
  rw [Option.eq_none_iff_forall_ne_some]
  intro root hRoot
  exact Std.ExtTreeSet.not_mem_empty (h root hRoot)

theorem Outcome.root_onTrail {outcome : Outcome} {trail : Trail} {root : Address} :
    (outcome.onTrail trail).root = some root ↔ outcome.root = some root ∧ root ∈ trail := by
  simp [onTrail, Option.filter_eq_some_iff]

theorem Outcome.onTrail_eq_self {outcome : Outcome} {trail : Trail}
    (hRoot : ∀ root, outcome.root = some root → root ∈ trail) :
    outcome.onTrail trail = outcome := by
  cases outcome with
  | mk value root =>
    cases root with
    | none => rfl
    | some root => simp [onTrail, Option.filter, hRoot root rfl]

namespace Sheet

variable {sheet : Sheet} {trail : Trail} {cell : Address}

theorem root_mem_of_known? {memo : Memo} {outcome : Outcome} {root : Address}
    (hKnown : memo.known? trail cell = some outcome) (hRoot : outcome.root = some root) :
    root ∈ trail := by
  rw [Memo.known?] at hKnown
  split at hKnown
  · cases hKnown
    cases hRoot
    assumption
  · obtain ⟨stored, _, rfl⟩ := Option.map_eq_some_iff.mp hKnown
    exact (Outcome.root_onTrail.mp hRoot).2

theorem mem_insert_iff {trail : Trail} {other : Address} :
    other ∈ trail.insert cell ↔ other = cell ∨ other ∈ trail := by
  rw [Std.ExtTreeSet.mem_insert, Std.LawfulEqCmp.compare_eq_iff_eq, eq_comm]

theorem mem_insert_self (trail : Trail) (cell : Address) : cell ∈ trail.insert cell :=
  mem_insert_iff.mpr (.inl rfl)

theorem mem_insert_of_mem {trail : Trail} {other : Address} (h : other ∈ trail) (cell : Address) :
    other ∈ trail.insert cell :=
  mem_insert_iff.mpr (.inr h)

theorem root_mem_trail (sheet : Sheet) (trail : Trail) : ∀ cell memo root,
    ((sheet.resolveFully trail cell).run memo).1.root = some root → root ∈ trail := by
  induction trail using trail_induction sheet with
  | step trail ih =>
    intro cell memo root hRoot
    cases hKnown : memo.known? trail cell with
    | some outcome =>
      rw [resolveFully_known hKnown] at hRoot
      exact root_mem_of_known? hKnown hRoot
    | none =>
      cases hFormula : sheet.formula? cell with
      | none =>
        rw [resolveFully_text hKnown hFormula] at hRoot
        cases hRoot
      | some formula =>
        rw [resolveFully_formula hKnown hFormula, run_computeFully] at hRoot
        obtain ⟨hRoot, hCell⟩ := Outcome.root_closeLoop.mp hRoot
        have hEnds := formula.itinerary_ends sheet fun _ outcome =>
          ∀ root, outcome.root = some root → root ∈ trail.insert cell
        have hIsFormula : (sheet.formula? cell).isSome := Option.isSome_of_eq_some hFormula
        have hEnd := (hEnds.follow (I := fun _ => True) (fun other _ later _ =>
          ⟨ih cell (Memo.not_mem_of_known?_eq_none hKnown) hIsFormula other later, trivial⟩)
          memo trivial).1
        rcases hEnd with ⟨value, _, hValue⟩ | ⟨_, other, _, _, hOther, _⟩
        · rw [hValue] at hRoot
          cases hRoot
        · exact (mem_insert_iff.mp (hOther root hRoot)).resolve_left hCell

theorem known?_of_growsTo {memo later : Memo} {outcome : Outcome}
    (hKnown : memo.known? trail cell = some outcome) (hLater : memo.GrowsTo sheet later) :
    later.known? trail cell = some outcome := by
  rw [Memo.known?] at hKnown ⊢
  split
  · rwa [if_pos ‹_›] at hKnown
  · rw [if_neg ‹_›] at hKnown
    obtain ⟨stored, hStored, rfl⟩ := Option.map_eq_some_iff.mp hKnown
    rw [hLater.keeps cell stored hStored]
    rfl

theorem resolveFully_steady (sheet : Sheet) (trail : Trail) : ∀ cell memo,
    Steady sheet trail (sheet.resolveFully trail cell) memo := by
  induction trail using trail_induction sheet with
  | step trail ih =>
    intro cell memo
    cases hKnown : memo.known? trail cell with
    | some outcome =>
      have hRun : (sheet.resolveFully trail cell).run memo = (outcome, memo) :=
        resolveFully_known hKnown
      refine ⟨?_, ?_, ?_⟩
      · rw [hRun]
        exact .refl memo
      · intro other _
        rw [hRun]
      · intro later hLater
        rw [hRun] at hLater ⊢
        exact resolveFully_known (known?_of_growsTo hKnown hLater)
    | none =>
      have hCell := Memo.not_mem_of_known?_eq_none hKnown
      have hMemo := Memo.get?_of_known?_eq_none hKnown
      cases hFormula : sheet.formula? cell with
      | none =>
        have hRun := resolveFully_text hKnown hFormula
        refine ⟨?_, ?_, ?_⟩
        · rw [hRun]
          exact .refl memo
        · intro other _
          rw [hRun]
        · intro later hLater
          rw [hRun] at hLater ⊢
          have hLater := hLater.get?_eq_none hMemo hFormula
          exact resolveFully_text (Memo.known?_eq_none hCell hLater) hFormula
      | some formula =>
        have hIsFormula : (sheet.formula? cell).isSome := Option.isSome_of_eq_some hFormula
        have hBody := Itinerary.follow_steady (ih cell hCell hIsFormula)
          (formula.itinerary sheet) memo
        have hRoot := root_mem_trail sheet trail cell memo
        have hRun := resolveFully_formula hKnown hFormula
        rw [run_computeFully] at hRun
        refine ⟨?_, ?_, ?_⟩
        · rw [hRun]
          refine hBody.grows.trans (.insert ?_ hIsFormula _)
          exact (hBody.frame cell (mem_insert_self trail cell)).trans hMemo
        · intro other hOther
          rw [hRun, Memo.get?_insert, if_neg]
          · exact hBody.frame other (mem_insert_of_mem hOther cell)
          · rintro rfl
            exact hCell hOther
        · intro later hLater
          rw [hRun] at hLater hRoot ⊢
          apply resolveFully_known
          rw [Memo.known?, if_neg hCell, hLater.keeps cell _ (by rw [Memo.get?_insert, if_pos rfl])]
          exact congrArg some (Outcome.onTrail_eq_self hRoot)

end Sheet
end FormulaGrid
