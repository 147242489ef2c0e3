import FormulaGrid.Proofs.Evaluation.Visits

/-!
# Memos that hold values

A memo is sound below a trail when its outcomes have the values of their cells and it holds with a
chain also the cell that the chain blames. While a loop is open its root is the one cell that may be
missing. No blame leads then from a settled cell to a cell in progress, so a settled cell is on no
loop that is still to be closed.
-/

set_option autoImplicit false

namespace FormulaGrid

open Relation

theorem Memo.isSome_get?_insert {memo : Memo} {cell other : Address} {outcome : Outcome} :
    ((memo.insert cell outcome).get? other).isSome ↔
      cell = other ∨ (memo.get? other).isSome := by
  rw [get?_insert]
  split <;> simp [*]

namespace Sheet

/-- What plain recursion keeps of a memo below a trail, while the loop of a root may be open. -/
structure Sound (sheet : Sheet) (value : Address → Value) (trail : Trail) (memo : Memo)
    (openRoot : Option Address) : Prop where
  values : ∀ cell outcome, memo.get? cell = some outcome → outcome.value = value cell
  apart : ∀ cell ∈ trail, memo.get? cell = none
  roots : ∀ cell outcome root, memo.get? cell = some outcome → outcome.root = some root →
    (memo.get? root).isSome ∨ openRoot = some root
  /-- With a chain the memo holds the formula cell that it blames. -/
  closed : ∀ cell other, (memo.get? cell).isSome → sheet.Blames value cell other →
    (sheet.formula? other).isSome → (memo.get? other).isSome ∨ openRoot = some other

variable {sheet : Sheet} {value : Address → Value} {trail : Trail} {cell other : Address}
  {memo : Memo} {outcome : Outcome}

theorem Sound.empty : sheet.Sound value ∅ .empty none where
  values cell outcome h := by
    rw [Memo.get?_empty] at h
    cases h
  apart cell _ := Memo.get?_empty cell
  roots cell outcome root h := by
    rw [Memo.get?_empty] at h
    cases h
  closed cell other h := by
    rw [Memo.get?_empty] at h
    cases h

theorem Sound.opened (h : sheet.Sound value trail memo none) (openRoot : Option Address) :
    sheet.Sound value trail memo openRoot where
  values := h.values
  apart := h.apart
  roots other outcome root hStored hRoot :=
    .inl ((h.roots other outcome root hStored hRoot).resolve_right (by simp))
  closed other third hStored hThird hFormula :=
    .inl ((h.closed other third hStored hThird hFormula).resolve_right (by simp))

theorem Sound.enter (h : sheet.Sound value trail memo none) (hMemo : memo.get? cell = none) :
    sheet.Sound value (trail.insert cell) memo none where
  values := h.values
  apart other hOther := by
    rcases mem_insert_iff.mp hOther with rfl | hOther
    · exact hMemo
    · exact h.apart other hOther
  roots := h.roots
  closed := h.closed

theorem stored_or_open_insert (h : (memo.get? other).isSome ∨ outcome.root = some other) :
    ((memo.insert cell (outcome.closeLoop cell)).get? other).isSome ∨
      (outcome.closeLoop cell).root = some other := by
  rw [Memo.isSome_get?_insert, Outcome.root_closeLoop]
  by_cases hSame : cell = other
  · exact .inl (.inl hSame)
  · rcases h with hStored | hRoot
    · exact .inl (.inr hStored)
    · exact .inr ⟨hRoot, Ne.symm hSame⟩

theorem Sound.leave (h : sheet.Sound value (trail.insert cell) memo outcome.root)
    (hCell : cell ∉ trail) (hValue : outcome.value = value cell)
    (hBlames : ∀ other, sheet.Blames value cell other → (sheet.formula? other).isSome →
      (memo.get? other).isSome ∨ outcome.root = some other) :
    sheet.Sound value trail (memo.insert cell (outcome.closeLoop cell))
      (outcome.closeLoop cell).root where
  values other stored hStored := by
    rw [Memo.get?_insert] at hStored
    split at hStored
    · rename_i hSame
      cases hStored
      rw [Outcome.value_closeLoop, hValue, hSame]
    · exact h.values other stored hStored
  apart other hOther := by
    rw [Memo.get?_insert, if_neg]
    · exact h.apart other (mem_insert_of_mem hOther cell)
    · rintro rfl
      exact hCell hOther
  roots other stored root hStored hRoot := by
    rw [Memo.get?_insert] at hStored
    split at hStored
    · cases hStored
      exact .inr hRoot
    · exact stored_or_open_insert (h.roots other stored root hStored hRoot)
  closed other third hStored hThird hFormula := by
    apply stored_or_open_insert
    rcases Memo.isSome_get?_insert.mp hStored with rfl | hStored
    · exact hBlames third hThird hFormula
    · exact h.closed other third hStored hThird hFormula

/-- A cell has no way back by blame to a cell in progress once it is settled. -/
theorem Sound.not_reflTransGen (h : sheet.Sound value trail memo none)
    (hStored : (memo.get? cell).isSome) (hOther : other ∈ trail)
    (hFormula : (sheet.formula? other).isSome) :
    ¬ ReflTransGen (sheet.Blames value) cell other := by
  intro hPath
  have hAll : ∀ middle, ReflTransGen (sheet.Blames value) cell middle →
      (sheet.formula? middle).isSome → (memo.get? middle).isSome := by
    intro middle hMiddle
    induction hMiddle with
    | refl => exact fun _ => hStored
    | tail _ hBlames ih =>
      intro hFormula
      rcases h.closed _ _ (ih hBlames.refers.isFormula) hBlames hFormula with hThere | hOpen
      · exact hThere
      · cases hOpen
  have hThere := hAll other hPath hFormula
  rw [h.apart other hOther] at hThere
  cases hThere

structure Settles (sheet : Sheet) (value : Address → Value) (trail : Trail) (cell : Address)
    (result : Outcome × Memo) : Prop where
  sound : sheet.Sound value trail result.2 result.1.root
  settled : result.1.root = none → result.1.value = value cell ∧
    ((sheet.formula? cell).isSome → (result.2.get? cell).isSome)
  looping : ∀ root, result.1.root = some root → result.1.value = .fault .circular ∧ root ∈ trail ∧
    ReflTransGen (sheet.Blames value) cell root ∧ ((result.2.get? cell).isSome ∨ cell = root)

theorem Settles.sound_of_root {result : Outcome × Memo}
    (h : sheet.Settles value trail cell result) (hRoot : result.1.root = none) :
    sheet.Sound value trail result.2 none := by
  rw [← hRoot]
  exact h.sound

theorem Sound.settles_of_known? (h : sheet.Sound value trail memo none)
    (hKnown : memo.known? trail cell = some outcome) :
    sheet.Settles value trail cell (outcome, memo) := by
  rw [Memo.known?] at hKnown
  split at hKnown
  · rename_i hCell
    cases hKnown
    refine ⟨h.opened _, ?_, ?_⟩
    · intro hRoot
      cases hRoot
    · rintro root ⟨⟩
      exact ⟨rfl, hCell, .refl, .inr rfl⟩
  · obtain ⟨stored, hStored, rfl⟩ := Option.map_eq_some_iff.mp hKnown
    -- A root on the trail would have an outcome of its own.
    have hRoot : (stored.onTrail trail).root = none := by
      rw [Option.eq_none_iff_forall_ne_some]
      intro root hRoot
      obtain ⟨hRoot, hMem⟩ := Outcome.root_onTrail.mp hRoot
      have hThere := (h.roots cell stored root hStored hRoot).resolve_right (by simp)
      rw [h.apart root hMem] at hThere
      cases hThere
    refine ⟨h.opened _, fun _ => ⟨h.values cell stored hStored, fun _ => ?_⟩, ?_⟩
    · rw [hStored]
      rfl
    · intro root hOpen
      rw [hRoot] at hOpen
      cases hOpen

/-- What computing a cell comes to, before the cell is left. -/
structure Computes (sheet : Sheet) (value : Address → Value) (trail : Trail) (cell : Address)
    (body : Outcome × Memo) : Prop where
  sound : sheet.Sound value (trail.insert cell) body.2 body.1.root
  value_eq : body.1.value = value cell
  blames : ∀ other, sheet.Blames value cell other → (sheet.formula? other).isSome →
    (body.2.get? other).isSome ∨ body.1.root = some other
  looping : ∀ root, body.1.root = some root → body.1.value = .fault .circular ∧
    root ∈ trail.insert cell ∧ ReflTransGen (sheet.Blames value) cell root

theorem Computes.settles {body : Outcome × Memo} (h : sheet.Computes value trail cell body)
    (hCell : cell ∉ trail) : sheet.Settles value trail cell
      (body.1.closeLoop cell, body.2.insert cell (body.1.closeLoop cell)) := by
  have hValue := Outcome.value_closeLoop body.1 cell
  have hStored : ((body.2.insert cell (body.1.closeLoop cell)).get? cell).isSome :=
    Memo.isSome_get?_insert.mpr (.inl rfl)
  refine ⟨h.sound.leave hCell h.value_eq h.blames, ?_, ?_⟩
  · exact fun _ => ⟨hValue.trans h.value_eq, fun _ => hStored⟩
  · intro root hRoot
    obtain ⟨hRoot, hOther⟩ := Outcome.root_closeLoop.mp hRoot
    obtain ⟨hCircular, hMem, hPath⟩ := h.looping root hRoot
    exact ⟨hValue.trans hCircular, (mem_insert_iff.mp hMem).resolve_left hOther, hPath,
      .inl hStored⟩

theorem Computes.of_settled {found : Value}
    (hMemo : sheet.Sound value (trail.insert cell) memo none) (hValue : found = value cell)
    (hBlames : ∀ other, sheet.Blames value cell other → (sheet.formula? other).isSome →
      (memo.get? other).isSome) : sheet.Computes value trail cell (.settled found, memo) where
  sound := hMemo
  value_eq := hValue
  blames other hOther hFormula := .inl (hBlames other hOther hFormula)
  looping root hRoot := by cases hRoot

theorem Computes.of_no_chain {found : Value}
    (hMemo : sheet.Sound value (trail.insert cell) memo none) (hValue : found = value cell)
    (hChain : ∀ operands, sheet.formula? cell ≠ some (.chain operands)) :
    sheet.Computes value trail cell (.settled found, memo) := by
  apply Computes.of_settled hMemo hValue
  rintro other ⟨operands, hFormula, _⟩
  exact absurd hFormula (hChain operands)

end Sheet
end FormulaGrid
