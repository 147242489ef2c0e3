import FormulaGrid.Evaluation.Memo
import FormulaGrid.Proofs.Evaluation.Itinerary
import FormulaGrid.Proofs.Sheet.References

/-!
# How formulas end

A formula visits no cells but those it refers to. It ends with a value of its own, which is a finite
number or a failure other than that of a loop, or it is a chain and ends with the outcome of an
operand on an open loop.
-/

set_option autoImplicit false

namespace FormulaGrid

def Value.Plain : Value → Prop
  | number x => x.toFloat.isFinite = true
  | text _ => False
  | fault f => f ≠ .circular

theorem Value.plain_ofFloat (x : Float) : (ofFloat x).Plain := by
  rw [ofFloat]
  split
  · assumption
  · intro h
    cases h

theorem Chain.totalAfter_error {combine : Float → Float} {term : Float}
    {links : List (Operator × Float)} {f : Fault} (h : totalAfter combine term links = .error f) :
    f = .zeroDivisor := by
  induction links generalizing combine term with
  | nil => cases h
  | cons link links ih =>
    obtain ⟨op, x⟩ := link
    cases op with
    | add => exact ih h
    | sub => exact ih h
    | mul => exact ih h
    | div =>
      rw [totalAfter] at h
      split at h
      · cases h
        rfl
      · exact ih h

theorem Chain.plain_ofResult_total (numbers : Chain Float) :
    (Value.ofResult numbers.total).Plain := by
  cases hTotal : numbers.total with
  | ok x => exact Value.plain_ofFloat x
  | error f =>
    rw [Chain.totalAfter_error hTotal]
    intro h
    cases h

theorem Value.Plain.ne_circular {value : Value} (h : value.Plain) : value ≠ .fault .circular := by
  rintro rfl
  exact h rfl

theorem Value.Plain.ne_text {value : Value} (h : value.Plain) (s : String) : value ≠ .text s := by
  rintro rfl
  exact h

namespace Itinerary

/-- All visits are to cells of `S`, and when each visit has an outcome as `R` allows, the outcome at
the end has the property `P`. -/
def Ends (S : Address → Prop) (R : Address → Outcome → Prop) (P : Outcome → Prop) :
    Itinerary → Prop
  | arrive outcome => P outcome
  | visit cell next => S cell ∧ ∀ outcome, R cell outcome → (next outcome).Ends S R P

theorem run_visit {σ : Type} {reach : Address → StateM σ Outcome} {cell : Address}
    {next : Outcome → Itinerary} {state : σ} :
    ((visit cell next).follow reach).run state =
      ((next ((reach cell).run state).1).follow reach).run ((reach cell).run state).2 :=
  rfl

variable {S : Address → Prop} {R : Address → Outcome → Prop} {P : Outcome → Prop}

theorem Ends.follow {itinerary : Itinerary} (h : itinerary.Ends S R P) {σ : Type} {I : σ → Prop}
    {reach : Address → StateM σ Outcome}
    (hReach : ∀ cell, S cell → ∀ state, I state →
      R cell ((reach cell).run state).1 ∧ I ((reach cell).run state).2)
    (state : σ) (hState : I state) :
    P ((itinerary.follow reach).run state).1 ∧ I ((itinerary.follow reach).run state).2 := by
  induction itinerary generalizing state with
  | arrive outcome => exact ⟨h, hState⟩
  | visit cell next ih =>
    obtain ⟨hCell, hNext⟩ := h
    obtain ⟨hOutcome, hAfter⟩ := hReach cell hCell state hState
    rw [run_visit]
    exact ih _ (hNext _ hOutcome) _ hAfter

theorem sumFrom_ends {cells : List Address} (total : Float) (hCells : ∀ cell ∈ cells, S cell)
    (hSum : ∀ x, P (.settled (.ofFloat x))) : (sumFrom cells total).Ends S R P := by
  induction cells generalizing total with
  | nil => exact hSum total
  | cons cell cells ih =>
    rw [List.forall_mem_cons] at hCells
    exact ⟨hCells.1, fun outcome _ => ih (addReading total outcome) hCells.2⟩

theorem operand_ends {next : Float → Itinerary} {x : Operand}
    (hCell : ∀ cell, x = .cell cell → S cell)
    (hOpen : ∀ cell, x = .cell cell → ∀ outcome, R cell outcome → outcome.root.isSome → P outcome)
    (hFault : ∀ f, f ≠ .circular → P (.fault f)) (hNext : ∀ y, (next y).Ends S R P) :
    (operand next x).Ends S R P := by
  cases x with
  | number y => exact hNext y
  | unreadable => exact hFault _ (by decide)
  | cell address =>
    refine ⟨hCell address rfl, fun outcome hOutcome => ?_⟩
    cases hRoot : outcome.root with
    | some root =>
      simp only [Outcome.toOperand_of_root hRoot]
      exact hOpen address rfl outcome hOutcome (by rw [hRoot]; rfl)
    | none =>
      cases hNumber : outcome.value.toNumber with
      | ok y =>
        simp only [Outcome.toOperand_of_number hRoot hNumber]
        exact hNext _
      | error f =>
        simp only [Outcome.toOperand_of_fault hRoot hNumber]
        rw [Value.toNumber_error hNumber]
        exact hFault _ (by decide)

theorem links_ends {rest : List (Operator × Operand)}
    {next : List (Operator × Float) → Itinerary}
    (hCell : ∀ cell, .cell cell ∈ rest.map Prod.snd → S cell)
    (hOpen : ∀ cell, .cell cell ∈ rest.map Prod.snd → ∀ outcome, R cell outcome →
      outcome.root.isSome → P outcome)
    (hFault : ∀ f, f ≠ .circular → P (.fault f)) (hNext : ∀ ys, (next ys).Ends S R P) :
    (links rest next).Ends S R P := by
  induction rest generalizing next with
  | nil => exact hNext []
  | cons link rest ih =>
    rw [List.map_cons] at hCell hOpen
    have hLink : ∀ cell, link.2 = .cell cell → .cell cell ∈ link.2 :: rest.map Prod.snd := by
      rintro cell hCell
      rw [hCell]
      exact List.mem_cons_self
    apply operand_ends (fun cell h => hCell cell (hLink cell h))
      (fun cell h => hOpen cell (hLink cell h)) hFault
    intro y
    exact ih (fun cell h => hCell cell (List.mem_cons_of_mem _ h))
      (fun cell h => hOpen cell (List.mem_cons_of_mem _ h)) fun ys => hNext _

theorem chain_ends {operands : Chain Operand}
    (hCell : ∀ cell, .cell cell ∈ operands.toList → S cell)
    (hOpen : ∀ cell, .cell cell ∈ operands.toList → ∀ outcome, R cell outcome →
      outcome.root.isSome → P outcome)
    (hFault : ∀ f, f ≠ .circular → P (.fault f))
    (hTotal : ∀ numbers : Chain Float, P (.settled (.ofResult numbers.total))) :
    (chain operands).Ends S R P := by
  rw [Chain.toList] at hCell hOpen
  have hFirst : ∀ cell, operands.first = .cell cell →
      .cell cell ∈ operands.first :: operands.links.map Prod.snd := by
    rintro cell hCell
    rw [hCell]
    exact List.mem_cons_self
  apply operand_ends (fun cell h => hCell cell (hFirst cell h))
    (fun cell h => hOpen cell (hFirst cell h)) hFault
  intro x
  exact links_ends (fun cell h => hCell cell (List.mem_cons_of_mem _ h))
    (fun cell h => hOpen cell (List.mem_cons_of_mem _ h)) hFault fun xs => hTotal ⟨x, xs⟩

end Itinerary

namespace Formula

def EndsWith (R : Address → Outcome → Prop) (formula : Formula) (outcome : Outcome) : Prop :=
  (∃ value : Value, value.Plain ∧ outcome = .settled value) ∨
  ∃ operands cell, formula = .chain operands ∧ .cell cell ∈ operands.toList ∧
    R cell outcome ∧ outcome.root.isSome

theorem itinerary_ends (sheet : Sheet) (R : Address → Outcome → Prop) (formula : Formula) :
    (formula.itinerary sheet).Ends (· ∈ formula.references sheet) R (formula.EndsWith R) := by
  cases formula with
  | blank =>
    have hZero : (0.0 : Float).isFinite = true := by decide +kernel
    exact .inl ⟨.number (.float 0.0), hZero, rfl⟩
  | malformed =>
    have hInvalid : Fault.invalid ≠ .circular := by decide
    exact .inl ⟨.fault .invalid, hInvalid, rfl⟩
  | sum block =>
    exact Itinerary.sumFrom_ends 0.0 (fun _ h => h) fun x => .inl ⟨_, Value.plain_ofFloat x, rfl⟩
  | chain operands =>
    apply Itinerary.chain_ends
    · intro cell h
      exact List.mem_filterMap.mpr ⟨_, h, rfl⟩
    · intro cell h outcome hOutcome hRoot
      exact .inr ⟨operands, cell, rfl, h, hOutcome, hRoot⟩
    · exact fun f hf => .inl ⟨.fault f, hf, rfl⟩
    · exact fun numbers => .inl ⟨_, Chain.plain_ofResult_total numbers, rfl⟩

end Formula
end FormulaGrid
