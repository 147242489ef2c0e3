import FormulaGrid.Proofs.Sheet.References

/-!
# Values of a sheet

What each cell of a sheet is worth, without evaluating anything in any order. Values are given by a
rule for each kind of cell, in terms of the values of the cells it refers to. A chain that fails
blames the first operand without a number; it is circular if blame leads back to it. Where no sum
lies on a loop there are values that obey the rule and give no number to a cell on a loop.
-/

set_option autoImplicit false

namespace FormulaGrid

open Relation

def Value.number? (value : Value) : Option Float :=
  match value.toNumber with
  | .ok x => some x.toFloat
  | .error _ => none

def Operand.number? (value : Address → Value) : Operand → Option Float
  | number x => some x
  | cell address => (value address).number?
  | unreadable => none

def Chain.failing? (value : Address → Value) (operands : Chain Operand) : Option Operand :=
  operands.toList.find? fun x => (x.number? value).isNone

theorem Chain.failing?_eq_some_iff {value : Address → Value} {operands : Chain Operand}
    {x : Operand} : operands.failing? value = some x ↔ x.number? value = none ∧
      ∃ before after, operands.toList = before ++ x :: after ∧
        ∀ y ∈ before, (y.number? value).isSome := by
  rw [failing?, List.find?_eq_some_iff_append]
  simp

namespace Chain

variable {α β : Type} {f g : α → Option β}

theorem mapM_links_congr {links : List (Operator × α)}
    (h : ∀ x ∈ links.map Prod.snd, f x = g x) :
    (links.mapM fun link => do return (link.1, ← f link.2)) =
      links.mapM fun link => do return (link.1, ← g link.2) := by
  induction links with
  | nil => rfl
  | cons link links ih =>
    rw [List.map_cons, List.forall_mem_cons] at h
    rw [List.mapM_cons, List.mapM_cons, h.1, ih h.2]

theorem mapM_congr {chain : Chain α} (h : ∀ x ∈ chain.toList, f x = g x) :
    chain.mapM f = chain.mapM g := by
  rw [toList, List.forall_mem_cons] at h
  rw [mapM, mapM, h.1, mapM_links_congr h.2]

theorem mapM_links_eq_none_iff {links : List (Operator × α)} :
    (links.mapM fun link => do return (link.1, ← f link.2)) = none ↔
      ∃ x ∈ links.map Prod.snd, f x = none := by
  induction links with
  | nil => simp
  | cons link links ih =>
    rw [List.map_cons, List.exists_mem_cons_iff, ← ih, List.mapM_cons]
    cases f link.2 with
    | none => simp
    | some y =>
      cases links.mapM fun link => do return (link.1, ← f link.2) with
      | none => simp
      | some ys => simp

theorem mapM_eq_none_iff {chain : Chain α} :
    chain.mapM f = none ↔ ∃ x ∈ chain.toList, f x = none := by
  rw [toList, List.exists_mem_cons_iff, ← mapM_links_eq_none_iff, mapM]
  cases f chain.first with
  | none => simp
  | some y =>
    cases chain.links.mapM fun link => do return (link.1, ← f link.2) with
    | none => simp
    | some ys => simp

end Chain

namespace Sheet

/-- The first operand of the chain at `cell` that has no number is the cell `other`. -/
def Blames (sheet : Sheet) (value : Address → Value) (cell other : Address) : Prop :=
  ∃ operands, sheet.formula? cell = some (.chain operands) ∧
    operands.failing? value = some (.cell other)

open Classical in
noncomputable def rule (sheet : Sheet) (value : Address → Value) (cell : Address) : Value :=
  match sheet.formula? cell with
  | none => .text (sheet.text cell)
  | some .blank => .number (.float 0.0)
  | some .malformed => .fault .invalid
  | some (.sum block) =>
    let others := (sheet.cellsIn block).filter (· ≠ cell)
    .ofFloat ((others.filterMap fun other => (value other).number?).foldl (· + ·) 0.0)
  | some (.chain operands) =>
    match operands.mapM (Operand.number? value) with
    | some numbers => .ofResult numbers.total
    | none => if TransGen (sheet.Blames value) cell cell then .fault .circular
      else .fault .reference

def IsValuation (sheet : Sheet) (value : Address → Value) : Prop :=
  ∀ cell, value cell = sheet.rule value cell

/-- What a cell is worth: cells that lead to as much as the cell itself count as circular. -/
noncomputable def trueValue (sheet : Sheet) (cell : Address) : Value :=
  sheet.rule (fun other =>
    if sheet.reach other < sheet.reach cell then sheet.trueValue other else .fault .circular) cell
termination_by sheet.reach cell

variable {sheet : Sheet} {value value' : Address → Value} {cell other : Address}

theorem Blames.refers (h : sheet.Blames value cell other) : sheet.Refers cell other := by
  obtain ⟨operands, hFormula, hFailing⟩ := h
  exact (refers_of_chain hFormula).mpr (List.mem_of_find?_eq_some hFailing)

theorem Blames.number? (h : sheet.Blames value cell other) : (value other).number? = none := by
  obtain ⟨operands, _, hFailing⟩ := h
  exact (Chain.failing?_eq_some_iff.mp hFailing).1

theorem Blames.unique {third : Address} (h : sheet.Blames value cell other)
    (h' : sheet.Blames value cell third) : other = third := by
  obtain ⟨operands, hFormula, hFailing⟩ := h
  obtain ⟨operands', hFormula', hFailing'⟩ := h'
  rw [hFormula] at hFormula'
  cases hFormula'
  rw [hFailing] at hFailing'
  cases hFailing'
  rfl

theorem number?_congr {operands : Chain Operand}
    (hFormula : sheet.formula? cell = some (.chain operands))
    (hAgree : ∀ other, sheet.Refers cell other → (value other).number? = (value' other).number?) :
    ∀ x ∈ operands.toList, x.number? value = x.number? value' := by
  intro x hx
  cases x with
  | number x => rfl
  | unreadable => rfl
  | cell address => exact hAgree address ((refers_of_chain hFormula).mpr hx)

theorem Blames.congr
    (hAgree : ∀ other, sheet.Refers cell other → (value other).number? = (value' other).number?)
    (h : sheet.Blames value cell other) : sheet.Blames value' cell other := by
  obtain ⟨operands, hFormula, hFailing⟩ := h
  have hSame := number?_congr hFormula hAgree
  obtain ⟨hNone, before, after, hList, hBefore⟩ := Chain.failing?_eq_some_iff.mp hFailing
  rw [hList] at hSame
  refine ⟨operands, hFormula, Chain.failing?_eq_some_iff.mpr ⟨?_, before, after, hList, ?_⟩⟩
  · rw [← hSame _ (by simp), hNone]
  · intro x hx
    rw [← hSame x (List.mem_append_left _ hx)]
    exact hBefore x hx

theorem rule_sum {block : Block} (hFormula : sheet.formula? cell = some (.sum block)) :
    sheet.rule value cell = .ofFloat ((((sheet.cellsIn block).filter (· ≠ cell)).filterMap
      fun other => (value other).number?).foldl (· + ·) 0.0) := by
  rw [rule, hFormula]

theorem rule_numbers {operands : Chain Operand} {numbers : Chain Float}
    (hFormula : sheet.formula? cell = some (.chain operands))
    (hNumbers : operands.mapM (Operand.number? value) = some numbers) :
    sheet.rule value cell = .ofResult numbers.total := by
  simp only [rule, hFormula, hNumbers]

theorem rule_circular {operands : Chain Operand}
    (hFormula : sheet.formula? cell = some (.chain operands))
    (hNumbers : operands.mapM (Operand.number? value) = none)
    (hBlames : TransGen (sheet.Blames value) cell cell) :
    sheet.rule value cell = .fault .circular := by
  simp only [rule, hFormula, hNumbers, if_pos hBlames]

theorem rule_reference {operands : Chain Operand}
    (hFormula : sheet.formula? cell = some (.chain operands))
    (hNumbers : operands.mapM (Operand.number? value) = none)
    (hBlames : ¬ TransGen (sheet.Blames value) cell cell) :
    sheet.rule value cell = .fault .reference := by
  simp only [rule, hFormula, hNumbers, if_neg hBlames]

noncomputable def valueBelow (sheet : Sheet) (cell other : Address) : Value :=
  if sheet.reach other < sheet.reach cell then sheet.trueValue other else .fault .circular

theorem trueValue_eq (sheet : Sheet) (cell : Address) :
    sheet.trueValue cell = sheet.rule (sheet.valueBelow cell) cell := by
  rw [trueValue]
  rfl

theorem valueBelow_of_reflTransGen (hBack : ReflTransGen sheet.Refers other cell) :
    (sheet.valueBelow cell other).number? = none := by
  rw [valueBelow, if_neg (Nat.not_lt.mpr (reach_le hBack))]
  rfl

theorem trueValue_of_loop {operands : Chain Operand}
    (hFormula : sheet.formula? cell = some (.chain operands))
    (hLoop : TransGen sheet.Refers cell cell) : (sheet.trueValue cell).number? = none := by
  obtain ⟨next, hNext, hBack⟩ := TransGen.head'_iff.mp hLoop
  have hNumbers : operands.mapM (Operand.number? (sheet.valueBelow cell)) = none :=
    Chain.mapM_eq_none_iff.mpr
      ⟨.cell next, (refers_of_chain hFormula).mp hNext, valueBelow_of_reflTransGen hBack⟩
  rw [trueValue_eq]
  by_cases hBlames : TransGen (sheet.Blames (sheet.valueBelow cell)) cell cell
  · rw [rule_circular hFormula hNumbers hBlames]
    rfl
  · rw [rule_reference hFormula hNumbers hBlames]
    rfl

theorem reflTransGen_of_blames (h : ReflTransGen (sheet.Blames value) cell other) :
    ReflTransGen sheet.Refers cell other :=
  ReflTransGen.mono (fun _ _ h => Blames.refers h) _ _ h

/-- Blame that leads back to a cell rests on the numbers of what its loop refers to. -/
theorem transGen_blames_congr
    (hAgree : ∀ middle operands, sheet.formula? middle = some (.chain operands) →
      ReflTransGen sheet.Refers cell middle → ReflTransGen sheet.Refers middle cell →
      ∀ other, sheet.Refers middle other → (value other).number? = (value' other).number?)
    (h : TransGen (sheet.Blames value) cell cell) : TransGen (sheet.Blames value') cell cell := by
  have hFrom : ∀ middle, TransGen (sheet.Blames value) middle cell →
      ReflTransGen sheet.Refers cell middle → TransGen (sheet.Blames value') middle cell := by
    intro middle hMiddle
    induction hMiddle using TransGen.head_induction_on with
    | single hBlames =>
      intro hForth
      obtain ⟨operands, hFormula, _⟩ := id hBlames
      exact .single (hBlames.congr (hAgree _ operands hFormula hForth (.single hBlames.refers)))
    | head hBlames hRest ih =>
      intro hForth
      obtain ⟨operands, hFormula, _⟩ := id hBlames
      have hBack := ReflTransGen.head hBlames.refers (reflTransGen_of_blames hRest.to_reflTransGen)
      exact .head (hBlames.congr (hAgree _ operands hFormula hForth hBack))
        (ih (hForth.tail hBlames.refers))
  exact hFrom cell h .refl

theorem number?_valueBelow (hSums : sheet.SumsOffLoops) {start : Address}
    {operands : Chain Operand} (hFormula : sheet.formula? cell = some (.chain operands))
    (hForth : ReflTransGen sheet.Refers start cell) (hRefers : sheet.Refers cell other) :
    (sheet.valueBelow start other).number? = (sheet.trueValue other).number? := by
  rw [valueBelow]
  split
  · rfl
  · rename_i hReach
    have hStart := reach_le hForth
    have hBack : ReflTransGen sheet.Refers other cell := by
      by_contra hBack
      have hLess := reach_lt hRefers hBack
      omega
    have hLoop : TransGen sheet.Refers other other := .tail' hBack hRefers
    have hChain : ∃ operands, sheet.formula? other = some (.chain operands) := by
      by_cases hSame : other = cell
      · exact ⟨operands, hSame ▸ hFormula⟩
      · have hBack := (reflTransGen_iff_eq_or_transGen.mp hBack).resolve_left (Ne.symm hSame)
        exact hSums.chain (Ne.symm hSame) hBack (.single hRefers)
    obtain ⟨others, hOther⟩ := hChain
    exact (trueValue_of_loop hOther hLoop).symm

theorem rule_sum_congr {block : Block} (hFormula : sheet.formula? cell = some (.sum block))
    (hAgree : ∀ other ∈ sheet.cellsIn block, other ≠ cell →
      (value other).number? = (value' other).number?) :
    sheet.rule value cell = sheet.rule value' cell := by
  rw [rule_sum hFormula, rule_sum hFormula]
  congr 2
  apply List.filterMap_congr
  intro other hOther
  obtain ⟨hOther, hSame⟩ := List.mem_filter.mp hOther
  exact hAgree other hOther (by simpa using hSame)

theorem rule_chain_congr {operands : Chain Operand}
    (hFormula : sheet.formula? cell = some (.chain operands))
    (hNumbers : operands.mapM (Operand.number? value) = operands.mapM (Operand.number? value'))
    (hBlames : TransGen (sheet.Blames value) cell cell ↔ TransGen (sheet.Blames value') cell cell) :
    sheet.rule value cell = sheet.rule value' cell := by
  cases h : operands.mapM (Operand.number? value) with
  | some numbers => rw [rule_numbers hFormula h, rule_numbers hFormula (hNumbers ▸ h)]
  | none =>
    by_cases hLoop : TransGen (sheet.Blames value) cell cell
    · rw [rule_circular hFormula h hLoop, rule_circular hFormula (hNumbers ▸ h) (hBlames.mp hLoop)]
    · rw [rule_reference hFormula h hLoop,
        rule_reference hFormula (hNumbers ▸ h) (hBlames.not.mp hLoop)]

theorem trueValue_isValuation (hSums : sheet.SumsOffLoops) :
    sheet.IsValuation sheet.trueValue := by
  intro cell
  rw [trueValue_eq]
  cases hFormula : sheet.formula? cell with
  | none => simp only [rule, hFormula]
  | some formula =>
    cases formula with
    | blank => simp only [rule, hFormula]
    | malformed => simp only [rule, hFormula]
    | sum block =>
      apply rule_sum_congr hFormula
      intro other hOther hSame
      have hRefers := (refers_of_sum hFormula).mpr hOther
      have hBack : ¬ ReflTransGen sheet.Refers other cell := by
        intro hBack
        have hBack := (reflTransGen_iff_eq_or_transGen.mp hBack).resolve_left (Ne.symm hSame)
        exact hSums cell block hFormula other hSame (.single hRefers) hBack
      rw [valueBelow, if_pos (reach_lt hRefers hBack)]
    | chain operands =>
      have hAgree : ∀ middle operands, sheet.formula? middle = some (.chain operands) →
          ReflTransGen sheet.Refers cell middle → ReflTransGen sheet.Refers middle cell →
          ∀ other, sheet.Refers middle other →
            (sheet.valueBelow cell other).number? = (sheet.trueValue other).number? :=
        fun _ _ hMiddle hForth _ _ hRefers => number?_valueBelow hSums hMiddle hForth hRefers
      apply rule_chain_congr hFormula
      · exact Chain.mapM_congr (number?_congr hFormula (hAgree cell operands hFormula .refl .refl))
      · constructor
        · exact transGen_blames_congr hAgree
        · exact transGen_blames_congr fun middle operands hMiddle hForth hBack other hRefers =>
            (hAgree middle operands hMiddle hForth hBack other hRefers).symm

end Sheet
end FormulaGrid
