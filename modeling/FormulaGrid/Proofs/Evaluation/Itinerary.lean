import FormulaGrid.Evaluation.Reading

/-!
# Itineraries

What a formula does is a tree of visits: a cell to visit next, and for each outcome it may have what
comes after. The itinerary of a formula is this tree. Following it with any way to reach outcomes
gives the outcome of the formula, so that statements on formulas are inductions on visits.
-/

set_option autoImplicit false

namespace FormulaGrid

theorem Value.toNumber_error {value : Value} {f : Fault} (h : value.toNumber = .error f) :
    f = .reference := by
  cases value with
  | number x => cases h
  | fault f => exact (Except.error.inj h).symm
  | text s =>
    rw [toNumber] at h
    split at h
    · cases h
    · split at h
      · cases h
      · exact (Except.error.inj h).symm

theorem Outcome.toOperand_of_root {outcome : Outcome} {root : Address}
    (hRoot : outcome.root = some root) : outcome.toOperand = .error outcome := by
  rw [toOperand, hRoot]
  rfl

theorem Outcome.toOperand_of_number {outcome : Outcome} {x : Number.Datum}
    (hRoot : outcome.root = none) (hNumber : outcome.value.toNumber = .ok x) :
    outcome.toOperand = .ok x.toFloat := by
  rw [toOperand, hRoot, hNumber]
  rfl

theorem Outcome.toOperand_of_fault {outcome : Outcome} {f : Fault}
    (hRoot : outcome.root = none) (hFault : outcome.value.toNumber = .error f) :
    outcome.toOperand = .error (.fault f) := by
  rw [toOperand, hRoot, hFault]
  rfl

inductive Itinerary where
  | arrive (outcome : Outcome)
  | visit (cell : Address) (next : Outcome → Itinerary)

namespace Itinerary

variable {m : Type → Type} [Monad m]

def follow (reach : Address → m Outcome) : Itinerary → m Outcome
  | arrive outcome => return outcome
  | visit cell next => do (next (← reach cell)).follow reach

def sumFrom : List Address → Float → Itinerary
  | [], total => arrive (.settled (.ofFloat total))
  | cell :: cells, total => visit cell fun outcome => sumFrom cells (addReading total outcome)

def operand (next : Float → Itinerary) : Operand → Itinerary
  | .number x => next x
  | .cell address => visit address fun outcome =>
      match outcome.toOperand with
      | .ok x => next x
      | .error failed => arrive failed
  | .unreadable => arrive (.fault .reference)

def links : List (Operator × Operand) → (List (Operator × Float) → Itinerary) → Itinerary
  | [], next => next []
  | (op, x) :: rest, next => operand (fun y => links rest fun ys => next ((op, y) :: ys)) x

def chain (operands : Chain Operand) : Itinerary :=
  operand (fun x => links operands.links fun xs =>
    arrive (.settled (.ofResult (Chain.total ⟨x, xs⟩)))) operands.first

theorem follow_sumFrom [LawfulMonad m] (reach : Address → m Outcome) (cells : List Address)
    (total : Float) :
    (sumFrom cells total).follow reach = do
      let total ← cells.foldlM (fun total cell => do return addReading total (← reach cell)) total
      return .settled (.ofFloat total) := by
  induction cells generalizing total with
  | nil => simp [sumFrom, follow]
  | cons cell cells ih => simp [sumFrom, follow, ih]

def proceed {α : Type} (next : α → m Outcome) : Except Outcome α → m Outcome
  | .ok x => next x
  | .error failed => return failed

theorem follow_operand [LawfulMonad m] (reach : Address → m Outcome) (next : Float → Itinerary)
    (x : Operand) :
    (operand next x).follow reach =
      (Operand.read reach x).run >>= proceed fun y => (next y).follow reach := by
  cases x with
  | number x => simp [operand, Operand.read, proceed]
  | unreadable => simp [operand, Operand.read, follow, proceed]
  | cell address =>
    simp only [operand, Operand.read, follow, ExceptT.run_mk, bind_assoc, pure_bind]
    congr 1
    funext outcome
    cases outcome.toOperand <;> rfl

theorem bind_proceed [LawfulMonad m] {α β : Type} (x : ExceptT Outcome m α)
    (f : α → ExceptT Outcome m β) (next : β → m Outcome) :
    (x >>= f).run >>= proceed next = x.run >>= proceed fun y => (f y).run >>= proceed next := by
  rw [ExceptT.run_bind, bind_assoc]
  congr 1
  funext y
  cases y <;> simp [proceed]

theorem follow_links [LawfulMonad m] (reach : Address → m Outcome)
    (rest : List (Operator × Operand)) (next : List (Operator × Float) → Itinerary) :
    (links rest next).follow reach =
      (rest.mapM fun link : Operator × Operand => do
        return (link.1, ← Operand.read reach link.2)).run >>=
          proceed fun xs => (next xs).follow reach := by
  induction rest generalizing next with
  | nil => simp [links, proceed]
  | cons link rest ih =>
    simp only [links, follow_operand, ih, List.mapM_cons, bind_assoc, pure_bind, bind_proceed]
    congr 1
    funext y
    cases y with
    | error failed => rfl
    | ok y =>
      simp only [proceed]
      congr 1
      funext ys
      cases ys <;> simp [proceed]

theorem follow_chain [LawfulMonad m] (reach : Address → m Outcome) (operands : Chain Operand) :
    (chain operands).follow reach =
      (operands.mapM (Operand.read reach)).run >>=
        proceed fun xs => return .settled (.ofResult xs.total) := by
  simp only [chain, Chain.mapM, follow_operand, follow_links, follow, bind_proceed]
  congr 1
  funext x
  cases x with
  | error failed => rfl
  | ok x =>
    simp only [proceed]
    congr 1
    funext xs
    cases xs <;> simp [proceed]

end Itinerary

/-- The visits of a formula and what it makes of their outcomes. -/
def Formula.itinerary (sheet : Sheet) : Formula → Itinerary
  | blank => .arrive (.settled (.number (.float 0.0)))
  | sum block => .sumFrom (sheet.cellsIn block) 0.0
  | chain operands => .chain operands
  | malformed => .arrive (.fault .invalid)

theorem Formula.outcome_eq_follow {m : Type → Type} [Monad m] [LawfulMonad m] (formula : Formula)
    (sheet : Sheet) (reach : Address → m Outcome) :
    formula.outcome sheet reach = (formula.itinerary sheet).follow reach := by
  cases formula with
  | blank => rfl
  | malformed => rfl
  | sum block => exact (Itinerary.follow_sumFrom reach (sheet.cellsIn block) 0.0).symm
  | chain operands =>
    simp only [Formula.outcome, Formula.itinerary, Itinerary.follow_chain]
    congr 1
    funext xs
    cases xs <;> rfl

end FormulaGrid
