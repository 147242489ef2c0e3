import FormulaGrid.Proofs.Sheet.FormulaCells
import Mathlib.Logic.Relation

/-!
# References between cells

A chain refers to the cells among its operands, a sum to the cells of its block that lie in the
sheet. The formula cells that a cell leads to become fewer along a reference that does not lead
back, so what lies below a loop can be dealt with before the loop.
-/

set_option autoImplicit false

namespace FormulaGrid

open Relation

def Operand.cell? : Operand → Option Address
  | cell address => some address
  | _ => none

def Chain.toList {α : Type} (chain : Chain α) : List α :=
  chain.first :: chain.links.map Prod.snd

def Formula.references (sheet : Sheet) : Formula → List Address
  | sum block => sheet.cellsIn block
  | chain operands => operands.toList.filterMap Operand.cell?
  | _ => []

def Formula.isSum : Formula → Bool
  | sum _ => true
  | _ => false

namespace Sheet

def references (sheet : Sheet) (cell : Address) : List Address :=
  (sheet.formula? cell).elim [] (Formula.references sheet)

def Refers (sheet : Sheet) (cell other : Address) : Prop := other ∈ sheet.references cell

instance (sheet : Sheet) (cell other : Address) : Decidable (sheet.Refers cell other) :=
  inferInstanceAs (Decidable (_ ∈ _))

/-- No sum lies on a cycle of references through another cell. Its block may contain the sum. -/
def SumsOffLoops (sheet : Sheet) : Prop :=
  ∀ cell block, sheet.formula? cell = some (.sum block) →
    ∀ other, other ≠ cell → TransGen sheet.Refers cell other → ¬ TransGen sheet.Refers other cell

variable {sheet : Sheet} {cell other : Address}

theorem refers_of_sum {block : Block} (hFormula : sheet.formula? cell = some (.sum block)) :
    sheet.Refers cell other ↔ other ∈ sheet.cellsIn block := by
  rw [Refers, references, hFormula]
  rfl

theorem refers_of_chain {operands : Chain Operand}
    (hFormula : sheet.formula? cell = some (.chain operands)) :
    sheet.Refers cell other ↔ .cell other ∈ operands.toList := by
  rw [Refers, references, hFormula]
  change other ∈ operands.toList.filterMap Operand.cell? ↔ _
  rw [List.mem_filterMap]
  constructor
  · rintro ⟨x, hx, hCell⟩
    cases x <;> cases hCell
    exact hx
  · intro h
    exact ⟨.cell other, h, rfl⟩

theorem Refers.sum_or_chain (h : sheet.Refers cell other) :
    (∃ block, sheet.formula? cell = some (.sum block)) ∨
      ∃ operands, sheet.formula? cell = some (.chain operands) := by
  rw [Refers, references] at h
  cases hFormula : sheet.formula? cell with
  | none =>
    rw [hFormula] at h
    cases h
  | some formula =>
    rw [hFormula] at h
    cases formula with
    | blank => cases h
    | malformed => cases h
    | sum block => exact .inl ⟨block, rfl⟩
    | chain operands => exact .inr ⟨operands, rfl⟩

theorem Refers.isFormula (h : sheet.Refers cell other) : (sheet.formula? cell).isSome := by
  rcases h.sum_or_chain with ⟨block, hFormula⟩ | ⟨operands, hFormula⟩ <;> rw [hFormula] <;> rfl

theorem SumsOffLoops.chain (h : sheet.SumsOffLoops) (hOther : other ≠ cell)
    (hForth : TransGen sheet.Refers cell other) (hBack : TransGen sheet.Refers other cell) :
    ∃ operands, sheet.formula? cell = some (.chain operands) := by
  obtain ⟨next, hNext, _⟩ := TransGen.head'_iff.mp hForth
  rcases hNext.sum_or_chain with ⟨block, hFormula⟩ | hChain
  · exact absurd hBack (h cell block hFormula other hOther hForth)
  · exact hChain

theorem sumsOffLoops_of_levels (level : Address → Nat)
    (hLevels : ∀ cell ∈ sheet.addresses.flatten, ∀ other ∈ sheet.references cell, other ≠ cell →
      level other + ((sheet.formula? cell).any Formula.isSum).toNat ≤ level cell) :
    sheet.SumsOffLoops := by
  have hStep : ∀ cell other, sheet.Refers cell other → level other ≤ level cell := by
    intro cell other h
    by_cases hSame : other = cell
    · rw [hSame]
    · exact (Nat.le_add_right _ _).trans (hLevels cell (mem_of_formula? h.isFormula) other h hSame)
  have hPath : ∀ cell other, TransGen sheet.Refers cell other → level other ≤ level cell := by
    intro cell other h
    induction h with
    | single h => exact hStep cell _ h
    | tail _ h ih => exact (hStep _ _ h).trans ih
  intro cell block hFormula other hOther hForth hBack
  have hSum : ∀ next, sheet.Refers cell next → next = cell ∨ level next < level cell := by
    intro next h
    refine or_iff_not_imp_left.mpr fun hSame => ?_
    have hLevel := hLevels cell (mem_of_formula? h.isFormula) next h hSame
    rw [hFormula] at hLevel
    exact hLevel
  have hBelow : ∀ last, TransGen sheet.Refers cell last → last = cell ∨ level last < level cell := by
    intro last h
    induction h with
    | single h => exact hSum _ h
    | tail _ h ih =>
      rcases ih with hSame | hLess
      · exact hSum _ (hSame ▸ h)
      · exact .inr ((hStep _ _ h).trans_lt hLess)
  exact absurd (hPath other cell hBack) (Nat.not_le.mpr ((hBelow other hForth).resolve_left hOther))

open Classical in
noncomputable def reach (sheet : Sheet) (cell : Address) : Nat :=
  (sheet.formulaCells.filter fun other => ReflTransGen sheet.Refers cell other).card

theorem reach_le (h : ReflTransGen sheet.Refers cell other) :
    sheet.reach other ≤ sheet.reach cell := by
  classical
  apply Finset.card_le_card
  intro last hLast
  rw [Finset.mem_filter] at hLast ⊢
  exact ⟨hLast.1, h.trans hLast.2⟩

theorem reach_lt (h : sheet.Refers cell other) (hBack : ¬ ReflTransGen sheet.Refers other cell) :
    sheet.reach other < sheet.reach cell := by
  classical
  apply Finset.card_lt_card
  rw [Finset.ssubset_iff_of_subset]
  · refine ⟨cell, Finset.mem_filter.mpr ⟨mem_formulaCells.mpr h.isFormula, .refl⟩, ?_⟩
    intro hCell
    exact hBack (Finset.mem_filter.mp hCell).2
  · intro last hLast
    rw [Finset.mem_filter] at hLast ⊢
    exact ⟨hLast.1, .head h hLast.2⟩

end Sheet
end FormulaGrid
