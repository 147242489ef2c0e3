import FormulaGrid.Proofs.Evaluation.Machine
import FormulaGrid.Proofs.Sheet.Mentions

/-!
# Sums row by row

A block may reach far beyond the sheet, or not into it at all. Its sum goes from row to row and from
column to column up to the last ones that both have, and so visits the cells of the sheet that are in
the block, each once and in reading order, whatever the visits do on the way.
-/

set_option autoImplicit false

namespace FormulaGrid

namespace Sheet

section

variable {m : Type → Type} [Monad m]

def sumRow (sheet : Sheet) (visit : Address → m Outcome) (block : Block) (total : Float)
    (row : Nat) : m Float :=
  match Nat.ppred (sheet.rowLength row) with
  | none => return total
  | some lastCol =>
    (Address.through block.first.col (min block.last.col lastCol)).foldlM
      (fun total col => do return addReading total (← visit ⟨row, col⟩)) total

def sumRows (sheet : Sheet) (visit : Address → m Outcome) (block : Block) : m Value :=
  match Nat.ppred sheet.rowCount with
  | none => return .number (.float 0.0)
  | some lastRow => do
    let total ← (Address.through block.first.row (min block.last.row lastRow)).foldlM
      (sheet.sumRow visit block) 0.0
    return .ofFloat total

end

variable {sheet : Sheet} {block : Block}

theorem through_of_ppred {bound top : Nat} (h : Nat.ppred bound = some top) (first last : Nat) :
    Address.through first (min last top) = List.range' first (min (last + 1) bound - first) := by
  have hBound := Nat.ppred_eq_some.mp h
  rw [Address.through_eq, show min last top + 1 = min (last + 1) bound by omega]

theorem pairwise_addresses (sheet : Sheet) : sheet.addresses.flatten.Pairwise Address.Precedes :=
  Address.pairwise_rows List.pairwise_lt_range fun _ => List.pairwise_lt_range

theorem mem_filter_addresses {cell : Address} :
    cell ∈ sheet.addresses.flatten.filter block.contains ↔ block.contains cell = true ∧
      cell.row < sheet.rowCount ∧ cell.col < sheet.rowLength cell.row := by
  rw [List.mem_filter, mem_flatten_addresses, and_comm]

theorem cellsIn_eq_filter (sheet : Sheet) (block : Block) :
    sheet.cellsIn block = sheet.addresses.flatten.filter block.contains := by
  apply (sheet.pairwise_cellsIn block).eq_of_mem_iff (sheet.pairwise_addresses.filter _)
  intro cell
  rw [mem_cellsIn, isSome_text?, mem_filter_addresses]

section

variable {m : Type → Type} [Monad m]

theorem sumRow_eq (visit : Address → m Outcome) (total : Float) (row : Nat) :
    sheet.sumRow visit block total row =
      ((List.range' block.first.col (min (block.last.col + 1) (sheet.rowLength row) -
        block.first.col)).map (Address.mk row)).foldlM
          (fun total cell => do return addReading total (← visit cell)) total := by
  rw [sumRow, List.foldlM_map]
  cases hLength : Nat.ppred (sheet.rowLength row) with
  | none =>
    rw [Nat.ppred_eq_none.mp hLength, Nat.min_zero, Nat.zero_sub]
    rfl
  | some lastCol => simp only [through_of_ppred hLength]

variable [LawfulMonad m]

theorem foldlM_flatMap {α β γ : Type} (f : α → List β) (g : γ → β → m γ) (xs : List α) (init : γ) :
    (xs.flatMap f).foldlM g init = xs.foldlM (fun acc x => (f x).foldlM g acc) init := by
  induction xs generalizing init with
  | nil => simp
  | cons x xs ih => simp [ih]

theorem sumOver_cellsIn (sheet : Sheet) (block : Block) (visit : Address → m Outcome) :
    sumOver visit (sheet.cellsIn block) =
      (List.range' block.first.row (min (block.last.row + 1) sheet.rowCount -
        block.first.row)).foldlM (sheet.sumRow visit block) 0.0 := by
  rw [sumOver, cellsIn, foldlM_flatMap]
  congr 1
  funext total row
  exact (sumRow_eq visit total row).symm

theorem sumRows_eq (sheet : Sheet) (block : Block) (visit : Address → m Outcome) :
    sheet.sumRows visit block = Value.ofFloat <$> sumOver visit (sheet.cellsIn block) := by
  rw [sumOver_cellsIn, sumRows]
  cases hCount : Nat.ppred sheet.rowCount with
  | none =>
    have hZero : Value.ofFloat 0.0 = .number (.float 0.0) := by decide +kernel
    rw [Nat.ppred_eq_none.mp hCount, Nat.min_zero, Nat.zero_sub]
    simp [hZero]
  | some lastRow => simp [through_of_ppred hCount]

/-- The sum of a block is worked out row by row up to the last cells that block and sheet have. In any
state that is visiting the cells of the sheet that lie in the block, in reading order, with none left out
and none visited twice. -/
theorem sum_within_bounds (sheet : Sheet) (block : Block) (visit : Address → m Outcome) :
    let cells := sheet.addresses.flatten.filter block.contains
    (Formula.sum block).outcome sheet visit = Outcome.settled <$> sheet.sumRows visit block ∧
      sheet.sumRows visit block = Value.ofFloat <$> sumOver visit cells ∧
      cells.Pairwise Address.Precedes ∧ cells.Nodup ∧
      ∀ cell, cell ∈ cells ↔ block.contains cell = true ∧
        cell.row < sheet.rowCount ∧ cell.col < sheet.rowLength cell.row := by
  intro cells
  have hOrder : cells.Pairwise Address.Precedes := sheet.pairwise_addresses.filter _
  refine ⟨?_, ?_, hOrder, hOrder.nodup, fun cell => mem_filter_addresses⟩
  · rw [sumRows_eq]
    simp [Formula.outcome]
  · rw [sumRows_eq, cellsIn_eq_filter]

end

/-- On the machine, over rows of unlike lengths, for a block that goes on to the last index and has the
cell of the sum itself, which is in progress. -/
theorem sum_within_bounds_of_jagged_rows :
    let sheet : Sheet := ⟨[["1", "x"], [], ["=SUM(A1:B9)", "2.5", "7"]]⟩
    let block : Block := ⟨⟨0, 0⟩, ⟨Address.maxIndex, 1⟩⟩
    let visit := Machine.resolve sheet Machine.frames [⟨2, 0⟩]
    let machine := (Machine.idle .empty).enter ⟨2, 0⟩
    LawfulMonad Machine.Run ∧
      sheet.addresses.flatten.filter block.contains = [⟨0, 0⟩, ⟨0, 1⟩, ⟨2, 0⟩, ⟨2, 1⟩] ∧
      (((Formula.sum block).outcome sheet visit).run machine).map Prod.fst =
        some (.settled (.number (.float 3.5))) := by
  intro sheet block visit machine
  have hLawful : LawfulMonad Machine.Run := inferInstance
  obtain ⟨hOutcome, hRows, -⟩ := sum_within_bounds sheet block visit
  rw [hOutcome, hRows]
  exact ⟨hLawful, by decide, by decide +kernel⟩

end Sheet
end FormulaGrid
