import FormulaGrid.Proofs.Document.Edits
import FormulaGrid.Proofs.Evaluation.Locality

/-!
# Edits are local

An edit changes no displayed cell but those that lead to a cell it writes. Where it lets the sheet grow
no other cell notices.
-/

set_option autoImplicit false

namespace FormulaGrid.Document

open Relation

theorem display_of_not_writes {doc after : Document} {edit : Edit} (hRun : edit.run doc = .ok after)
    {cell : Address}
    (hCell : ∀ other, ReflTransGen doc.sheet.Mentions cell other → ¬ edit.Writes doc other) :
    after.display cell = doc.display cell :=
  Pass.display_congr fun other hOther => edit.text_of_not_writes hRun (hCell other hOther)

/-- A cell that leads to no written cell looks as before, and added rows and columns show nowhere. -/
theorem edits_local (doc : Document) :
    (∀ (edit : Edit) (after : Document), edit.run doc = .ok after → ∀ cell,
      (∀ other, ReflTransGen doc.sheet.Mentions cell other → ¬ edit.Writes doc other) →
        after.display cell = doc.display cell) ∧
    ∀ cell, doc.addRow.display cell = doc.display cell ∧
      doc.addCol.display cell = doc.display cell := by
  have hRow : Edit.addRow.run doc = .ok doc.addRow := rfl
  have hCol : Edit.addCol.run doc = .ok doc.addCol := rfl
  refine ⟨fun edit after hRun cell => display_of_not_writes hRun, fun cell => ⟨?_, ?_⟩⟩
  · exact display_of_not_writes hRow fun _ _ => id
  · exact display_of_not_writes hCol fun _ _ => id

theorem display_of_sum_in_growing_sheet :
    ∃ after, (Edit.set ⟨19, 1⟩ "7").run (ofSheet ⟨[["=SUM(B1:C9)"]]⟩) = .ok after ∧
      after.display ⟨0, 0⟩ = (ofSheet ⟨[["=SUM(B1:C9)"]]⟩).display ⟨0, 0⟩ := by
  refine ⟨_, rfl, (edits_local _).1 (.set ⟨19, 1⟩ "7") _ rfl ⟨0, 0⟩ ?_⟩
  have hFormula : Sheet.formula? ⟨[["=SUM(B1:C9)"]]⟩ ⟨0, 0⟩ = some (.sum ⟨⟨0, 1⟩, ⟨8, 2⟩⟩) := by
    decide +kernel
  rintro other hOther rfl
  rcases hOther.cases_tail with hSame | ⟨last, _, formula, hLast, hMentions⟩
  · cases hSame
  · have hMem := Sheet.mem_of_formula? (Option.isSome_of_eq_some hLast)
    have hCell : last = ⟨0, 0⟩ := List.mem_singleton.mp hMem
    rw [hCell] at hLast
    rw [ofSheet, hFormula] at hLast
    cases hLast
    cases hMentions

end FormulaGrid.Document
