import FormulaGrid.Proofs.Document.InPlace

/-!
# Histories of documents

A document that was made or loaded is edited again and again. At any time its rows have one length, no
row and no column was lost, it belongs to the file it came from, and unless it counts as modified its
texts are those it came with. An edit that fails changes nothing of this.
-/

set_option autoImplicit false

namespace FormulaGrid

namespace Document

inductive Made : Document → Prop where
  | new (rows cols : Nat) : Made (.new rows cols)
  | standard : Made .standard
  | ofRows (rows : List (List String)) : Made (.ofRows rows)
  | loaded {path : String} {rows : List (List String)} {doc : Document}
      (h : ofFileRows path rows = .ok doc) : Made doc

structure Evolves (before after : Document) : Prop where
  fitsIn : before.sheet.FitsIn after.sheet
  file_eq : after.file = before.file
  modified : before.modified = true → after.modified = true
  sheet_eq : after.modified = false → after.sheet = before.sheet

variable {origin doc before middle after : Document}

theorem Evolves.refl (doc : Document) : doc.Evolves doc :=
  ⟨.refl _, rfl, id, fun _ => rfl⟩

theorem Evolves.trans (h : before.Evolves middle) (h' : middle.Evolves after) :
    before.Evolves after where
  fitsIn := h.fitsIn.trans h'.fitsIn
  file_eq := h'.file_eq.trans h.file_eq
  modified hBefore := h'.modified (h.modified hBefore)
  sheet_eq hAfter := by
    have hMiddle : middle.modified = false := by
      rw [← Bool.not_eq_true]
      intro hModified
      rw [h'.modified hModified] at hAfter
      cases hAfter
    rw [h'.sheet_eq hAfter, h.sheet_eq hMiddle]

theorem evolves_change {sheet : Sheet} (h : doc.sheet.FitsIn sheet) :
    doc.Evolves (doc.change sheet) where
  fitsIn := h
  file_eq := rfl
  modified _ := rfl
  sheet_eq hModified := nomatch hModified

def Rectangular (doc : Document) : Prop := doc.sheet.HasWidth doc.cols

theorem rectangular_iff : doc.Rectangular ↔ ∃ width, doc.sheet.HasWidth width := by
  constructor
  · exact fun h => ⟨_, h⟩
  · rintro ⟨width, h⟩ row hRow
    rw [h row hRow, cols, h.colCount_eq (List.ne_nil_of_mem hRow)]

theorem Made.built (h : Made origin) : Built origin := by
  cases h with
  | new rows cols => exact .new rows cols
  | standard => exact .new standardRows standardCols
  | ofRows rows => exact .ofRows rows
  | loaded h => exact .loaded h

theorem Made.rectangular (h : Made origin) : origin.Rectangular :=
  rectangular_iff.mpr h.built.hasWidth

end Document

namespace Edit

variable {edit : Edit} {doc after : Document}

theorem evolves (h : edit.run doc = .ok after) : doc.Evolves after := by
  cases edit with
  | set cell text =>
    rw [run, Document.set] at h
    split at h
    · cases h
      exact Document.evolves_change ((Sheet.fitsIn_grow ..).trans (Sheet.fitsIn_put ..))
    · cases h
  | clear cell =>
    cases h
    rw [Document.clear]
    split
    · exact .refl doc
    · exact Document.evolves_change (Sheet.fitsIn_put ..)
  | addRow =>
    cases h
    exact Document.evolves_change (Sheet.fitsIn_addRow ..)
  | addCol =>
    cases h
    exact Document.evolves_change (Sheet.fitsIn_addCol _)
  | paste base block =>
    rw [run, Document.paste] at h
    split at h
    · cases h
    · split at h
      · cases h
        exact Document.evolves_change ((Sheet.fitsIn_grow ..).trans (Sheet.fitsIn_overlay ..))
      · cases h

theorem rectangular (h : edit.run doc = .ok after) (hDoc : doc.Rectangular) : after.Rectangular := by
  rw [Document.rectangular_iff] at hDoc ⊢
  exact hasWidth h hDoc

theorem inPlace_cases (edit : Edit) (doc : Document) :
    (∃ after, edit.run doc = .ok after ∧ edit.inPlace.run doc = .ok () after) ∨
      ∃ e, edit.run doc = .error e ∧ edit.inPlace.run doc = .error (some e) doc := by
  rw [run_inPlace]
  cases edit.run doc with
  | ok after => exact .inl ⟨after, rfl, rfl⟩
  | error e => exact .inr ⟨e, rfl, rfl⟩

end Edit

namespace Document

variable {origin doc : Document}

/-- The document after edits in place, also where some of them failed. -/
def afterEdits? (doc : Document) : List Edit → Option Document
  | [] => some doc
  | edit :: edits =>
    match edit.inPlace.run doc with
    | .ok () after => after.afterEdits? edits
    | .error (some _) after => after.afterEdits? edits
    | .error none _ => none

theorem afterEdits?_spec (hDoc : doc.Rectangular) (edits : List Edit) :
    ∃ after, doc.afterEdits? edits = some after ∧ after.Rectangular ∧ doc.Evolves after := by
  induction edits generalizing doc with
  | nil => exact ⟨doc, rfl, hDoc, .refl doc⟩
  | cons edit edits ih =>
    rcases edit.inPlace_cases doc with ⟨middle, hRun, hInPlace⟩ | ⟨e, -, hInPlace⟩
    · obtain ⟨after, hAfter, hRect, hEvolves⟩ := ih (Edit.rectangular hRun hDoc)
      rw [afterEdits?, hInPlace]
      exact ⟨after, hAfter, hRect, (Edit.evolves hRun).trans hEvolves⟩
    · rw [afterEdits?, hInPlace]
      exact ih hDoc

theorem edits_in_place (h : Made origin) (edits : List Edit) :
    ∃ doc, origin.afterEdits? edits = some doc ∧ doc.Rectangular ∧ origin.Evolves doc ∧
      ∀ edit : Edit,
        (∃ after, edit.run doc = .ok after ∧ edit.inPlace.run doc = .ok () after ∧
          after.Rectangular ∧ doc.Evolves after) ∨
        ∃ e, edit.run doc = .error e ∧ edit.inPlace.run doc = .error (some e) doc := by
  obtain ⟨doc, hDoc, hRect, hEvolves⟩ := afterEdits?_spec h.rectangular edits
  refine ⟨doc, hDoc, hRect, hEvolves, fun edit => ?_⟩
  rcases edit.inPlace_cases doc with ⟨after, hRun, hInPlace⟩ | hError
  · exact .inl ⟨after, hRun, hInPlace, Edit.rectangular hRun hRect, Edit.evolves hRun⟩
  · exact .inr hError

theorem edits_in_place_past_failure :
    ∃ doc, (ofRows [["a"], ["b", "c"]]).afterEdits? [.set ⟨Address.maxIndex, 0⟩ "d",
        .paste ⟨1, 1⟩ [["e"], [], ["f", "g"]]] = some doc ∧
      doc.sheet.rows = [["a", "", ""], ["b", "e", ""], ["", "", ""], ["", "f", "g"]] ∧
      doc.modified = true ∧ doc.Rectangular := by
  obtain ⟨doc, hDoc, hRect, -⟩ := edits_in_place (.ofRows [["a"], ["b", "c"]])
    [.set ⟨Address.maxIndex, 0⟩ "d", .paste ⟨1, 1⟩ [["e"], [], ["f", "g"]]]
  have hEdited : some doc = some ⟨⟨[["a", "", ""], ["b", "e", ""], ["", "", ""], ["", "f", "g"]]⟩,
      none, true⟩ := hDoc.symm.trans (by decide)
  cases hEdited
  exact ⟨_, hDoc, rfl, rfl, hRect⟩

end Document
end FormulaGrid
