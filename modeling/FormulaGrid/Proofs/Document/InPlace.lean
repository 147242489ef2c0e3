import FormulaGrid.Proofs.Document.Edits
import FormulaGrid.Proofs.Sheet.Shapes

/-!
# Edits in place

Edits carried out step by step on one document: checks, room for the texts, and then one text after the
other. A step that writes outside the sheet breaks off, and a failure leaves what the steps before it
did. Still an edit never breaks off, does what it does to a value, and where it fails nothing was done.
-/

set_option autoImplicit false

namespace FormulaGrid

/-- Steps on one document. They can fail, or break off without a failure. -/
abbrev InPlace := EStateM (Option DocumentError) Document

namespace InPlace

variable {α β : Type} {doc mid : Document}

def write (cell : Address) (text : String) : InPlace Unit := do
  match (← get).sheet.text? cell with
  | some _ => modify fun doc => { doc with sheet := doc.sheet.put cell text }
  | none => throw none

def touch : InPlace Unit :=
  modify fun doc => { doc with modified := true }

def ensureSize (rows cols : Nat) : InPlace Unit :=
  modify fun doc => { doc with sheet := doc.sheet.grow rows cols }

def set (cell : Address) (text : String) : InPlace Unit := do
  unless cell.row < Address.maxIndex ∧ cell.col < Address.maxIndex do
    throw (some (.invalidCell cell.label))
  ensureSize (cell.row + 1) (cell.col + 1)
  write cell text
  touch

def clear (cell : Address) : InPlace Unit := do
  match (← get).sheet.text? cell with
  | none => return
  | some text =>
    unless text = "" do
      write cell ""
      touch

def addRow : InPlace Unit := do
  let cols := (← get).cols
  modify fun doc => { doc with sheet := ⟨doc.sheet.rows ++ [List.replicate cols ""]⟩ }
  touch

def addCol : InPlace Unit := do
  modify fun doc => { doc with sheet := ⟨doc.sheet.rows.map (· ++ [""])⟩ }
  touch

def writeRow (row col : Nat) (texts : List String) : InPlace Unit :=
  forM (texts.zipIdx col) fun (text, col) => write ⟨row, col⟩ text

def writeRows (base : Address) (block : List (List String)) : InPlace Unit :=
  forM (block.zipIdx base.row) fun (texts, row) => writeRow row base.col texts

def paste (base : Address) (block : List (List String)) : InPlace Block := do
  let texts : Sheet := ⟨block⟩
  let rows := base.row + texts.rowCount
  let cols := base.col + texts.width
  if texts.width = 0 then throw (some .emptyBlock)
  unless rows ≤ Address.maxIndex ∧ cols ≤ Address.maxIndex do
    throw (some (.blockTooLarge base))
  ensureSize rows cols
  writeRows base block
  touch
  return .spanning base ⟨rows - 1, cols - 1⟩

theorem run_bind {work : InPlace α} {a : α} (h : work.run doc = .ok a mid) (next : α → InPlace β) :
    (work >>= next).run doc = (next a).run mid := by
  simp [h]

@[simp] theorem run_map (f : α → β) (work : InPlace α) : (f <$> work).run doc =
    match work.run doc with
    | .ok a after => .ok (f a) after
    | .error e after => .error e after := by
  simp only [Functor.map, EStateM.run, EStateM.map]
  cases work doc <;> rfl

theorem run_write {cell : Address} (text : String) (h : (doc.sheet.text? cell).isSome) :
    (write cell text).run doc = .ok () { doc with sheet := doc.sheet.put cell text } := by
  obtain ⟨old, h⟩ := Option.isSome_iff_exists.mp h
  simp [write, h]

def patch (update : β → α → α) (start : Nat) (patches : List β) (old : List α) : List α :=
  old.mapIdx fun place x =>
    if place < start then x else patches[place - start]?.elim x (update · x)

theorem length_patch (update : β → α → α) (start : Nat) (patches : List β) (old : List α) :
    (patch update start patches old).length = old.length := by
  simp [patch]

theorem patch_nil (update : β → α → α) (start : Nat) : patch update start [] = id := by
  funext old
  apply List.ext_getElem?
  simp [patch]

theorem patch_cons (update : β → α → α) (start : Nat) (y : β) (patches : List β) (old : List α) :
    patch update start (y :: patches) old =
      patch update (start + 1) patches (old.modify start (update y)) := by
  apply List.ext_getElem?
  intro place
  rw [patch, patch, List.getElem?_mapIdx, List.getElem?_mapIdx, List.getElem?_modify]
  cases old[place]? with
  | none => rfl
  | some x =>
    rcases Nat.lt_trichotomy place start with hPlace | rfl | hPlace
    · simp [hPlace, Nat.lt_succ_of_lt hPlace, Nat.ne_of_gt hPlace]
    · simp
    · have hPast : place - start = place - (start + 1) + 1 := by omega
      have hLate : ¬ place < start + 1 := by omega
      simp [hPast, hLate, Nat.lt_asymm hPlace, Nat.ne_of_lt hPlace]

theorem overlay_eq_patch (sheet : Sheet) (base : Address) (block : List (List String)) :
    sheet.overlay base ⟨block⟩ =
      ⟨patch (patch (fun text _ => text) base.col) base.row block sheet.rows⟩ := by
  rw [Sheet.overlay, patch]
  congr 2
  funext row texts
  split
  · rfl
  · cases hRow : block[row - base.row]? with
    | none =>
      apply List.ext_getElem?
      simp [Sheet.text?, hRow]
    | some written =>
      rw [Option.elim_some, patch]
      congr 1
      funext col text
      simp only [Sheet.text?, hRow, Option.bind_eq_bind, Option.bind_some]
      cases written[col - base.col]? <;> rfl

theorem run_writeRow (row col : Nat) (texts : List String)
    (h : col + texts.length ≤ doc.sheet.rowLength row) :
    (writeRow row col texts).run doc = .ok () { doc with
      sheet := ⟨doc.sheet.rows.modify row (patch (fun text _ => text) col texts)⟩ } := by
  induction texts generalizing col doc with
  | nil => simp [writeRow, patch_nil]
  | cons text texts ih =>
    rw [List.length_cons] at h
    have hRow : row < doc.sheet.rowCount := by
      by_contra hRow
      rw [Sheet.rowLength_of_rowCount_le (Nat.le_of_not_lt hRow)] at h
      omega
    have hCell : (doc.sheet.text? ⟨row, col⟩).isSome :=
      Sheet.isSome_text?.mpr ⟨hRow, Nat.lt_of_lt_of_le (Nat.lt_add_of_pos_right (Nat.succ_pos _)) h⟩
    -- Writing the first text and then the others from the next column on patches the row at once.
    have hTexts : patch (fun text _ => text) col (text :: texts) =
        patch (fun text _ => text) (col + 1) texts ∘ (·.set col text) := by
      funext old
      rw [patch_cons, Function.comp, List.set_eq_modify]
    rw [writeRow, List.zipIdx_cons, List.forM_cons, run_bind (run_write text hCell), ← writeRow, ih,
      hTexts, ← List.modify_modify_eq]
    · rfl
    · rw [Sheet.rowLength_put]
      omega

theorem run_writeRows (doc : Document) (base : Address) (block : List (List String))
    (h : ∀ entry ∈ block.zipIdx base.row, base.col + entry.1.length ≤ doc.sheet.rowLength entry.2) :
    (writeRows base block).run doc = .ok () { doc with sheet := doc.sheet.overlay base ⟨block⟩ } := by
  rw [overlay_eq_patch]
  obtain ⟨row, col⟩ := base
  induction block generalizing row doc with
  | nil => simp [writeRows, patch_nil]
  | cons texts block ih =>
    rw [List.zipIdx_cons, List.forall_mem_cons] at h
    rw [writeRows, List.zipIdx_cons, List.forM_cons, run_bind (run_writeRow _ _ _ h.1), patch_cons]
    -- The row that was written is as long as before, so the others have their room still.
    refine (ih _ (row + 1) ?_).trans rfl
    intro entry hEntry
    rw [Sheet.rowLength_modify _ _ _ fun _ => length_patch ..]
    exact h.2 entry hEntry

/-- The end of steps that do what was computed. Where it failed, the document is as before. -/
def commit (doc : Document) : Except DocumentError (α × Document) →
    EStateM.Result (Option DocumentError) Document α
  | .ok (a, after) => .ok a after
  | .error e => .error (some e) doc

theorem run_set (doc : Document) (cell : Address) (text : String) :
    (set cell text).run doc = commit doc ((doc.set cell text).map (Prod.mk ())) := by
  rw [set, Document.set]
  split
  · have hCell := doc.sheet.isSome_text?_grow (Nat.lt_succ_self cell.row) (Nat.lt_succ_self cell.col)
    simp [ensureSize, run_write, hCell, touch, commit, Document.change, Except.map]
  · simp [commit, Except.map]

theorem run_clear (doc : Document) (cell : Address) :
    (clear cell).run doc = .ok () (doc.clear cell) := by
  rw [clear, Document.clear, Document.get, Sheet.text]
  cases hText : doc.sheet.text? cell with
  | none => simp [hText]
  | some text =>
    by_cases hEmpty : text = ""
    · simp [hText, hEmpty]
    · simp [hText, hEmpty, run_write, touch, Document.change]

theorem run_addRow (doc : Document) : addRow.run doc = .ok () doc.addRow := rfl

theorem run_addCol (doc : Document) : addCol.run doc = .ok () doc.addCol := rfl

theorem run_paste (doc : Document) (base : Address) (block : List (List String)) :
    (paste base block).run doc = commit doc (doc.paste base block) := by
  rw [paste, Document.paste]
  split
  · simp [commit]
  · split
    · have hRoom : ∀ entry ∈ block.zipIdx base.row, base.col + entry.1.length ≤
          (doc.sheet.grow (base.row + Sheet.rowCount ⟨block⟩)
            (base.col + Sheet.width ⟨block⟩)).rowLength entry.2 := by
        intro entry hEntry
        have hRow := List.snd_lt_add_of_mem_zipIdx hEntry
        have hWidth := Sheet.length_le_width ⟨block⟩ (List.fst_mem_of_mem_zipIdx hEntry)
        have hGrown : entry.2 < max (base.row + Sheet.rowCount ⟨block⟩) doc.sheet.rowCount :=
          Nat.lt_of_lt_of_le hRow (Nat.le_max_left ..)
        rw [Sheet.rowLength_grow, if_pos hGrown]
        omega
      simp [ensureSize, run_writeRows { doc with sheet := doc.sheet.grow _ _ } base block hRoom, touch,
        commit, Document.change]
    · simp [commit]

end InPlace

def Edit.inPlace : Edit → InPlace Unit
  | set cell text => InPlace.set cell text
  | clear cell => InPlace.clear cell
  | addRow => InPlace.addRow
  | addCol => InPlace.addCol
  | paste base block => (fun _ => ()) <$> InPlace.paste base block

theorem Edit.run_inPlace (edit : Edit) (doc : Document) :
    edit.inPlace.run doc = InPlace.commit doc ((edit.run doc).map (Prod.mk ())) := by
  cases edit with
  | set cell text => exact InPlace.run_set doc cell text
  | clear cell => exact InPlace.run_clear doc cell
  | addRow => exact InPlace.run_addRow doc
  | addCol => exact InPlace.run_addCol doc
  | paste base block =>
    rw [inPlace, run, InPlace.run_map, InPlace.run_paste]
    cases doc.paste base block <;> rfl

end FormulaGrid
