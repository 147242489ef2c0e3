import FormulaGrid.Proofs.Address.Label
import FormulaGrid.Proofs.Csv.Reload
import FormulaGrid.Proofs.Text.Lines
import FormulaGrid.Proofs.Text.Pieces
import Mathlib.Data.List.Chain

/-!
# Tables that their cells cannot break

A bar is a boundary of a table unless a backslash stands directly before it. Each line of a written
table has one boundary more than it has cells, among them its first and its last character, and what
stands between two boundaries is a cell that gives the displayed text back.
-/

set_option autoImplicit false

namespace FormulaGrid.Markdown

/-- A bar without a backslash directly before it. -/
def isBoundary (before : List Char) (c : Char) : Bool :=
  c == '|' && before.getLast? != some '\\'

def padded (text : List Char) : List Char := ' ' :: text ++ [' ']

def unescape : List Char → List Char
  | '\\' :: '|' :: rest => '|' :: unescape rest
  | c :: rest => c :: unescape rest
  | [] => []

/-- A text on one line: line feeds are blanks, and carriage returns are left out. -/
def flat (text : List Char) : List Char :=
  (text.filter (· ≠ '\r')).map fun c => if c = '\n' then ' ' else c

def barred (cells : List (List Char)) : List Char :=
  ([] :: cells).flatMap (· ++ ['|'])

/-- A cell that has no boundary in it and does not hide the one behind it. -/
structure Sealed (cell : List Char) : Prop where
  uncut : Text.Uncut isBoundary cell
  boundary : isBoundary cell '|' = true

variable {cells : List (List Char)} {text : List Char}

theorem isBoundary_past_bar (cell before : List Char) (c : Char) :
    isBoundary (cell ++ '|' :: before) c = isBoundary before c := by
  cases before with
  | nil => simp [isBoundary, bne]
  | cons d before => simp [isBoundary, List.getLast?_append, List.getLast?_cons]

theorem pieces_flatMap (h : ∀ cell ∈ cells, Sealed cell) :
    Text.pieces isBoundary (cells.flatMap (· ++ ['|'])) = cells ++ [[]] := by
  induction cells with
  | nil => rfl
  | cons cell cells ih =>
    rw [List.forall_mem_cons] at h
    have hRest : (fun before => isBoundary (cell ++ '|' :: before)) = isBoundary := by
      funext before c
      exact isBoundary_past_bar cell before c
    rw [List.flatMap_cons, List.append_assoc, List.singleton_append,
      Text.pieces_cut h.1.uncut h.1.boundary, hRest, ih h.2, List.cons_append]

theorem sealed_nil : Sealed [] where
  uncut _ _ _ h := by simp at h
  boundary := rfl

theorem pieces_barred (h : ∀ cell ∈ cells, Sealed cell) :
    Text.pieces isBoundary (barred cells) = [] :: cells ++ [[]] :=
  pieces_flatMap (List.forall_mem_cons.mpr ⟨sealed_nil, h⟩)

theorem length_places_barred (h : ∀ cell ∈ cells, Sealed cell) :
    (Text.places isBoundary (barred cells)).length = cells.length + 1 := by
  have hPieces := Text.length_pieces isBoundary (barred cells)
  rw [pieces_barred h] at hPieces
  simpa using hPieces.symm

theorem zero_mem_places_barred (cells : List (List Char)) :
    0 ∈ Text.places isBoundary (barred cells) :=
  Text.mem_places.mpr ⟨'|', rfl, rfl⟩

theorem exists_barred_eq (h : ∀ cell ∈ cells, Sealed cell) :
    ∃ before, barred cells = before ++ ['|'] ∧ isBoundary before '|' = true := by
  induction cells using List.reverseRecOn with
  | nil => exact ⟨[], rfl, rfl⟩
  | append_singleton cells cell ih =>
    obtain ⟨before, hBefore, _⟩ := ih fun other hOther => h other (by simp [hOther])
    refine ⟨before ++ '|' :: cell, ?_, ?_⟩
    · rw [barred, ← List.cons_append, List.flatMap_append, ← barred, hBefore]
      simp
    · rw [isBoundary_past_bar]
      exact (h cell (by simp)).boundary

theorem last_mem_places_barred (h : ∀ cell ∈ cells, Sealed cell) :
    (barred cells).length - 1 ∈ Text.places isBoundary (barred cells) := by
  obtain ⟨before, hBarred, hBoundary⟩ := exists_barred_eq h
  rw [hBarred, Text.mem_places]
  exact ⟨'|', by simp, by simpa using hBoundary⟩

theorem isChain_escape (text : List Char) (c : Char) :
    List.IsChain (fun a b => b = '|' → a = '\\') (c :: (text.flatMap escapeChar ++ [' '])) := by
  induction text generalizing c with
  | nil => simp
  | cons d text ih =>
    rw [List.flatMap_cons, escapeChar.eq_def]
    split
    · exact .cons_cons (fun h => nomatch h) (.cons_cons (fun _ => rfl) (ih '|'))
    · exact .cons_cons (fun h => nomatch h) (ih ' ')
    · exact ih c
    · rename_i hBar _ _
      exact .cons_cons (fun h => (hBar h).elim) (ih d)

theorem sealed_padded (text : List Char) : Sealed (padded (text.flatMap escapeChar)) where
  uncut before c after hCut := by
    have hChain := isChain_escape text ' '
    rw [← List.cons_append, ← padded, hCut, List.isChain_append] at hChain
    cases hLast : before.getLast? with
    | none =>
      rw [List.getLast?_eq_none_iff.mp hLast] at hCut
      cases hCut
      rfl
    | some d =>
      cases hBar : c == '|' with
      | false => rw [isBoundary, hBar, Bool.false_and]
      | true =>
        rw [hChain.2.2 d hLast c rfl (beq_iff_eq.mp hBar)] at hLast
        rw [isBoundary, hLast]
        exact Bool.and_false _
  boundary := by
    rw [isBoundary, padded, List.getLast?_concat]
    rfl

theorem head?_escape (text : List Char) : (text.flatMap escapeChar).head? ≠ some '|' := by
  induction text with
  | nil => simp
  | cons c text ih =>
    rw [List.flatMap_cons, escapeChar.eq_def]
    split
    · simp
    · simp
    · exact ih
    · rename_i hBar _ _
      simpa using hBar

theorem unescape_cons {rest : List Char} (h : rest.head? ≠ some '|') (c : Char) :
    unescape (c :: rest) = c :: unescape rest := by
  rw [unescape]
  rintro tail - rfl
  exact h rfl

theorem unescape_escape (text : List Char) : unescape (text.flatMap escapeChar) = flat text := by
  induction text with
  | nil => rfl
  | cons c text ih =>
    rw [List.flatMap_cons, escapeChar.eq_def]
    split
    · exact congrArg ('|' :: ·) ih
    · rw [List.singleton_append, unescape_cons (head?_escape text), ih]
      rfl
    · exact ih
    · rename_i hFeed hReturn
      have hKept : c ≠ '\n' ∧ c ≠ '\r' := ⟨hFeed, hReturn⟩
      rw [List.singleton_append, unescape_cons (head?_escape text), ih]
      simp [flat, hKept]

theorem escape_eq_self (h : ∀ c ∈ text, c ≠ '|' ∧ c ≠ '\n' ∧ c ≠ '\r') :
    text.flatMap escapeChar = text := by
  induction text with
  | nil => rfl
  | cons c text ih =>
    rw [List.forall_mem_cons] at h
    rw [List.flatMap_cons, ih h.2, escapeChar]
    · rfl
    · exact h.1.1
    · exact h.1.2.1
    · exact h.1.2.2

theorem not_mem_escape (text : List Char) : '\n' ∉ text.flatMap escapeChar := by
  rw [List.mem_flatMap]
  rintro ⟨c, -, hc⟩
  rw [escapeChar.eq_def] at hc
  split at hc
  · simp at hc
  · simp at hc
  · simp at hc
  · rename_i hFeed _
    exact hFeed (List.mem_singleton.mp hc).symm

def headCells (width : Nat) : List (List Char) :=
  padded [' '] :: (List.range width).map fun col => padded (Address.columnLabel col).toList

def ruleCells (width : Nat) : List (List Char) := List.replicate (width + 1) ['-', '-', '-']

def bodyCells (width row : Nat) (texts : List String) : List (List Char) :=
  padded (toString (row + 1)).toList ::
    (padRow width texts).map fun text => padded (text.toList.flatMap escapeChar)

def tableCells (grid : List (List String)) : List (List (List Char)) :=
  let width := Sheet.width ⟨grid⟩
  headCells width :: ruleCells width :: grid.mapIdx (bodyCells width)

theorem toList_line (head : String) (cells : List String) : (line head cells).toList =
    barred (padded head.toList :: cells.map fun cell => padded cell.toList) ++ ['\n'] := by
  simp [line, barred, padded, String.toList_append, String.toList_join, List.flatMap_map]

theorem toList_rule (width : Nat) :
    ("|---|" ++ String.join (List.replicate width "---|") ++ "\n").toList =
      barred (ruleCells width) ++ ['\n'] := by
  simp [ruleCells, barred, List.replicate_succ, String.toList_append, String.toList_join,
    List.flatMap_replicate]

theorem toList_row (width row : Nat) (texts : List String) :
    (line (toString (row + 1)) ((padRow width texts).map escape)).toList =
      barred (bodyCells width row texts) ++ ['\n'] := by
  simp [toList_line, bodyCells, escape, Function.comp_def]

theorem toList_rows (width : Nat) (grid : List (List String)) :
    (String.join (grid.mapIdx fun row texts =>
      line (toString (row + 1)) ((padRow width texts).map escape))).toList =
      ((grid.mapIdx (bodyCells width)).map barred).flatMap (· ++ ['\n']) := by
  simp only [String.toList_join, List.mapIdx_eq_zipIdx_map, List.flatMap_map, toList_row]

theorem toList_table (grid : List (List String)) :
    (table grid).toList = ((tableCells grid).map barred).flatMap (· ++ ['\n']) := by
  have hHead : (line " " ((List.range (Sheet.width ⟨grid⟩)).map Address.columnLabel)).toList =
      barred (headCells (Sheet.width ⟨grid⟩)) ++ ['\n'] := by
    rw [toList_line, headCells, List.map_map]
    rfl
  rw [table, String.toList_append, String.toList_append, hHead, toList_rule, toList_rows, tableCells,
    List.map_cons, List.map_cons, List.flatMap_cons, List.flatMap_cons, List.append_assoc]

variable {grid : List (List String)}

def Fits (cell : List Char) : Prop := Sealed cell ∧ '\n' ∉ cell

theorem fits_escaped (text : List Char) : Fits (padded (text.flatMap escapeChar)) := by
  refine ⟨sealed_padded text, ?_⟩
  simpa [padded] using not_mem_escape text

theorem fits_of_isAlphanum (h : ∀ c ∈ text, c.isAlphanum = true) : Fits (padded text) := by
  have hPlain : ∀ c ∈ text, c ≠ '|' ∧ c ≠ '\n' ∧ c ≠ '\r' := by
    intro c hc
    have hKind := h c hc
    refine ⟨?_, ?_, ?_⟩ <;> rintro rfl <;> cases hKind
  rw [← escape_eq_self hPlain]
  exact fits_escaped text

theorem fits_of_mem_headCells {width : Nat} {cell : List Char} (h : cell ∈ headCells width) :
    Fits cell := by
  rcases List.mem_cons.mp h with rfl | h
  · exact fits_escaped [' ']
  · obtain ⟨col, -, rfl⟩ := List.mem_map.mp h
    apply fits_of_isAlphanum
    intro c hc
    rw [Char.isAlphanum, Address.isAlpha_of_mem_columnLabel hc, Bool.true_or]

theorem fits_of_mem_ruleCells {width : Nat} {cell : List Char} (h : cell ∈ ruleCells width) :
    Fits cell := by
  rw [(List.mem_replicate.mp h).2]
  refine ⟨⟨?_, rfl⟩, by decide⟩
  intro before c after hCut
  have hDash : c ∈ ['-', '-', '-'] := by
    rw [hCut]
    simp
  have hEq : c = '-' := by simpa using hDash
  rw [hEq]
  rfl

theorem fits_of_mem_bodyCells {width row : Nat} {texts : List String} {cell : List Char}
    (h : cell ∈ bodyCells width row texts) : Fits cell := by
  rcases List.mem_cons.mp h with rfl | h
  · apply fits_of_isAlphanum
    intro c hc
    have hDigit : c ∈ Nat.toDigits 10 (row + 1) := by rwa [← Nat.toList_repr]
    rw [Char.isAlphanum, Address.isDigit_of_mem_toDigits hDigit, Bool.or_true]
  · obtain ⟨text, -, rfl⟩ := List.mem_map.mp h
    exact fits_escaped text.toList

theorem fits_of_mem_tableCells (hCells : cells ∈ tableCells grid) : ∀ cell ∈ cells, Fits cell := by
  rcases List.mem_cons.mp hCells with rfl | hCells
  · exact fun _ => fits_of_mem_headCells
  rcases List.mem_cons.mp hCells with rfl | hCells
  · exact fun _ => fits_of_mem_ruleCells
  obtain ⟨row, hRow, rfl⟩ := List.mem_mapIdx.mp hCells
  exact fun _ => fits_of_mem_bodyCells

theorem length_of_mem_tableCells (hCells : cells ∈ tableCells grid) :
    cells.length = Sheet.width ⟨grid⟩ + 1 := by
  rcases List.mem_cons.mp hCells with rfl | hCells
  · simp [headCells]
  rcases List.mem_cons.mp hCells with rfl | hCells
  · simp [ruleCells]
  obtain ⟨row, hRow, rfl⟩ := List.mem_mapIdx.mp hCells
  have hLength := Sheet.length_le_width ⟨grid⟩ (List.getElem_mem hRow)
  rw [bodyCells, List.length_cons, List.length_map, length_padRow, Nat.max_eq_left hLength]

theorem newline_not_mem_barred (h : ∀ cell ∈ cells, Fits cell) : '\n' ∉ barred cells := by
  rw [barred, List.mem_flatMap]
  rintro ⟨cell, hCell, hFeed⟩
  rw [List.mem_append, List.mem_singleton] at hFeed
  rcases hFeed with hFeed | hFeed
  · rcases List.mem_cons.mp hCell with rfl | hCell
    · cases hFeed
    · exact (h cell hCell).2 hFeed
  · cases hFeed

theorem lines_render {doc : Document} (h : doc.isEmpty = false) : Text.lines (render doc).toList =
    "# Sheet".toList :: [] :: (tableCells doc.displayGrid).map barred := by
  have hRender : (render doc).toList = ("# Sheet".toList :: [] ::
      (tableCells doc.displayGrid).map barred).flatMap (· ++ ['\n']) := by
    rw [render, h, if_neg Bool.false_ne_true, String.toList_append, toList_table]
    rfl
  rw [hRender]
  apply Text.lines_flatMap
  intro line hLine
  rcases List.mem_cons.mp hLine with rfl | hLine
  · decide
  rcases List.mem_cons.mp hLine with rfl | hLine
  · decide
  obtain ⟨cells, hCells, rfl⟩ := List.mem_map.mp hLine
  have hFits := fits_of_mem_tableCells hCells
  obtain ⟨before, hBarred, -⟩ := exists_barred_eq fun cell hCell => (hFits cell hCell).1
  refine ⟨newline_not_mem_barred hFits, ?_⟩
  rw [hBarred, List.getLast?_concat]
  decide

theorem displayGrid_ne_nil {doc : Document} (h : doc.isEmpty = false) : doc.displayGrid ≠ [] := by
  intro hGrid
  have hLengths := doc.lengths_displayGrid
  rw [hGrid, List.map_nil, eq_comm, List.map_eq_nil_iff] at hLengths
  rw [Document.isEmpty, Sheet.isEmpty, hLengths] at h
  cases h

theorem bodyCells_spec {width : Nat} {texts : List String} (h : texts.length ≤ width) (row : Nat) :
    ∃ inner : List (List Char),
      bodyCells width row texts = padded (toString (row + 1)).toList :: inner.map padded ∧
      inner.map unescape =
        (List.range width).map fun col => flat ((texts[col]?).getD "").toList := by
  refine ⟨(padRow width texts).map fun text => text.toList.flatMap escapeChar, ?_, ?_⟩
  · rw [bodyCells, List.map_map]
    rfl
  · rw [List.map_map, padRow_eq_map h, List.map_map]
    exact List.map_congr_left fun col _ => unescape_escape _

/-- Each line of a table has the same number of boundaries, one first and one last, and the cells of a
row give its displayed texts back, each on one line, and nothing where the row is short. -/
theorem table_keeps_its_cells (doc : Document) (h : doc.isEmpty = false) :
    ∃ (width : Nat) (header rule : List Char) (body : List (List Char)),
      (∀ texts ∈ doc.displayGrid, texts.length ≤ width) ∧
      (∃ texts ∈ doc.displayGrid, texts.length = width) ∧
      Text.lines (render doc).toList = "# Sheet".toList :: [] :: header :: rule :: body ∧
      (Text.lines (render doc).toList).length = doc.displayGrid.length + 4 ∧
      (∀ line ∈ header :: rule :: body, (Text.places isBoundary line).length = width + 2 ∧
        0 ∈ Text.places isBoundary line ∧ line.length - 1 ∈ Text.places isBoundary line) ∧
      Text.pieces isBoundary header = [] :: padded [' '] ::
        (List.range width).map (fun col => padded (Address.columnLabel col).toList) ++ [[]] ∧
      ∀ row texts, doc.displayGrid[row]? = some texts →
        ∃ (line : List Char) (inner : List (List Char)), body[row]? = some line ∧
          Text.pieces isBoundary line =
            [] :: padded (toString (row + 1)).toList :: inner.map padded ++ [[]] ∧
          inner.map unescape =
            (List.range width).map fun col => flat ((texts[col]?).getD "").toList := by
  have hWidth : ∀ texts ∈ doc.displayGrid, texts.length ≤ Sheet.width ⟨doc.displayGrid⟩ :=
    fun _ => Sheet.length_le_width ⟨doc.displayGrid⟩
  have hSealed : ∀ cells ∈ tableCells doc.displayGrid, ∀ cell ∈ cells, Sealed cell :=
    fun cells hCells cell hCell => (fits_of_mem_tableCells hCells cell hCell).1
  refine ⟨Sheet.width ⟨doc.displayGrid⟩, barred (headCells _), barred (ruleCells _),
    (doc.displayGrid.mapIdx (bodyCells _)).map barred, hWidth,
    Sheet.exists_length_eq_width ⟨doc.displayGrid⟩ (displayGrid_ne_nil h), lines_render h,
    ?_, ?_, ?_, ?_⟩
  · rw [lines_render h]
    simp [tableCells]
  · intro line hLine
    obtain ⟨cells, hCells, rfl⟩ :=
      List.mem_map.mp (show line ∈ (tableCells doc.displayGrid).map barred from hLine)
    refine ⟨?_, zero_mem_places_barred cells, last_mem_places_barred (hSealed cells hCells)⟩
    rw [length_places_barred (hSealed cells hCells), length_of_mem_tableCells hCells]
  · exact pieces_barred (hSealed _ (.head _))
  · intro row texts hRow
    obtain ⟨inner, hCells, hTexts⟩ := bodyCells_spec (hWidth texts (List.mem_of_getElem? hRow)) row
    have hRow' : (doc.displayGrid.mapIdx (bodyCells (Sheet.width ⟨doc.displayGrid⟩)))[row]? =
        some (bodyCells (Sheet.width ⟨doc.displayGrid⟩) row texts) := by
      rw [List.getElem?_mapIdx, hRow]
      rfl
    refine ⟨barred (bodyCells (Sheet.width ⟨doc.displayGrid⟩) row texts), inner, ?_, ?_, hTexts⟩
    · rw [List.getElem?_map, hRow']
      rfl
    · rw [pieces_barred (hSealed _ (.tail _ (.tail _ (List.mem_of_getElem? hRow')))), hCells]

theorem table_keeps_bars_and_backslashes :
    (Document.ofSheet ⟨[["a|\\", "\\|\n"], ["\r"]]⟩).isEmpty = false ∧
      ∃ (header line : List Char) (inner : List (List Char)),
        header ∈ Text.lines (render (.ofSheet ⟨[["a|\\", "\\|\n"], ["\r"]]⟩)).toList ∧
        Text.pieces isBoundary header = [[], padded [' '], padded ['A'], padded ['B'], []] ∧
        line ∈ Text.lines (render (.ofSheet ⟨[["a|\\", "\\|\n"], ["\r"]]⟩)).toList ∧
        Text.pieces isBoundary line = [] :: padded ['1'] :: inner.map padded ++ [[]] ∧
        inner.map unescape = [['a', '|', '\\'], ['\\', '|', ' ']] := by
  have hGrid : (Document.ofSheet ⟨[["a|\\", "\\|\n"], ["\r"]]⟩).displayGrid =
      [["a|\\", "\\|\n"], ["\r"]] := by
    decide +kernel
  obtain ⟨width, header, rule, body, hWidth, ⟨texts, hTexts, hLongest⟩, hLines, -, -, hHeader,
      hRows⟩ := table_keeps_its_cells (.ofSheet ⟨[["a|\\", "\\|\n"], ["\r"]]⟩) rfl
  rw [hGrid] at hWidth hTexts hRows
  have hTwo : width = 2 := by
    have hFirst := hWidth _ (.head _)
    simp only [List.mem_cons, List.not_mem_nil, or_false] at hTexts
    rcases hTexts with rfl | rfl
    · exact hLongest.symm
    · exact absurd (hLongest ▸ hFirst) (by decide)
  have hLetters : (List.range 2).map (fun col => padded (Address.columnLabel col).toList) =
      [padded ['A'], padded ['B']] := by
    simp [List.range_succ, Address.toList_columnLabel, Address.columnLetters, Address.letter]
  obtain ⟨line, inner, hLine, hPieces, hInner⟩ := hRows 0 _ rfl
  refine ⟨rfl, header, line, inner, ?_, ?_, ?_, hPieces, ?_⟩
  · rw [hLines]
    simp
  · rw [hHeader, hTwo, hLetters]
    rfl
  · rw [hLines]
    simp [List.mem_of_getElem? hLine]
  · rw [hInner, hTwo]
    decide

end FormulaGrid.Markdown
