import FormulaGrid.Text.Lines

/-!
# Cutting a text into lines

A stretch without line feeds that one follows is the first line, less a carriage return at its end,
and the lines after it are those of the rest. The lines of a text are the only ones that give the text
when each of them is ended in one of the two ways, the last one possibly in none.
-/

set_option autoImplicit false

namespace FormulaGrid.Text

theorem linesAfter_append {line : List Char} (hLine : '\n' ∉ line) (before rest : List Char) :
    linesAfter before (line ++ '\n' :: rest) =
      dropReturn (before.reverse ++ line) :: linesAfter [] rest := by
  induction line generalizing before with
  | nil => rw [List.append_nil, List.nil_append, linesAfter]
  | cons c line ih =>
    rw [List.mem_cons, not_or] at hLine
    rw [List.cons_append, linesAfter, ih hLine.2, List.reverse_cons, List.append_assoc,
      List.singleton_append]
    exact fun h => hLine.1 h.symm

theorem lines_append {line : List Char} (hLine : '\n' ∉ line) (rest : List Char) :
    lines (line ++ '\n' :: rest) = dropReturn line :: lines rest :=
  linesAfter_append hLine [] rest

theorem dropReturn_eq_self {line : List Char} (h : line.getLast? ≠ some '\r') :
    dropReturn line = line := by
  rw [dropReturn, if_neg h]

theorem count_dropReturn {c : Char} (hc : c ≠ '\r') (line : List Char) :
    (dropReturn line).count c = line.count c := by
  rw [dropReturn]
  split
  · rename_i hLast
    obtain ⟨before, rfl⟩ := List.getLast?_eq_some_iff.mp hLast
    rw [List.dropLast_concat, List.count_append, List.count_singleton, if_neg]
    · rfl
    · simpa using hc.symm
  · rfl

/-- A text and its lines: each one ends at a line feed or at a carriage return and a line feed, unless
it is the last one and not empty. -/
inductive ConsistsOf : List Char → List (List Char) → Prop where
  | nil : ConsistsOf [] []
  | last {line : List Char} (hLine : '\n' ∉ line) (hEmpty : line ≠ []) : ConsistsOf line [line]
  | feed {line rest : List Char} {others : List (List Char)} (hLine : '\n' ∉ line)
      (hReturn : line.getLast? ≠ some '\r') :
      ConsistsOf rest others → ConsistsOf (line ++ '\n' :: rest) (line :: others)
  | returnFeed {line rest : List Char} {others : List (List Char)} (hLine : '\n' ∉ line) :
      ConsistsOf rest others → ConsistsOf (line ++ '\r' :: '\n' :: rest) (line :: others)

theorem linesAfter_of_not_mem {line : List Char} (hLine : '\n' ∉ line) (before : List Char) :
    linesAfter before line = linesAfter (line.reverse ++ before) [] := by
  induction line generalizing before with
  | nil => rfl
  | cons c line ih =>
    rw [List.mem_cons, not_or] at hLine
    have hStep : linesAfter before (c :: line) = linesAfter (c :: before) line := by
      rw [linesAfter]
      exact fun h => hLine.1 h.symm
    rw [hStep, ih hLine.2, List.reverse_cons, List.append_assoc, List.singleton_append]

theorem consistsOf_linesAfter {before text : List Char} (hBefore : '\n' ∉ before) :
    ConsistsOf (before.reverse ++ text) (linesAfter before text) := by
  fun_induction linesAfter before text with
  | case1 before hEmpty =>
    rw [List.isEmpty_iff.mp hEmpty]
    exact .nil
  | case2 before hEmpty =>
    rw [List.append_nil]
    exact .last (by simpa using hBefore) (by simpa using hEmpty)
  | case3 before rest ih =>
    have hRest := ih List.not_mem_nil
    rw [dropReturn]
    split
    · rename_i hLast
      obtain ⟨line, hLine⟩ := List.getLast?_eq_some_iff.mp hLast
      rw [← List.mem_reverse, hLine, List.mem_append, not_or] at hBefore
      rw [hLine, List.dropLast_concat, List.append_assoc]
      exact .returnFeed hBefore.1 hRest
    · rename_i hLast
      exact .feed (by simpa using hBefore) hLast hRest
  | case4 before c rest hFeed ih =>
    rw [List.append_cons, ← List.reverse_cons]
    refine ih ?_
    rw [List.mem_cons, not_or]
    exact ⟨fun h => hFeed h.symm, hBefore⟩

theorem lines_eq_iff {text : List Char} {found : List (List Char)} :
    lines text = found ↔ ConsistsOf text found := by
  constructor
  · rintro rfl
    exact consistsOf_linesAfter List.not_mem_nil
  · intro h
    induction h with
    | nil => rfl
    | last hLine hEmpty =>
      rw [lines, linesAfter_of_not_mem hLine, List.append_nil, linesAfter, List.reverse_reverse,
        if_neg (by simpa using hEmpty)]
    | feed hLine hReturn _ ih => rw [lines_append hLine, dropReturn_eq_self hReturn, ih]
    | @returnFeed line rest others hLine _ ih =>
      have hReturn : '\n' ∉ line ++ ['\r'] := by simpa using hLine
      rw [← List.singleton_append, ← List.append_assoc, lines_append hReturn, dropReturn,
        if_pos List.getLast?_concat, List.dropLast_concat, ih]

theorem lines_eq_nil_iff {text : List Char} : lines text = [] ↔ text = [] := by
  rw [lines_eq_iff]
  constructor
  · rintro ⟨⟩
    rfl
  · rintro rfl
    exact .nil

theorem lines_flatMap {written : List (List Char)}
    (h : ∀ line ∈ written, '\n' ∉ line ∧ line.getLast? ≠ some '\r') :
    lines (written.flatMap (· ++ ['\n'])) = written := by
  induction written with
  | nil => rfl
  | cons line written ih =>
    rw [List.forall_mem_cons] at h
    rw [List.flatMap_cons, List.append_assoc, List.singleton_append, lines_append h.1.1,
      dropReturn_eq_self h.1.2, ih h.2]

end FormulaGrid.Text
