import Mathlib.Data.List.Basic

/-!
# Pieces of a text

A text is cut at some of its characters, and what stands before a character may decide whether it is
one of them. There is one piece more than there are cuts. A stretch without a cut is a piece, if the
character behind it cuts.
-/

set_option autoImplicit false

namespace FormulaGrid.Text

/-- What stands between the characters that cut. Each character is judged with all that stands before
it. -/
def pieces (cuts : List Char → Char → Bool) : List Char → List (List Char)
  | [] => [[]]
  | c :: rest =>
    let others := pieces (fun before => cuts (c :: before)) rest
    if cuts [] c then [] :: others else others.modifyHead (c :: ·)

def places (cuts : List Char → Char → Bool) (text : List Char) : List Nat :=
  (List.range text.length).filter fun place => text[place]?.any (cuts (text.take place))

def Uncut (cuts : List Char → Char → Bool) (stretch : List Char) : Prop :=
  ∀ before c after, stretch = before ++ c :: after → cuts before c = false

variable {cuts : List Char → Char → Bool} {stretch text : List Char}

theorem places_cons (cuts : List Char → Char → Bool) (c : Char) (rest : List Char) :
    places cuts (c :: rest) =
      let others := (places (fun before => cuts (c :: before)) rest).map Nat.succ
      if cuts [] c then 0 :: others else others := by
  rw [places, List.length_cons, List.range_succ_eq_map, List.filter_cons, List.filter_map]
  rfl

theorem length_pieces (cuts : List Char → Char → Bool) (text : List Char) :
    (pieces cuts text).length = (places cuts text).length + 1 := by
  induction text generalizing cuts with
  | nil => rfl
  | cons c rest ih =>
    rw [pieces, places_cons]
    split
    · simp [ih]
    · simp [ih]

theorem pieces_ne_nil (cuts : List Char → Char → Bool) (text : List Char) :
    pieces cuts text ≠ [] := by
  apply List.ne_nil_of_length_pos
  rw [length_pieces]
  exact Nat.succ_pos _

theorem mem_places {place : Nat} : place ∈ places cuts text ↔
    ∃ c, text[place]? = some c ∧ cuts (text.take place) c = true := by
  rw [places, List.mem_filter, List.mem_range, Option.any_eq_true, and_iff_right_of_imp]
  rintro ⟨c, hc, _⟩
  exact (List.getElem?_eq_some_iff.mp hc).1

theorem pieces_append (h : Uncut cuts stretch) (rest : List Char) : pieces cuts (stretch ++ rest) =
    (pieces (fun before => cuts (stretch ++ before)) rest).modifyHead (stretch ++ ·) := by
  induction stretch generalizing cuts with
  | nil => exact (congrFun List.modifyHead_id _).symm
  | cons c stretch ih =>
    have hStretch : Uncut (fun before => cuts (c :: before)) stretch := by
      rintro before d after rfl
      exact h (c :: before) d after rfl
    rw [List.cons_append, pieces, ih hStretch, h [] c stretch rfl, List.modifyHead_modifyHead]
    rfl

theorem pieces_cut (h : Uncut cuts stretch) {c : Char} (hc : cuts stretch c = true)
    (rest : List Char) : pieces cuts (stretch ++ c :: rest) =
      stretch :: pieces (fun before => cuts (stretch ++ c :: before)) rest := by
  rw [pieces_append h, pieces, List.append_nil, if_pos hc, List.modifyHead_cons, List.append_nil]

theorem cut_append {mark : Char} (h : mark ∉ stretch) (rest : List Char) :
    (stretch ++ mark :: rest).takeWhile (· ≠ mark) = stretch ∧
      (stretch ++ mark :: rest).dropWhile (· ≠ mark) = mark :: rest := by
  have hStretch : ∀ c ∈ stretch, decide (c ≠ mark) = true := by
    intro c hc
    rw [decide_eq_true_eq]
    rintro rfl
    exact h hc
  rw [List.takeWhile_append_of_pos hStretch, List.dropWhile_append_of_pos hStretch]
  simp

theorem eq_append_of_dropWhile {mark c : Char} {rest : List Char}
    (h : text.dropWhile (· ≠ mark) = c :: rest) :
    text = text.takeWhile (· ≠ mark) ++ mark :: rest := by
  have hHead := List.head?_dropWhile_not (fun d => decide (d ≠ mark)) text
  rw [h] at hHead
  have hMark : c = mark := by simpa using hHead
  rw [← hMark, ← h, hMark, List.takeWhile_append_dropWhile]

end FormulaGrid.Text
