import FormulaGrid.Proofs.Csv.Fields
import FormulaGrid.Proofs.Text.Lines
import FormulaGrid.Proofs.Text.Pieces

/-!
# What the reader takes for a field

A quote is open behind an odd number of quotes. A line is cut at its commas outside quotes, and each
piece stands for a field: without a quote for its trimmed text, with quotes for all of its text but the
quotes, of which two that stand together inside quotes leave one. A line with a quote left open is
refused, and the first such line of a text with it the whole text.
-/

set_option autoImplicit false

namespace FormulaGrid.Csv

def isOpen (before : List Char) : Bool := before.count '"' % 2 == 1

/-- A comma outside quotes, on a line that begins inside quotes or not. -/
def separates (quoted : Bool) (before : List Char) (c : Char) : Bool :=
  c == ',' && !(quoted ^^ isOpen before)

def select (keeps : List Char → Char → List Char → Bool) : List Char → List Char
  | [] => []
  | c :: rest =>
    let others := select (fun before => keeps (c :: before)) rest
    if keeps [] c rest then c :: others else others

/-- Of the quotes only the first of two that stand together inside quotes is text. -/
def isText (quoted : Bool) (before : List Char) (c : Char) (after : List Char) : Bool :=
  c != '"' || (quoted ^^ isOpen before) && after.head? == some '"'

def fieldOf (piece : List Char) : String :=
  String.ofList (if '"' ∈ piece then select (isText false) piece else Text.trim piece)

def fieldsOf (line : List Char) : List String :=
  (Text.pieces (separates false) line).map fieldOf

variable {quoted : Bool} {field : Field}

theorem isOpen_cons (c : Char) (before : List Char) :
    isOpen (c :: before) = (c == '"' ^^ isOpen before) := by
  rw [isOpen, isOpen, List.count_cons]
  cases c == '"' with
  | true =>
    rw [Bool.true_xor, Bool.eq_iff_iff]
    simp only [beq_iff_eq, Bool.not_eq_true', beq_eq_false_iff_ne, ite_true]
    omega
  | false => simp

theorem pieces_cons (quoted : Bool) (c : Char) (rest : List Char) :
    Text.pieces (separates quoted) (c :: rest) =
      let others := Text.pieces (separates (quoted ^^ c == '"')) rest
      if separates quoted [] c then [] :: others else others.modifyHead (c :: ·) := by
  have hRest : (fun before => separates quoted (c :: before)) = separates (quoted ^^ c == '"') := by
    funext before d
    rw [separates, separates, isOpen_cons, Bool.xor_assoc]
  rw [Text.pieces, hRest]

theorem select_cons (quoted : Bool) (c : Char) (rest : List Char) :
    select (isText quoted) (c :: rest) =
      let others := select (isText (quoted ^^ c == '"')) rest
      if isText quoted [] c rest then c :: others else others := by
  have hRest : (fun before => isText quoted (c :: before)) = isText (quoted ^^ c == '"') := by
    funext before d after
    rw [isText, isText, isOpen_cons, Bool.xor_assoc]
  rw [select, hRest]

def Field.meet (field : Field) (quoted : Bool) (c : Char) (after : List Char) : Field :=
  ⟨if isText quoted [] c after then c :: field.text else field.text, field.quoted || c == '"'⟩

theorem Field.meet_of_ne {c : Char} (h : (c == '"') = false) (field : Field) (quoted : Bool)
    (after : List Char) : field.meet quoted c after = field.push c := by
  simp [meet, push, isText, bne, h]

/-- Of two quotes inside quotes the reader takes the first as the text and the other as nothing, as if
the second opened again what the first one closed. -/
theorem fieldsAfter_cons (hField : quoted = true → field.quoted = true) (c : Char)
    (rest : List Char) : fieldsAfter field quoted (c :: rest) =
      if separates quoted [] c then (fieldsAfter .start false rest).map (field.finish :: ·)
      else fieldsAfter (field.meet quoted c rest) (quoted ^^ c == '"') rest := by
  obtain ⟨text, wasQuoted⟩ := field
  generalize hLine : c :: rest = line
  fun_cases fieldsAfter ⟨text, wasQuoted⟩ quoted line with
  | case1 => cases hLine
  | case2 rest =>
    cases hLine
    cases hField rfl
    rfl
  | case3 rest hPair =>
    cases hLine
    cases hField rfl
    have hHead : (rest.head? == some '"') = false := by
      rw [beq_eq_false_iff_ne]
      intro hHead
      obtain ⟨after, hAfter⟩ := List.head?_eq_some_iff.mp hHead
      exact hPair after hAfter
    simp [separates, Field.meet, isText, isOpen, hHead]
  | case4 c rest hPair hQuote =>
    cases hLine
    have hText : (c == '"') = false := beq_eq_false_iff_ne.mpr hQuote
    simp [separates, isOpen, Field.meet_of_ne hText, hText]
  | case5 => cases hLine
  | case6 =>
    cases hLine
    have hMeet : Field.meet ⟨text, wasQuoted⟩ false '"' rest = ⟨text, true⟩ :=
      congrArg (Field.mk text) (Bool.or_true wasQuoted)
    rw [hMeet]
    rfl
  | case7 =>
    cases hLine
    rfl
  | case8 c rest hQuote hComma =>
    cases hLine
    have hText : (c == '"') = false := beq_eq_false_iff_ne.mpr hQuote
    have hOther : (c == ',') = false := beq_eq_false_iff_ne.mpr hComma
    simp [separates, Field.meet_of_ne hText, hText, hOther]

theorem head?_of_pieces {line first : List Char} {others : List (List Char)}
    (h : Text.pieces (separates quoted) line = first :: others) :
    (first.head? == some '"') = (line.head? == some '"') := by
  cases line with
  | nil =>
    cases h
    rfl
  | cons c rest =>
    rw [pieces_cons] at h
    split at h
    · rename_i hComma
      cases h
      rw [separates, Bool.and_eq_true, beq_iff_eq] at hComma
      rw [hComma.1]
      rfl
    · obtain ⟨piece, pieces, hRest⟩ := List.exists_cons_of_ne_nil (Text.pieces_ne_nil _ rest)
      rw [hRest] at h
      cases h
      rfl

def Field.complete (field : Field) (quoted : Bool) (piece : List Char) : Field :=
  ⟨(select (isText quoted) piece).reverse ++ field.text, field.quoted || piece.contains '"'⟩

theorem Field.complete_cons (field : Field) (quoted : Bool) (c : Char) (piece : List Char) :
    field.complete quoted (c :: piece) =
      (field.meet quoted c piece).complete (quoted ^^ c == '"') piece := by
  rw [complete, complete, select_cons, meet, List.contains_cons, BEq.comm, Bool.or_assoc]
  split <;> simp

theorem select_eq_self {piece : List Char} (h : '"' ∉ piece) :
    select (isText quoted) piece = piece := by
  induction piece generalizing quoted with
  | nil => rfl
  | cons c piece ih =>
    rw [List.mem_cons, not_or] at h
    have hText : isText quoted [] c piece = true := by
      rw [isText, bne_iff_ne.mpr (Ne.symm h.1), Bool.true_or]
    rw [select_cons, if_pos hText, ih h.2]

theorem finish_complete (piece : List Char) :
    (Field.start.complete false piece).finish = fieldOf piece := by
  rw [Field.complete, Field.finish, fieldOf]
  simp only [Field.start, List.append_nil, List.reverse_reverse, Bool.false_or, List.contains_iff_mem]
  split
  · rfl
  · rename_i hQuote
    rw [select_eq_self hQuote]

theorem Field.quoted_meet (hField : quoted = true → field.quoted = true) {c : Char}
    (h : (quoted ^^ c == '"') = true) (after : List Char) :
    (field.meet quoted c after).quoted = true := by
  rw [meet, Bool.or_eq_true]
  cases hQuote : c == '"' with
  | true => exact .inr rfl
  | false =>
    rw [hQuote, Bool.xor_false] at h
    exact .inl (hField h)

theorem fieldsAfter_eq {line : List Char} (hField : quoted = true → field.quoted = true)
    (hLine : (quoted ^^ isOpen line) = false) : ∃ first others,
      Text.pieces (separates quoted) line = first :: others ∧ fieldsAfter field quoted line =
        some ((field.complete quoted first).finish :: others.map fieldOf) := by
  induction line generalizing field quoted with
  | nil =>
    cases quoted with
    | true => cases hLine
    | false => exact ⟨[], [], rfl, by simp [fieldsAfter, Field.complete, select]⟩
  | cons c rest ih =>
    rw [isOpen_cons, ← Bool.xor_assoc] at hLine
    rw [fieldsAfter_cons hField, pieces_cons]
    split
    · rename_i hComma
      obtain ⟨rfl, hOutside⟩ : c = ',' ∧ quoted = false := by
        simpa [separates, isOpen] using hComma
      subst hOutside
      obtain ⟨first, others, hPieces, hRest⟩ := @ih false .start Bool.false_ne_true.elim hLine
      refine ⟨[], first :: others, congrArg ([] :: ·) hPieces, ?_⟩
      rw [hRest, finish_complete]
      simp [Field.complete, select]
    · obtain ⟨first, others, hPieces, hRest⟩ :=
        ih (fun h => Field.quoted_meet hField h rest) hLine
      refine ⟨c :: first, others, ?_, ?_⟩
      · rw [hPieces, List.modifyHead_cons]
      · -- the character is taken for text by what follows it on the line and by what follows it in
        -- its piece alike
        rw [hRest, Field.complete_cons, Field.meet, Field.meet, isText, isText, head?_of_pieces hPieces]

theorem fields?_eq (line : List Char) :
    fields? line = if isOpen line then none else some (fieldsOf line) := by
  split
  · rename_i hOpen
    exact (fields?_eq_none_iff line).mpr (beq_iff_eq.mp hOpen)
  · rename_i hClosed
    have hLine : (false ^^ isOpen line) = false := by simpa using hClosed
    obtain ⟨first, others, hPieces, hFields⟩ :=
      @fieldsAfter_eq false .start line Bool.false_ne_true.elim hLine
    rw [fields?, hFields, finish_complete, fieldsOf, hPieces, List.map_cons]

example : fieldsOf "a \"b, \"\"c\"\"\" , d ,".toList = ["a b, \"c\" ", "d", ""] := by decide

theorem rowsFrom_eq (number : Nat) (lines : List (List Char)) :
    rowsFrom number lines = match lines.findIdx? isOpen with
      | none => .ok (lines.map fieldsOf)
      | some place => .error (.unclosedQuote (number + place)) := by
  induction lines generalizing number with
  | nil => rfl
  | cons line lines ih =>
    rw [rowsFrom, fields?_eq, List.findIdx?_cons, ih]
    cases isOpen line with
    | true => rfl
    | false =>
      cases lines.findIdx? isOpen with
      | none => rfl
      | some place =>
        simp only [Option.map_some, Bool.false_eq_true, if_false]
        rw [show number + (place + 1) = number + 1 + place by omega]
        rfl

theorem reads_by_grammar :
    (∀ line : List Char, fields? line = if line.count '"' % 2 = 1 then none
      else some ((Text.pieces (separates false) line).map fieldOf)) ∧
    ∀ text : String, Text.ConsistsOf text.toList (Text.lines text.toList) ∧
      (rows text = match (Text.lines text.toList).findIdx? isOpen with
        | none => .ok ((Text.lines text.toList).map fieldsOf)
        | some place => .error (.unclosedQuote (place + 1))) ∧
      (rows text = .ok [] ↔ text = "") := by
  constructor
  · intro line
    simpa [isOpen, fieldsOf] using fields?_eq line
  intro text
  have hRows : rows text = _ := rowsFrom_eq 1 (Text.lines text.toList)
  refine ⟨Text.lines_eq_iff.mp rfl, ?_, ?_⟩
  · rw [hRows]
    cases (Text.lines text.toList).findIdx? isOpen with
    | none => rfl
    | some place => simp only [Nat.add_comm]
  · rw [← String.toList_eq_nil_iff, ← Text.lines_eq_nil_iff, hRows]
    constructor
    · intro hNone
      split at hNone
      · exact List.map_eq_nil_iff.mp (Except.ok.inj hNone)
      · cases hNone
    · intro hLines
      rw [hLines]
      rfl

end FormulaGrid.Csv
