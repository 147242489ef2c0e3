import FormulaGrid.Evaluation.Reading
import FormulaGrid.Proofs.Formula.Arithmetic
import FormulaGrid.Proofs.Text.Blank

/-!
# Pieces and tokens of a formula text

Operators cut a text into pieces, one more than there are operators. Tokens do not tell where a blank
piece has vanished, and still what is left never forms a chain: an operator then follows on an operator
or stands at an end.
-/

set_option autoImplicit false

namespace FormulaGrid

namespace Operator

theorem ofChar?_eq_some_iff {c : Char} {op : Operator} : ofChar? c = some op ↔ c = op.toChar := by
  constructor
  · intro h
    rw [ofChar?.eq_def] at h
    split at h <;> cases h <;> rfl
  · rintro rfl
    cases op <;> rfl

theorem ofChar?_toChar (op : Operator) : ofChar? op.toChar = some op :=
  ofChar?_eq_some_iff.mpr rfl

theorem ofChar?_of_isBlank {c : Char} (h : Text.isBlank c = true) : ofChar? c = none := by
  rw [Option.eq_none_iff_forall_ne_some]
  intro op hOp
  rw [ofChar?_eq_some_iff.mp hOp] at h
  cases op <;> exact absurd h (by decide)

end Operator

namespace Chain

def spell (pieces : Chain (List Char)) : List Char :=
  pieces.first ++ pieces.links.flatMap fun link => link.1.toChar :: link.2

structure IsSplit (pieces : Chain (List Char)) (text : List Char) : Prop where
  spell_eq : pieces.spell = text
  inside : ∀ piece ∈ pieces.toList, ∀ c ∈ piece, Operator.ofChar? c = none

def split : List Char → Chain (List Char)
  | [] => ⟨[], []⟩
  | c :: rest =>
    let pieces := split rest
    match Operator.ofChar? c with
    | some op => ⟨[], (op, pieces.first) :: pieces.links⟩
    | none => ⟨c :: pieces.first, pieces.links⟩

theorem isSplit_split (text : List Char) : IsSplit (split text) text := by
  induction text with
  | nil => exact ⟨rfl, by simp [split, toList]⟩
  | cons c rest ih =>
    obtain ⟨hSpell, hInside⟩ := ih
    rw [split]
    generalize split rest = pieces at hSpell hInside ⊢
    subst hSpell
    obtain ⟨hFirst, hLinks⟩ := List.forall_mem_cons.mp hInside
    split
    · rename_i op hOp
      rw [Operator.ofChar?_eq_some_iff] at hOp
      constructor
      · rw [hOp]
        rfl
      · exact List.forall_mem_cons.mpr ⟨List.forall_mem_nil _, hInside⟩
    · rename_i hOp
      constructor
      · rfl
      · exact List.forall_mem_cons.mpr ⟨List.forall_mem_cons.mpr ⟨hOp, hFirst⟩, hLinks⟩

theorem split_append {stretch : List Char} (h : ∀ c ∈ stretch, Operator.ofChar? c = none)
    (rest : List Char) :
    split (stretch ++ rest) = ⟨stretch ++ (split rest).first, (split rest).links⟩ := by
  induction stretch with
  | nil => rfl
  | cons c stretch ih =>
    obtain ⟨hc, hStretch⟩ := List.forall_mem_cons.mp h
    rw [List.cons_append, split, ih hStretch, hc]
    rfl

theorem split_toChar (op : Operator) (rest : List Char) :
    split (op.toChar :: rest) = ⟨[], (op, (split rest).first) :: (split rest).links⟩ := by
  rw [split, Operator.ofChar?_toChar]

theorem split_spell (first : List Char) (links : List (Operator × List Char))
    (h : ∀ piece ∈ toList ⟨first, links⟩, ∀ c ∈ piece, Operator.ofChar? c = none) :
    split (spell ⟨first, links⟩) = ⟨first, links⟩ := by
  induction links generalizing first with
  | nil =>
    rw [spell, split_append (h first List.mem_cons_self)]
    simp [split]
  | cons link links ih =>
    obtain ⟨op, piece⟩ := link
    obtain ⟨hFirst, hRest⟩ := List.forall_mem_cons.mp h
    have hSpell : spell ⟨first, (op, piece) :: links⟩ =
        first ++ op.toChar :: spell ⟨piece, links⟩ := rfl
    rw [hSpell, split_append hFirst, split_toChar, ih piece hRest, List.append_nil]

/-- A text can be split in one way only. -/
theorem isSplit_iff {pieces : Chain (List Char)} {text : List Char} :
    pieces.IsSplit text ↔ pieces = split text := by
  constructor
  · rintro ⟨rfl, hInside⟩
    exact (split_spell _ _ hInside).symm
  · rintro rfl
    exact isSplit_split text

theorem split_eq_self {text : List Char} (h : ∀ c ∈ text, Operator.ofChar? c = none) :
    split text = ⟨text, []⟩ := by
  symm
  rw [← isSplit_iff]
  exact ⟨List.append_nil text, List.forall_mem_singleton.mpr h⟩

end Chain

namespace Token

def ofLink (link : Operator × List Char) : List Token :=
  operator link.1 :: ofPiece link.2

theorem scanAfter_eq (before text : List Char) : scanAfter before text =
    ofPiece (before.reverse ++ (Chain.split text).first) ++
      (Chain.split text).links.flatMap ofLink := by
  induction text generalizing before with
  | nil => simp [scanAfter, Chain.split]
  | cons c rest ih =>
    cases hOp : Operator.ofChar? c with
    | some op => simp [scanAfter, Chain.split, hOp, ih, ofLink]
    | none => simp [scanAfter, Chain.split, hOp, ih]

theorem scan_eq (text : List Char) : scan text =
    ofPiece (Chain.split text).first ++ (Chain.split text).links.flatMap ofLink :=
  scanAfter_eq [] text

theorem ofPiece_of_blank {piece : List Char} (h : Text.trim piece = []) : ofPiece piece = [] := by
  rw [ofPiece, h]

theorem ofPiece_of_ne {piece : List Char} (h : Text.trim piece ≠ []) :
    ofPiece piece = [operand (Text.trim piece)] := by
  rw [ofPiece.eq_def]
  split
  · contradiction
  · rfl

theorem scan_eq_nil_iff {text : List Char} :
    scan text = [] ↔ ∀ c ∈ text, Text.isBlank c = true := by
  rw [scan_eq]
  constructor
  · intro h
    obtain ⟨hSpell, -⟩ := Chain.isSplit_split text
    generalize Chain.split text = pieces at h hSpell
    obtain ⟨first, links⟩ := pieces
    obtain ⟨hFirst, hLinks⟩ := List.append_eq_nil_iff.mp h
    cases links with
    | nil =>
      have hText : first = text := (List.append_nil first).symm.trans hSpell
      rw [← hText, ← Text.trim_eq_nil_iff]
      by_contra hNot
      rw [ofPiece_of_ne hNot] at hFirst
      cases hFirst
    | cons link links => cases hLinks
  · intro h
    have hSplit := Chain.split_eq_self fun c hc => Operator.ofChar?_of_isBlank (h c hc)
    rw [hSplit, ofPiece_of_blank (Text.trim_eq_nil_iff.mpr h)]
    rfl

end Token

namespace Chain

theorem links?_flatMap (links : List (Operator × List Char)) :
    links? (links.flatMap Token.ofLink) =
      if ∀ link ∈ links, Text.trim link.2 ≠ [] then
        some (links.map fun link => (link.1, Text.trim link.2))
      else none := by
  induction links with
  | nil => simp [links?]
  | cons link links ih =>
    obtain ⟨op, piece⟩ := link
    rw [List.flatMap_cons, Token.ofLink]
    by_cases hPiece : Text.trim piece = []
    · -- the next token is an operator again, or there is none
      rw [Token.ofPiece_of_blank hPiece, if_neg fun h => h _ List.mem_cons_self hPiece]
      cases links with
      | nil => rfl
      | cons next links => rfl
    · rw [Token.ofPiece_of_ne hPiece]
      change (links? (links.flatMap Token.ofLink)).map _ = _
      rw [ih]
      simp only [List.forall_mem_cons, ne_eq, hPiece, not_false_eq_true, true_and]
      split <;> rfl

theorem ofTokens?_scan (text : List Char) : ofTokens? (Token.scan text) =
    if ∀ piece ∈ (split text).toList, Text.trim piece ≠ [] then
      some ((split text).map Text.trim)
    else none := by
  rw [Token.scan_eq]
  generalize split text = pieces
  obtain ⟨first, links⟩ := pieces
  by_cases hFirst : Text.trim first = []
  · rw [Token.ofPiece_of_blank hFirst, if_neg fun h => h _ List.mem_cons_self hFirst]
    cases links with
    | nil => rfl
    | cons link links => rfl
  · rw [Token.ofPiece_of_ne hFirst]
    change (links? (links.flatMap Token.ofLink)).map _ = _
    rw [links?_flatMap]
    simp only [toList, List.forall_mem_cons, List.forall_mem_map, ne_eq, hFirst,
      not_false_eq_true, true_and]
    split <;> rfl

theorem ofTokens?_scan_eq_some_iff {text : List Char} {chain : Chain (List Char)} :
    ofTokens? (Token.scan text) = some chain ↔
      (∀ piece ∈ (split text).toList, ∃ c ∈ piece, Text.isBlank c = false) ∧
        chain = (split text).map Text.trim := by
  rw [ofTokens?_scan]
  simp only [Text.trim_ne_nil_iff, Option.ite_none_right_eq_some, Option.some.injEq]
  exact and_congr_right' eq_comm

/-- Tells operands and operators apart. Operands have the even places and operators the odd ones, and in
the end there has to be one operand more. -/
def sortFrom? (place : Nat) (operands : List (List Char)) (ops : List Operator) :
    List Token → Option (List (List Char) × List Operator)
  | [] => if operands.length = ops.length + 1 then some (operands, ops) else none
  | .operand text :: rest =>
    if place % 2 = 0 then sortFrom? (place + 1) (operands ++ [text]) ops rest else none
  | .operator op :: rest =>
    if place % 2 = 1 then sortFrom? (place + 1) operands (ops ++ [op]) rest else none

theorem sortFrom?_odd {place : Nat} (hPlace : place % 2 = 1) {operands : List (List Char)}
    {ops : List Operator} (hLength : operands.length = ops.length + 1) (tokens : List Token) :
    sortFrom? place operands ops tokens =
      (links? tokens).map fun links =>
        (operands ++ links.map Prod.snd, ops ++ links.map Prod.fst) := by
  fun_induction links? tokens generalizing place operands ops with
  | case1 => simp [sortFrom?, hLength]
  | case2 op text rest ih =>
    have hEven : (place + 1) % 2 = 0 := by omega
    have hOdd : (place + 1 + 1) % 2 = 1 := by omega
    have hNext : (operands ++ [text]).length = (ops ++ [op]).length + 1 := by simp [hLength]
    rw [sortFrom?, if_pos hPlace, sortFrom?, if_pos hEven, ih hOdd hNext, Option.map_map]
    simp [Function.comp_def]
  | case3 tokens hNil hLink =>
    have hOdd : ¬ place % 2 = 0 := by omega
    have hEven : ¬ (place + 1) % 2 = 1 := by omega
    match tokens with
    | [] => exact absurd rfl hNil
    | .operand text :: rest => simp [sortFrom?, hOdd]
    | [.operator op] => simp [sortFrom?, hPlace, hLength]
    | .operator op :: .operator other :: rest => simp [sortFrom?, hPlace, hEven]
    | .operator op :: .operand text :: rest => exact absurd rfl (hLink op text rest)

theorem sortFrom?_eq (tokens : List Token) : sortFrom? 0 [] [] tokens =
    (ofTokens? tokens).map fun chain => (chain.toList, chain.operators) := by
  match tokens with
  | [] => rfl
  | .operator op :: rest => rfl
  | .operand text :: rest =>
    have hRest : sortFrom? 0 [] [] (.operand text :: rest) = sortFrom? 1 [text] [] rest := rfl
    rw [hRest, sortFrom?_odd rfl rfl, ofTokens?, Option.map_map]
    rfl

end Chain

namespace Text

/-- What stands between two offsets. It fails if one of them is inside a character or past the end, or if
the first is behind the second. -/
def slice? (text : String) (start stop : Nat) : Option String := do
  let slice ← text.slice? (← text.pos? ⟨start⟩) (← text.pos? ⟨stop⟩)
  return slice.copy

theorem pos?_of_isValid {text : String} {offset : String.Pos.Raw} (h : offset.IsValid text) :
    text.pos? offset = some (text.pos offset h) := by
  have hSlice := String.Pos.Raw.isValidForSlice_eq_true_iff.mpr h.toSlice
  rw [String.pos?, String.Slice.pos?, dif_pos hSlice]
  rfl

theorem slice?_append (before piece after : String) :
    slice? (before ++ piece ++ after) before.utf8ByteSize (before ++ piece).utf8ByteSize =
      some piece := by
  have hStart : String.Pos.Raw.IsValid (before ++ piece ++ after) ⟨before.utf8ByteSize⟩ :=
    String.Pos.Raw.isValid_iff_exists_append.mpr
      ⟨before, piece ++ after, String.append_assoc .., rfl⟩
  have hStop : String.Pos.Raw.IsValid (before ++ piece ++ after) ⟨(before ++ piece).utf8ByteSize⟩ :=
    String.Pos.Raw.isValid_iff_exists_append.mpr ⟨before ++ piece, after, rfl, rfl⟩
  have hOrder : (before ++ piece ++ after).pos _ hStart ≤
      (before ++ piece ++ after).pos _ hStop := by
    rw [String.Pos.le_iff, String.Pos.Raw.le_iff, String.offset_pos, String.offset_pos,
      String.utf8ByteSize_append]
    exact Nat.le_add_right ..
  rw [slice?, pos?_of_isValid hStart, pos?_of_isValid hStop]
  simp only [Option.bind_eq_bind, Option.bind_some, String.slice?, dif_pos hOrder]
  apply congrArg some
  rw [← String.toByteArray_inj, String.Slice.toByteArray_copy]
  simp only [String.str_slice, String.startInclusive_slice, String.endExclusive_slice,
    String.offset_pos, String.toByteArray_append, ← String.size_toByteArray]
  rw [ByteArray.extract_append_size_left]
  exact ByteArray.extract_append_eq_right rfl ByteArray.size_append

end Text

namespace Token

def sliceFrom? (text : String) (start stop : Nat) : List Char → Option (List Token)
  | [] => do return ofPiece (← Text.slice? text start text.utf8ByteSize).toList
  | c :: rest =>
    let next := stop + c.utf8Size
    match Operator.ofChar? c with
    | some op => do
      let piece ← Text.slice? text start stop
      return ofPiece piece.toList ++ operator op :: (← sliceFrom? text next next rest)
    | none => sliceFrom? text start next rest

theorem sliceFrom?_eq (before piece rest : List Char) :
    sliceFrom? (.ofList (before ++ piece ++ rest)) (String.ofList before).utf8ByteSize
      (String.ofList (before ++ piece)).utf8ByteSize rest = some (scanAfter piece.reverse rest) := by
  induction rest generalizing before piece with
  | nil =>
    have hSlice := Text.slice?_append (.ofList before) (.ofList piece) ""
    simp only [← String.ofList_append, String.append_empty] at hSlice
    rw [sliceFrom?, List.append_nil, hSlice]
    simp [scanAfter]
  | cons c rest ih =>
    have hNext : (String.ofList (before ++ piece)).utf8ByteSize + c.utf8Size =
        (String.ofList (before ++ piece ++ [c])).utf8ByteSize := by
      simp [String.ofList_append, Nat.add_assoc]
    rw [sliceFrom?, scanAfter, hNext]
    cases hOp : Operator.ofChar? c with
    | none =>
      simpa using ih before (piece ++ [c])
    | some op =>
      have hSlice := Text.slice?_append (.ofList before) (.ofList piece) (.ofList (c :: rest))
      have hRest : sliceFrom? (.ofList (before ++ piece ++ c :: rest))
          (String.ofList (before ++ piece ++ [c])).utf8ByteSize
          (String.ofList (before ++ piece ++ [c])).utf8ByteSize rest = some (scanAfter [] rest) := by
        simpa using ih (before ++ piece ++ [c]) []
      simp only [← String.ofList_append] at hSlice
      simp only [hSlice, hRest, Option.bind_eq_bind, Option.bind_some, String.toList_ofList,
        List.reverse_reverse]
      rfl

end Token

theorem Chain.toList_map {α β : Type} (f : α → β) (chain : Chain α) :
    (chain.map f).toList = chain.toList.map f := by
  simp [map, toList]

theorem Chain.operators_map {α β : Type} (f : α → β) (chain : Chain α) :
    (chain.map f).operators = chain.operators := by
  simp [map, operators]

theorem Formula.ofTokens_of_ne_nil {tokens : List Token} (h : tokens ≠ []) :
    ofTokens tokens = (Chain.ofTokens? tokens).elim malformed fun operands =>
      chain (operands.map Operand.ofChars) := by
  cases tokens with
  | nil => contradiction
  | cons token rest =>
    simp only [ofTokens]
    cases Chain.ofTokens? (token :: rest) <;> rfl

/-- The chain of a text is told by its pieces: there is one just if no piece is blank, and it has the
pieces less the blanks at their ends. A blank text is zero and any other text without a chain fails, and
in neither case a cell is visited. -/
theorem Formula.chain_iff_no_piece_blank (body : String) :
    Token.sliceFrom? body 0 0 body.toList = some (Token.scan body.toList) ∧
    (Chain.sortFrom? 0 [] [] (Token.scan body.toList) =
      (Chain.ofTokens? (Token.scan body.toList)).map fun chain =>
        (chain.toList, chain.operators)) ∧
    ∃ pieces : Chain (List Char),
      (∀ other : Chain (List Char), other.IsSplit body.toList ↔ other = pieces) ∧
      (∀ chain, Chain.ofTokens? (Token.scan body.toList) = some chain ↔
        (∀ piece ∈ pieces.toList, ∃ c ∈ piece, Text.isBlank c = false) ∧
          chain.toList = pieces.toList.map Text.trim ∧ chain.operators = pieces.operators) ∧
      ∀ (m : Type → Type) [Monad m] (sheet : Sheet) (visit : Address → m Outcome),
        ((∀ c ∈ body.toList, Text.isBlank c = true) →
          (ofTokens (Token.scan body.toList)).outcome sheet visit =
            return .settled (.number (.float 0.0))) ∧
        ((∃ c ∈ body.toList, Text.isBlank c = false) →
          Chain.ofTokens? (Token.scan body.toList) = none →
            (ofTokens (Token.scan body.toList)).outcome sheet visit = return .fault .invalid) := by
  have hSlices := Token.sliceFrom?_eq [] [] body.toList
  simp only [List.append_nil, List.nil_append, String.ofList_toList] at hSlices
  refine ⟨hSlices, Chain.sortFrom?_eq _, Chain.split body.toList, fun _ => Chain.isSplit_iff, ?_, ?_⟩
  · intro chain
    rw [Chain.ofTokens?_scan_eq_some_iff]
    apply and_congr_right'
    rw [← Chain.toList_map, ← Chain.operators_map Text.trim (Chain.split _)]
    constructor
    · rintro rfl
      exact ⟨rfl, rfl⟩
    · rintro ⟨hOperands, hOps⟩
      exact Chain.eq_of_toList_eq hOperands hOps
  · intro m _ sheet visit
    constructor
    · intro hBlank
      rw [Token.scan_eq_nil_iff.mpr hBlank]
      rfl
    · rintro ⟨c, hc, hBlank⟩ hChain
      have hSome : Token.scan body.toList ≠ [] := by
        intro hNone
        rw [Token.scan_eq_nil_iff.mp hNone c hc] at hBlank
        cases hBlank
      rw [ofTokens_of_ne_nil hSome, hChain]
      rfl

end FormulaGrid
