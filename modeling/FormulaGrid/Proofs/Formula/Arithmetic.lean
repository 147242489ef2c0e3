import FormulaGrid.Formula.Arithmetic
import FormulaGrid.Proofs.Number.Addition
import FormulaGrid.Proofs.Sheet.References

/-!
# The number of a chain

A chain is cut at each sum and difference. Each piece is worked out from left to right, and then so are the
pieces. The sum under way and the product under way of the one pass stand for two lists that grow in step,
the products so far and the operators between them.
-/

set_option autoImplicit false

namespace FormulaGrid

namespace Number

open Float.Model (UnpackedFloat)

theorem eq_zero_of_unpack {x : Float} {s : UnpackedFloat.Sign} (h : x.toModel.unpack = .zero s) :
    x = 0.0 ∨ x = -0.0 := by
  rw [show x = .ofModel x.toModel from rfl, ← pack_unpack_model x.toModel, h]
  cases s with
  | positive => exact .inl rfl
  | negative => exact .inr rfl

theorem beq_zero_iff {x : Float} : (x == 0.0) = true ↔ x = 0.0 ∨ x = -0.0 := by
  constructor
  · intro h
    have hBeq : x.toModel.unpack.beq (.zero .positive) = true := h
    cases hUnpack : x.toModel.unpack with
    | zero s => exact eq_zero_of_unpack hUnpack
    | notANumber =>
      rw [hUnpack] at hBeq
      cases hBeq
    | infinity s =>
      rw [hUnpack] at hBeq
      cases s <;> cases hBeq
    | finite s m e hm =>
      rw [hUnpack] at hBeq
      cases s <;> cases hBeq
  · rintro (rfl | rfl) <;> rfl

end Number

namespace Operator

def isAdditive : Operator → Bool
  | add => true
  | sub => true
  | mul => false
  | div => false

theorem isAdditive_iff {op : Operator} : op.isAdditive = true ↔ op = add ∨ op = sub := by
  cases op <;> decide

def apply : Operator → Float → Float → Float
  | add, x, y => x + y
  | sub, x, y => x - y
  | mul, x, y => x * y
  | div, x, y => x / y

end Operator

namespace Chain

def operators {α : Type} (chain : Chain α) : List Operator :=
  chain.links.map Prod.fst

def leftToRight (chain : Chain Float) : Float :=
  chain.links.foldl (fun x link => link.1.apply x link.2) chain.first

def spread {α : Type} (link : Operator × Chain α) : List (Operator × α) :=
  (link.1, link.2.first) :: link.2.links

def flatten {α : Type} (pieces : Chain (Chain α)) : Chain α :=
  ⟨pieces.first.first, pieces.first.links ++ pieces.links.flatMap spread⟩

structure IsCut {α : Type} (chain : Chain α) (pieces : Chain (Chain α)) : Prop where
  flatten_eq : pieces.flatten = chain
  between : ∀ op ∈ pieces.operators, op.isAdditive = true
  inside : ∀ piece ∈ pieces.toList, ∀ op ∈ piece.operators, op.isAdditive = false

def cutAfter {α : Type} (x : α) : List (Operator × α) → Chain (Chain α)
  | [] => ⟨⟨x, []⟩, []⟩
  | (op, y) :: rest =>
    let pieces := cutAfter y rest
    if op.isAdditive then ⟨⟨x, []⟩, (op, pieces.first) :: pieces.links⟩
    else ⟨⟨x, (op, pieces.first.first) :: pieces.first.links⟩, pieces.links⟩

theorem isCut_cutAfter {α : Type} (x : α) (links : List (Operator × α)) :
    IsCut ⟨x, links⟩ (cutAfter x links) := by
  induction links generalizing x with
  | nil => exact ⟨rfl, List.forall_mem_nil _, List.forall_mem_singleton.mpr (List.forall_mem_nil _)⟩
  | cons link rest ih =>
    obtain ⟨op, y⟩ := link
    have hCut := ih y
    rw [cutAfter]
    generalize cutAfter y rest = pieces at hCut ⊢
    obtain ⟨hFlatten, hBetween, hInside⟩ := hCut
    cases hFlatten
    split
    · rename_i hOp
      exact ⟨rfl, List.forall_mem_cons.mpr ⟨hOp, hBetween⟩,
        List.forall_mem_cons.mpr ⟨List.forall_mem_nil _, hInside⟩⟩
    · rename_i hOp
      obtain ⟨hFirst, hRest⟩ := List.forall_mem_cons.mp hInside
      refine ⟨rfl, hBetween, List.forall_mem_cons.mpr ⟨?_, hRest⟩⟩
      exact List.forall_mem_cons.mpr ⟨Bool.eq_false_iff.mpr hOp, hFirst⟩

/-- A quotient by a zero of either sign stands among the links. -/
def DividesByZero (links : List (Operator × Float)) : Prop :=
  ∃ x, (.div, x) ∈ links ∧ (x == 0.0) = true

variable {combine : Float → Float} {term : Float} {links rest : List (Operator × Float)}

theorem DividesByZero.mono (hSubset : links ⊆ rest) : DividesByZero links → DividesByZero rest :=
  fun ⟨x, hMem, hx⟩ => ⟨x, hSubset hMem, hx⟩

theorem totalAfter_cons (combine : Float → Float) (term : Float) (op : Operator) (x : Float)
    (rest : List (Operator × Float)) :
    totalAfter combine term ((op, x) :: rest) =
      if op.isAdditive then totalAfter (op.apply (combine term)) x rest
      else if op = .div ∧ (x == 0.0) = true then .error .zeroDivisor
      else totalAfter combine (op.apply term x) rest := by
  cases op with
  | add => rfl
  | sub => rfl
  | mul => rfl
  | div => simp [totalAfter, Operator.isAdditive, Operator.apply]

theorem totalAfter_of_dividesByZero (h : DividesByZero links) :
    totalAfter combine term links = .error .zeroDivisor := by
  induction links generalizing combine term with
  | nil =>
    obtain ⟨_, hMem, _⟩ := h
    cases hMem
  | cons link rest ih =>
    obtain ⟨op, y⟩ := link
    obtain ⟨x, hMem, hZero⟩ := h
    rw [totalAfter_cons]
    rcases List.mem_cons.mp hMem with hHead | hTail
    · cases hHead
      rw [if_neg (by decide), if_pos ⟨rfl, hZero⟩]
    · split
      · exact ih ⟨x, hTail, hZero⟩
      · split
        · rfl
        · exact ih ⟨x, hTail, hZero⟩

theorem totalAfter_append (hInside : ∀ op ∈ links.map Prod.fst, op.isAdditive = false)
    (hZero : ¬ DividesByZero links) :
    totalAfter combine term (links ++ rest) =
      totalAfter combine (leftToRight ⟨term, links⟩) rest := by
  induction links generalizing term with
  | nil => rfl
  | cons link links ih =>
    obtain ⟨op, x⟩ := link
    obtain ⟨hOp, hInside⟩ := List.forall_mem_cons.mp hInside
    have hDivisor : ¬ (op = .div ∧ (x == 0.0) = true) := by
      rintro ⟨rfl, hx⟩
      exact hZero ⟨x, List.mem_cons_self .., hx⟩
    have hZero' : ¬ DividesByZero links := mt (.mono (List.subset_cons_self ..)) hZero
    rw [List.cons_append, totalAfter_cons, if_neg (by simp [hOp]), if_neg hDivisor, ih hInside hZero']
    rfl

theorem totalAfter_flatMap {pieces : List (Operator × Chain Float)}
    (hBetween : ∀ link ∈ pieces, link.1.isAdditive = true)
    (hInside : ∀ link ∈ pieces, ∀ op ∈ link.2.operators, op.isAdditive = false)
    (hZero : ¬ DividesByZero (pieces.flatMap spread)) :
    totalAfter combine term (pieces.flatMap spread) =
      .ok (pieces.foldl (fun x link => link.1.apply x link.2.leftToRight) (combine term)) := by
  induction pieces generalizing combine term with
  | nil => rfl
  | cons link pieces ih =>
    obtain ⟨op, piece⟩ := link
    obtain ⟨hOp, hBetween⟩ := List.forall_mem_cons.mp hBetween
    obtain ⟨hPiece, hInside⟩ := List.forall_mem_cons.mp hInside
    rw [List.flatMap_cons, spread] at hZero ⊢
    have hZeroPiece : ¬ DividesByZero piece.links :=
      mt (.mono (List.subset_append_of_subset_left _ (List.subset_cons_self ..))) hZero
    have hZeroRest : ¬ DividesByZero (pieces.flatMap spread) :=
      mt (.mono (List.subset_append_right ..)) hZero
    rw [List.cons_append, totalAfter_cons, if_pos hOp, totalAfter_append hPiece hZeroPiece,
      ih hBetween hInside hZeroRest]
    rfl

theorem IsCut.total_eq {chain : Chain Float} {pieces : Chain (Chain Float)}
    (h : chain.IsCut pieces) (hZero : ¬ DividesByZero chain.links) :
    chain.total = .ok (pieces.map leftToRight).leftToRight := by
  -- the first piece has no sum to its left, so it is not one of those behind an operator
  obtain ⟨rfl, hBetween, hInside⟩ := h
  obtain ⟨hFirst, hRest⟩ := List.forall_mem_cons.mp hInside
  have hZeroFirst : ¬ DividesByZero pieces.first.links :=
    mt (.mono (List.subset_append_left ..)) hZero
  have hZeroRest : ¬ DividesByZero (pieces.links.flatMap spread) :=
    mt (.mono (List.subset_append_right ..)) hZero
  calc
    pieces.flatten.total = totalAfter id pieces.first.leftToRight _ :=
      totalAfter_append hFirst hZeroFirst
    _ = .ok (pieces.links.foldl (fun x link => link.1.apply x link.2.leftToRight)
          pieces.first.leftToRight) :=
      totalAfter_flatMap (List.forall_mem_map.mp hBetween) (List.forall_mem_map.mp hRest) hZeroRest
    _ = .ok (pieces.map leftToRight).leftToRight := by
      rw [leftToRight.eq_def (pieces.map leftToRight), map, List.foldl_map]

/-- The products so far, of which the last is under way, and the operators between them. -/
structure Products where
  terms : List Float
  additive : List Operator

namespace Products

def onLast (products : Products) (f : Float → Except Fault Float) : Except Fault Products :=
  match products.terms.getLast? with
  | none => .error .invalid
  | some last => do
    return ⟨products.terms.dropLast ++ [← f last], products.additive⟩

def step (products : Products) : Operator × Float → Except Fault Products
  | (.mul, x) => products.onLast fun last => .ok (last * x)
  | (.div, x) => products.onLast fun last =>
    if x == 0.0 then .error .zeroDivisor else .ok (last / x)
  | (op, x) => .ok ⟨products.terms ++ [x], products.additive ++ [op]⟩

def sum? (products : Products) : Option Float :=
  match products.terms with
  | [] => none
  | first :: rest => some <| (products.additive.zip rest).foldl
      (fun sum link => match link.1 with
        | .sub => sum - link.2
        | _ => sum + link.2) first

/-- Any product in the last place would have the sum that `combine` gives. -/
def Holds (products : Products) (combine : Float → Float) (term : Float) : Prop :=
  ∃ done : List Float, products.terms = done ++ [term] ∧ done.length = products.additive.length ∧
    ∀ last, sum? ⟨done ++ [last], products.additive⟩ = some (combine last)

variable {products : Products}

theorem sum?_append {terms : List Float} {additive : List Operator} {sum : Float} {op : Operator}
    (hSum : sum? ⟨terms, additive⟩ = some sum) (hLength : terms.length = additive.length + 1)
    (hOp : op.isAdditive = true) (x : Float) :
    sum? ⟨terms ++ [x], additive ++ [op]⟩ = some (op.apply sum x) := by
  cases terms with
  | nil => cases hSum
  | cons first rest =>
    cases hSum
    have hRest : additive.length = rest.length := (Nat.succ.inj hLength).symm
    simp only [sum?, List.cons_append, List.zip_append hRest, List.foldl_append]
    obtain rfl | rfl := Operator.isAdditive_iff.mp hOp <;> rfl

theorem Holds.step_additive (h : products.Holds combine term) (op : Operator)
    (hOp : op.isAdditive = true) (x : Float) :
    ∃ next, products.step (op, x) = .ok next ∧ next.Holds (op.apply (combine term)) x := by
  obtain ⟨done, hTerms, hLength, hSum⟩ := h
  refine ⟨⟨products.terms ++ [x], products.additive ++ [op]⟩, ?_, products.terms, rfl, ?_, ?_⟩
  · obtain rfl | rfl := Operator.isAdditive_iff.mp hOp <;> rfl
  · rw [hTerms, List.length_append, List.length_append, hLength]
    rfl
  · intro last
    rw [hTerms]
    exact sum?_append (hSum term) (by rw [List.length_append, hLength]; rfl) hOp last

theorem Holds.onLast_eq (h : products.Holds combine term) (f : Float → Except Fault Float) :
    products.onLast f = (f term).map fun x => ⟨products.terms.dropLast ++ [x], products.additive⟩ := by
  obtain ⟨done, hTerms, -, -⟩ := h
  simp only [onLast, hTerms, List.getLast?_concat]
  cases f term <;> rfl

theorem Holds.withLast (h : products.Holds combine term) (x : Float) :
    Holds ⟨products.terms.dropLast ++ [x], products.additive⟩ combine x := by
  obtain ⟨done, hTerms, hLength, hSum⟩ := h
  rw [hTerms, List.dropLast_concat]
  exact ⟨done, rfl, hLength, hSum⟩

def finish : Except Fault Products → Option (Except Fault Float)
  | .error fault => some (.error fault)
  | .ok products => products.sum?.map .ok

theorem Holds.finish_foldlM (h : products.Holds combine term) :
    finish (links.foldlM step products) = some (totalAfter combine term links) := by
  -- a sum or difference finishes the last product, the others only change it
  induction links generalizing products combine term with
  | nil =>
    obtain ⟨done, hTerms, -, hSum⟩ := h
    have hLast := hSum term
    rw [← hTerms] at hLast
    exact congrArg (Option.map Except.ok) hLast
  | cons link rest ih =>
    obtain ⟨op, x⟩ := link
    rw [List.foldlM_cons]
    cases op with
    | add =>
      obtain ⟨next, hStep, hNext⟩ := h.step_additive .add rfl x
      rw [hStep]
      exact ih hNext
    | sub =>
      obtain ⟨next, hStep, hNext⟩ := h.step_additive .sub rfl x
      rw [hStep]
      exact ih hNext
    | mul =>
      rw [step, h.onLast_eq]
      exact ih (h.withLast (term * x))
    | div =>
      rw [step, h.onLast_eq, totalAfter]
      split
      · rfl
      · exact ih (h.withLast (term / x))

end Products

/-- Both passes over the values and the operators between them. None is an index past the end. -/
def totalInPasses (values : List Float) (ops : List Operator) : Option (Except Fault Float) :=
  match values with
  | [] => some (.error .invalid)
  | first :: rest => Products.finish ((ops.zip rest).foldlM Products.step ⟨[first], []⟩)

theorem zip_operators {α : Type} (chain : Chain α) :
    chain.operators.zip (chain.links.map Prod.snd) = chain.links := by
  rw [operators, List.zip_map', List.map_id']

theorem eq_of_toList_eq {α : Type} {chain other : Chain α} (hValues : chain.toList = other.toList)
    (hOps : chain.operators = other.operators) : chain = other := by
  obtain ⟨hFirst, hRest⟩ := List.cons.inj hValues
  have hLinks : chain.links = other.links := by
    rw [← zip_operators chain, ← zip_operators other, hOps, hRest]
  cases chain
  cases other
  exact congr (congrArg mk hFirst) hLinks

theorem totalInPasses_eq (chain : Chain Float) :
    totalInPasses chain.toList chain.operators = some chain.total := by
  have hStart : Products.Holds ⟨[chain.first], []⟩ id chain.first := ⟨[], rfl, rfl, fun _ => rfl⟩
  rw [toList, totalInPasses.eq_def]
  simp only [zip_operators]
  exact hStart.finish_foldlM

theorem dividesByZero_iff {chain : Chain Float} : DividesByZero chain.links ↔
    ∃ i x, chain.operators[i]? = some .div ∧ chain.toList[i + 1]? = some x ∧
      (x = 0.0 ∨ x = -0.0) := by
  have hPlace : ∀ (i : Nat) (x : Float), chain.links[i]? = some (.div, x) ↔
      chain.operators[i]? = some .div ∧ chain.toList[i + 1]? = some x := by
    intro i x
    simp only [operators, toList, List.getElem?_cons_succ, List.getElem?_map]
    cases chain.links[i]? <;> simp [Prod.ext_iff]
  simp only [DividesByZero, List.mem_iff_getElem?, hPlace, Number.beq_zero_iff]
  constructor
  · rintro ⟨x, ⟨i, hOp, hx⟩, hZero⟩
    exact ⟨i, x, hOp, hx, hZero⟩
  · rintro ⟨i, x, hOp, hx, hZero⟩
    exact ⟨x, ⟨i, hOp, hx⟩, hZero⟩

theorem exists_of_lengths {values : List Float} {ops : List Operator}
    (h : values.length = ops.length + 1) :
    ∃ chain : Chain Float, chain.toList = values ∧ chain.operators = ops := by
  cases values with
  | nil => cases h
  | cons first rest =>
    have hLength : rest.length = ops.length := Nat.succ.inj h
    refine ⟨⟨first, ops.zip rest⟩, ?_, List.map_fst_zip hLength.ge⟩
    rw [toList, List.map_snd_zip hLength.le]

/-- With one value more than operators, no index is past its end, and a division by a zero, wherever it
stands, is the only failure. Otherwise the number is that of the tree: the chain is cut at the sums and
differences, and the pieces and then what they come to are worked out from left to right. -/
theorem totalInPasses_eq_tree (values : List Float) (ops : List Operator)
    (h : values.length = ops.length + 1) :
    let divides := ∃ i x, ops[i]? = some .div ∧ values[i + 1]? = some x ∧ (x = 0.0 ∨ x = -0.0)
    ∃ chain : Chain Float, chain.toList = values ∧ chain.operators = ops ∧
      totalInPasses values ops = some chain.total ∧
      chain.total ≠ .error .invalid ∧
      (chain.total = .error .zeroDivisor ↔ divides) ∧
      (∃ pieces, chain.IsCut pieces) ∧
      ∀ pieces, chain.IsCut pieces → ¬ divides →
        chain.total = .ok (pieces.map leftToRight).leftToRight := by
  obtain ⟨chain, rfl, rfl⟩ := exists_of_lengths h
  intro divides
  have hDivides : DividesByZero chain.links ↔ divides := dividesByZero_iff
  have hCut : chain.IsCut _ := isCut_cutAfter chain.first chain.links
  have hTotal : divides ∧ chain.total = .error .zeroDivisor ∨ ¬ divides ∧
      chain.total = .ok ((cutAfter chain.first chain.links).map leftToRight).leftToRight := by
    by_cases hZero : DividesByZero chain.links
    · exact .inl ⟨hDivides.mp hZero, totalAfter_of_dividesByZero hZero⟩
    · exact .inr ⟨mt hDivides.mpr hZero, hCut.total_eq hZero⟩
  refine ⟨chain, rfl, rfl, totalInPasses_eq chain, ?_, ?_, ⟨_, hCut⟩, ?_⟩
  · rcases hTotal with ⟨-, hTotal⟩ | ⟨-, hTotal⟩ <;> simp [hTotal]
  · rcases hTotal with ⟨hZero, hTotal⟩ | ⟨hZero, hTotal⟩ <;> simp [hTotal, hZero]
  · exact fun _ hPieces hZero => hPieces.total_eq (mt hDivides.mp hZero)

theorem totalInPasses_eq_tree_of_mixed_ranks :
    totalInPasses [1.0, 6.0, 3.0, 2.0, 0.5] [.sub, .div, .mul, .sub] = some (.ok (-3.5)) ∧
      totalInPasses [0.0, 5.0, -0.0] [.div, .div] = some (.error .zeroDivisor) := by
  constructor
  · obtain ⟨chain, hValues, hOps, hPasses, -, -, -, hTree⟩ :=
      totalInPasses_eq_tree [1.0, 6.0, 3.0, 2.0, 0.5] [.sub, .div, .mul, .sub] rfl
    have hChain : chain = ⟨1.0, [(.sub, 6.0), (.div, 3.0), (.mul, 2.0), (.sub, 0.5)]⟩ :=
      eq_of_toList_eq hValues hOps
    let pieces : Chain (Chain Float) :=
      ⟨⟨1.0, []⟩, [(.sub, ⟨6.0, [(.div, 3.0), (.mul, 2.0)]⟩), (.sub, ⟨0.5, []⟩)]⟩
    have hPieces : chain.IsCut pieces := by
      rw [hChain]
      exact ⟨rfl, by decide, by decide⟩
    have hDivisor : ¬ ∃ i x, ([.sub, .div, .mul, .sub] : List Operator)[i]? = some .div ∧
        ([1.0, 6.0, 3.0, 2.0, 0.5] : List Float)[i + 1]? = some x ∧ (x = 0.0 ∨ x = -0.0) := by
      rintro ⟨_ | _ | i, x, hOp, hx, hZero⟩
      · cases hOp
      · cases hx
        revert hZero
        decide +kernel
      · have hMem : Operator.div ∈ [Operator.mul, .sub] := List.mem_of_getElem? hOp
        revert hMem
        decide
    rw [hPasses, hTree pieces hPieces hDivisor]
    decide +kernel
  · obtain ⟨chain, -, -, hPasses, -, hZero, -⟩ :=
      totalInPasses_eq_tree [0.0, 5.0, -0.0] [.div, .div] rfl
    rw [hPasses, hZero.mpr ⟨1, -0.0, rfl, rfl, .inr rfl⟩]

end Chain
end FormulaGrid
