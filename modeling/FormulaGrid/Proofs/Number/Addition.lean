import Mathlib.Algebra.Order.Ring.Int

/-!
# Adding zero

Adding zero changes no float but the negative zero, and only such a float has a sum that is the negative
zero. A sum of finite floats that is not zero has an exponent from the least one up, and rounding at
such an exponent does not come to zero.
-/

set_option autoImplicit false

namespace FormulaGrid.Number

open Float.Model (Format UnpackedFloat)
open Float.Model.UnpackedFloat
open Float.Model.Format (binary64)

theorem append_fields (b : BitVec 64) :
    b.extractLsb' 63 1 ++ b.extractLsb' 52 11 ++ b.extractLsb' 0 52 = b := by
  ext i hi
  simp only [BitVec.getElem_append, BitVec.getElem_extractLsb']
  split
  · simp [hi]
  · split
    · rw [show 52 + (i - 52) = i by omega, BitVec.getLsbD_eq_getElem hi]
    · rw [show 63 + (i - 52 - 11) = i by omega, BitVec.getLsbD_eq_getElem hi]

theorem packComponents_fields (b : BitVec binary64.numBits) :
    packComponents binary64 (.ofBitVec (unpackSign b)) (unpackExponent b) (unpackMantissa b) = b := by
  have hSign : ∀ v : BitVec 1, (Sign.ofBitVec v).toBitVec = v := by decide
  rw [packComponents, hSign]
  exact append_fields b

theorem toNat_one_append (mantissa : BitVec 52) :
    (1#1 ++ mantissa).toNat = 2 ^ 52 + mantissa.toNat := by
  have hOr := Nat.two_pow_add_eq_or_of_lt mantissa.isLt 1
  rw [Nat.mul_one] at hOr
  rw [hOr, BitVec.toNat_append]
  rfl

theorem unpack_eq (b : BitVec binary64.numBits) : unpack binary64 b =
    if unpackExponent b = -1#11 then
      if unpackMantissa b = 0#52 then .infinity (.ofBitVec (unpackSign b)) else .notANumber
    else if unpackExponent b = 0#11 then
      if h : unpackMantissa b = 0#52 then .zero (.ofBitVec (unpackSign b))
      else .finite (.ofBitVec (unpackSign b)) (unpackMantissa b).toNat
        ((unpackExponent b).toNat - ((1023 : Nat) + (52 : Nat)) + 1)
        (by simpa [BitVec.toNat_pos, BitVec.pos_iff_ne_zero])
    else .finite (.ofBitVec (unpackSign b)) (1#1 ++ unpackMantissa b).toNat
      ((unpackExponent b).toNat - ((1023 : Nat) + (52 : Nat)))
      (by rw [toNat_one_append]; omega) := by
  rfl

def InRange : UnpackedFloat → Prop
  | .finite _ m e _ => m < 2 ^ 53 ∧ -1074 ≤ e
  | _ => True

theorem inRange_unpack (b : BitVec binary64.numBits) : InRange (unpack binary64 b) := by
  have hMantissa : (unpackMantissa b).toNat < 2 ^ 52 := (unpackMantissa b).isLt
  rw [unpack_eq]
  by_cases hOnes : unpackExponent b = -1#11
  · rw [if_pos hOnes]
    by_cases hZero : unpackMantissa b = 0#52
    · rw [if_pos hZero]
      trivial
    · rw [if_neg hZero]
      trivial
  · rw [if_neg hOnes]
    by_cases hSubnormal : unpackExponent b = 0#11
    · rw [if_pos hSubnormal]
      by_cases hZero : unpackMantissa b = 0#52
      · rw [dif_pos hZero]
        trivial
      · rw [dif_neg hZero]
        constructor <;> omega
    · have hTop := toNat_one_append (unpackMantissa b)
      have hField : (unpackExponent b).toNat ≠ 0 :=
        fun hField => hSubnormal (BitVec.eq_of_toNat_eq hField)
      rw [if_neg hSubnormal]
      constructor <;> omega

theorem pack_finite_eq (s : Sign) {m : Nat} (hm : 0 < m) (e : Int) :
    pack binary64 (.finite s m e hm) =
      if 2048 ≤ (e + (1023 : Nat) + (52 : Nat)).toNat + 1 then packedInfinity binary64 s
      else if m.log2 + 1 = 53 then
        packComponents binary64 s (BitVec.ofNat 11 (e + (1023 : Nat) + (52 : Nat)).toNat)
          (BitVec.ofNat 52 m)
      else packComponents binary64 s 0 (BitVec.ofNat 52 m) :=
  rfl

/-- A mantissa of all 53 bits has its first bit in the exponent. -/
theorem pack_finite (s : Sign) {m : Nat} (hm : 0 < m) (hBits : m < 2 ^ 53) (e : Int) :
    pack binary64 (.finite s m e hm) =
      if 2047 ≤ (e + 1075).toNat then packedInfinity binary64 s
      else packComponents binary64 s
        (if m < 2 ^ 52 then 0 else BitVec.ofNat 11 (e + 1075).toNat) (BitVec.ofNat 52 m) := by
  have hFull : m.log2 + 1 = 53 ↔ ¬ m < 2 ^ 52 := by
    have hLog := Nat.log2_lt (n := m) (k := 52) (by omega)
    have hLog' := (Nat.log2_lt (n := m) (k := 53) (by omega)).mpr hBits
    omega
  have hBias : e + (1023 : Nat) + (52 : Nat) = e + 1075 := by omega
  rw [pack_finite_eq, hBias]
  simp only [hFull]
  by_cases hLimit : 2047 ≤ (e + 1075).toNat
  · rw [if_pos hLimit, if_pos (by omega)]
  · rw [if_neg hLimit, if_neg (by omega)]
    by_cases hSmall : m < 2 ^ 52
    · rw [if_neg (not_not.mpr hSmall), if_pos hSmall]
    · rw [if_pos hSmall, if_neg hSmall]

theorem pack_unpack {b : BitVec binary64.numBits} (h : binary64.Valid b) :
    pack binary64 (unpack binary64 b) = b := by
  have hExponent : (unpackExponent b).toNat < 2048 := (unpackExponent b).isLt
  have hMantissa : (unpackMantissa b).toNat < 2 ^ 52 := (unpackMantissa b).isLt
  have hFields := packComponents_fields b
  rw [unpack_eq]
  by_cases hOnes : unpackExponent b = -1#11
  · rw [if_pos hOnes]
    by_cases hZero : unpackMantissa b = 0#52
    · rw [if_pos hZero]
      rw [hOnes, hZero] at hFields
      exact hFields
    · rw [if_neg hZero]
      exact (h.eq_packedNaN hOnes hZero).symm
  · rw [if_neg hOnes]
    have hFinite : (unpackExponent b).toNat ≠ 2047 :=
      fun hField => hOnes (BitVec.eq_of_toNat_eq hField)
    by_cases hSubnormal : unpackExponent b = 0#11
    · rw [if_pos hSubnormal]
      by_cases hZero : unpackMantissa b = 0#52
      · rw [dif_pos hZero]
        rw [hSubnormal, hZero] at hFields
        exact hFields
      · have hField : (unpackExponent b).toNat = 0 := by rw [hSubnormal]; rfl
        rw [dif_neg hZero, pack_finite _ _ (by omega), if_neg (by omega), if_pos hMantissa,
          BitVec.ofNat_toNat, BitVec.setWidth_eq]
        rw [hSubnormal] at hFields
        exact hFields
    · have hTop := toNat_one_append (unpackMantissa b)
      have hNonzero : (unpackExponent b).toNat ≠ 0 :=
        fun hField => hSubnormal (BitVec.eq_of_toNat_eq hField)
      have hField : ((unpackExponent b).toNat - ((1023 : Nat) + (52 : Nat)) + 1075 : Int).toNat =
          (unpackExponent b).toNat := by
        omega
      have hDrop : BitVec.ofNat 52 (2 ^ 52 + (unpackMantissa b).toNat) = unpackMantissa b := by
        apply BitVec.eq_of_toNat_eq
        rw [BitVec.toNat_ofNat, Nat.add_mod_left, Nat.mod_eq_of_lt hMantissa]
      rw [if_neg hSubnormal, pack_finite _ _ (by omega), hField, hTop, hDrop, if_neg (by omega),
        if_neg (by omega), BitVec.ofNat_toNat, BitVec.setWidth_eq]
      exact hFields

theorem pack_finite_ne_zero (s s' : Sign) {m : Nat} (hm : 0 < m) (hBits : m < 2 ^ 53) {e : Int}
    (he : -1074 ≤ e) : pack binary64 (.finite s m e hm) ≠ packedZero binary64 s' := by
  intro h
  rw [pack_finite s hm hBits] at h
  split at h
  · have hExponent := congrArg unpackExponent h
    rw [packedInfinity, packedZero, unpackExponent_packComponents,
      unpackExponent_packComponents] at hExponent
    cases hExponent
  · rw [packedZero] at h
    have hMantissa := congrArg (fun b => (unpackMantissa b).toNat) h
    have hExponent := congrArg (fun b => (unpackExponent b).toNat) h
    simp only [unpackMantissa_packComponents, unpackExponent_packComponents] at hMantissa hExponent
    have hMod : m % 2 ^ 52 = 0 := hMantissa
    split at hExponent
    · omega
    · have hMod' : (e + 1075).toNat % 2 ^ 11 = 0 := hExponent
      omega

theorem mantissa_shiftRight (em : ExtendedMantissa) (k : Nat) :
    (em >>> k).mantissa = em.mantissa / 2 ^ k := by
  induction k with
  | zero => exact (Nat.div_one _).symm
  | succ k ih =>
    have hStep : (em >>> (k + 1)).mantissa = (em >>> k).mantissa / 2 := rfl
    rw [hStep, ih, Nat.div_div_eq_div_mul, Nat.pow_succ]

theorem mantissa_le_roundedMantissa (em : ExtendedMantissa) : em.mantissa ≤ em.roundedMantissa := by
  rw [ExtendedMantissa.roundedMantissa]
  rcases em.accuracy with _ | _ | _ | _ <;> simp [Accuracy.roundToNearestEven]

theorem shifted_bounds {m : Nat} (hm : 0 < m) :
    0 < m / 2 ^ (m.log2 - 52) ∧ m / 2 ^ (m.log2 - 52) < 2 ^ 53 := by
  have hLow : 2 ^ m.log2 ≤ m := Nat.log2_self_le (by omega)
  have hHigh : m < 2 ^ (m.log2 + 1) := Nat.lt_log2_self
  have hPower : 2 ^ (m.log2 - 52) ≤ 2 ^ m.log2 := Nat.pow_le_pow_right (by decide) (by omega)
  constructor
  · exact Nat.div_pos (hPower.trans hLow) (Nat.two_pow_pos _)
  · apply Nat.div_lt_of_lt_mul
    calc
      m < 2 ^ (m.log2 + 1) := hHigh
      _ ≤ 2 ^ (m.log2 - 52 + 53) := Nat.pow_le_pow_right (by decide) (by omega)
      _ = 2 ^ (m.log2 - 52) * 2 ^ 53 := pow_add _ _ _

theorem shiftToTargetExponent_bounds {m : Nat} (hm : 0 < m) {e : Int} (he : -1074 ≤ e)
    (accuracy : Accuracy) :
    0 < (shiftToTargetExponent binary64 m e accuracy).1.mantissa ∧
      (shiftToTargetExponent binary64 m e accuracy).1.mantissa < 2 ^ 53 ∧
        -1074 ≤ (shiftToTargetExponent binary64 m e accuracy).2 := by
  have hTarget : binary64.targetExponent (Float.Model.totalExponent m e) =
      max (m.log2 + 1 + e - 53) (-1074) := rfl
  have hShift : (binary64.targetExponent (Float.Model.totalExponent m e) - e).toNat = m.log2 - 52 := by
    rw [hTarget]
    omega
  have hMantissa : (ExtendedMantissa.ofMantissaAndAccuracy m accuracy).mantissa = m := by
    rcases accuracy with _ | _ | _ | _ <;> rfl
  simp only [shiftToTargetExponent, shiftToExponent, hShift, mantissa_shiftRight, hMantissa]
  obtain ⟨hPos, hBits⟩ := shifted_bounds hm
  exact ⟨hPos, hBits, by omega⟩

theorem roundWithAccuracy_finite (s : Sign) {m : Nat} (hm : 0 < m) {e : Int} (he : -1074 ≤ e)
    (accuracy : Accuracy) : ∃ m' e', ∃ hm' : 0 < m',
      roundWithAccuracy binary64 s m e accuracy = .finite s m' e' hm' ∧ m' < 2 ^ 53 ∧
        -1074 ≤ e' := by
  obtain ⟨hPos, _, hExponent⟩ := shiftToTargetExponent_bounds hm he accuracy
  -- rounding up may need one bit more, hence the second shift
  have hRounded := hPos.trans_le (mantissa_le_roundedMantissa _)
  obtain ⟨hPos', hBits', hExponent'⟩ := shiftToTargetExponent_bounds hRounded hExponent .exact
  exact ⟨_, _, hPos', dif_neg (Nat.ne_of_gt hPos'), hBits', hExponent'⟩

theorem round_finite (s : Sign) {m : Nat} (hm : 0 < m) {e : Int} (he : -1074 ≤ e) :
    ∃ m' e', ∃ hm' : 0 < m', round binary64 s m e = .finite s m' e' hm' ∧ m' < 2 ^ 53 ∧
      -1074 ≤ e' := by
  have hTarget : -1074 ≤ binary64.targetExponent (Float.Model.totalExponent m e) := le_max_right _ _
  apply roundWithAccuracy_finite
  · rw [Nat.shiftLeft_eq]
    exact Nat.mul_pos hm (Nat.two_pow_pos _)
  · omega

theorem pack_normalize_ne_negZero (m : Int) {e : Int} (he : -1074 ≤ e) :
    pack binary64 (normalize binary64 m e .positive) ≠ packedZero binary64 .negative := by
  have hRound : ∀ (s : Sign) {m : Nat}, 0 < m →
      pack binary64 (round binary64 s m e) ≠ packedZero binary64 .negative := by
    intro s m hm
    obtain ⟨m', e', hm', hRound, hBits, he'⟩ := round_finite s hm he
    rw [hRound]
    exact pack_finite_ne_zero s _ hm' hBits he'
  rw [UnpackedFloat.normalize]
  split
  · rename_i hCompare
    have hm := Int.compare_eq_lt.mp hCompare
    exact hRound .negative (by omega)
  · decide
  · rename_i hCompare
    have hm := Int.compare_eq_gt.mp hCompare
    exact hRound .positive (by omega)

theorem add_zero_positive {x : UnpackedFloat} (hx : x ≠ .zero .negative) :
    add binary64 x (.zero .positive) = x := by
  cases x with
  | zero s =>
    cases s with
    | positive => rfl
    | negative => exact absurd rfl hx
  | _ => rfl

theorem eq_negZero_of_pack_add {x y : UnpackedFloat} (hx : InRange x) (hy : InRange y)
    (h : pack binary64 (add binary64 x y) = packedZero binary64 .negative) :
    x = .zero .negative := by
  have hNaN : pack binary64 .notANumber ≠ packedZero binary64 .negative := by decide
  have hInfinity : ∀ s, pack binary64 (.infinity s) ≠ packedZero binary64 .negative := by
    intro s
    cases s <;> decide
  cases x with
  | notANumber => exact absurd h hNaN
  | infinity s =>
    cases y with
    | notANumber => exact absurd h hNaN
    | infinity t =>
      have hAdd : add binary64 (.infinity s) (.infinity t) =
          if s == t then .infinity s else .notANumber :=
        rfl
      rw [hAdd] at h
      split at h
      · exact absurd h (hInfinity s)
      · exact absurd h hNaN
    | zero t => exact absurd h (hInfinity s)
    | finite t m e hm => exact absurd h (hInfinity s)
  | zero s =>
    cases y with
    | notANumber => exact absurd h hNaN
    | infinity t => exact absurd h (hInfinity t)
    | zero t =>
      cases s with
      | negative => rfl
      | positive => cases t <;> exact absurd h (by decide)
    | finite t m e hm => exact absurd h (pack_finite_ne_zero t _ hm hy.1 hy.2)
  | finite s m e hm =>
    cases y with
    | notANumber => exact absurd h hNaN
    | infinity t => exact absurd h (hInfinity t)
    | zero t => exact absurd h (pack_finite_ne_zero s _ hm hx.1 hx.2)
    | finite t m' e' hm' => exact absurd h (pack_normalize_ne_negZero _ (le_min hx.2 hy.2))

theorem pack_unpack_model (model : Float.Model) : .pack model.unpack = model := by
  have hBits : UInt64.ofBitVec (pack binary64 model.unpack) = model.toBits := by
    rw [Float.Model.unpack, pack_unpack model.valid]
  rw [Float.Model.pack]
  congr

theorem unpack_ne_negZero {x : Float} (hx : x ≠ -0.0) : x.toModel.unpack ≠ .zero .negative := by
  intro h
  apply hx
  rw [show x = .ofModel x.toModel from rfl, ← pack_unpack_model x.toModel, h]
  rfl

theorem add_zero_of_ne_negZero {x : Float} (hx : x ≠ -0.0) : x + 0.0 = x := by
  have hAdd : x + 0.0 = .ofModel (.pack (add binary64 x.toModel.unpack (.zero .positive))) := rfl
  rw [hAdd, add_zero_positive (unpack_ne_negZero hx), pack_unpack_model]

theorem add_ne_negZero {x : Float} (hx : x ≠ -0.0) (y : Float) : x + y ≠ -0.0 := by
  intro h
  have hBits := congrArg (fun z : Float => z.toModel.toBits.toBitVec) h
  exact unpack_ne_negZero hx (eq_negZero_of_pack_add (inRange_unpack _) (inRange_unpack _) hBits)

end FormulaGrid.Number
