import FormulaGrid.Number.Datum
import FormulaGrid.Proofs.Number.Addition

/-!
# Finite data

All patterns that are not numbers are unpacked to the same, which is not finite. So a datum with a finite
float is that float.
-/

set_option autoImplicit false

namespace FormulaGrid.Number

open Float.Model (UnpackedFloat)
open Float.Model.UnpackedFloat
open Float.Model.Format (binary64)

theorem unpack_of_isNanPattern {bits : UInt64} (h : isNanPattern bits = true) :
    unpack binary64 bits.toBitVec = .notANumber := by
  have hFields : bits.toNat / 2 ^ 52 % 2 ^ 11 = 2047 ∧ bits.toNat % 2 ^ 52 ≠ 0 := by
    have hLow : (bits &&& 0x7fffffffffffffff).toNat = bits.toNat % 2 ^ 63 :=
      (UInt64.toNat_and ..).trans (Nat.and_two_pow_sub_one_eq_mod bits.toNat 63)
    rw [isNanPattern, decide_eq_true_eq, UInt64.lt_iff_toNat_lt, hLow] at h
    change 9218868437227405312 < _ at h
    omega
  have hExponent : (@unpackExponent binary64 bits.toBitVec).toNat = 2047 := by
    rw [← hFields.1, ← Nat.shiftRight_eq_div_pow]
    rfl
  have hMantissa : (@unpackMantissa binary64 bits.toBitVec).toNat = bits.toNat % 2 ^ 52 := rfl
  rw [unpack_eq, if_pos, if_neg]
  · intro hZero
    rw [hZero] at hMantissa
    exact hFields.2 hMantissa.symm
  · exact BitVec.eq_of_toNat_eq hExponent

theorem not_isFinite_of_isNanPattern {bits : UInt64} (h : isNanPattern bits = true) :
    (Float.ofBits bits).isFinite = false := by
  have hPack : Float.ofBits bits = .ofModel (.pack (unpack binary64 bits.toBitVec)) := rfl
  rw [hPack, unpack_of_isNanPattern h]
  decide

theorem Datum.eq_float {x : Datum} (h : x.toFloat.isFinite = true) : x = .float x.toFloat := by
  cases x with
  | float x => rfl
  | nan bits pattern =>
    rw [toFloat, not_isFinite_of_isNanPattern pattern] at h
    cases h

end FormulaGrid.Number
