import Mathlib
import Interconnect.Proofs.Number.Binary64

namespace Interconnect.Binary64

variable {n m code : Nat} {sign : Bool}

theorem infiniteCode_lt : infiniteCode < signBit := by decide

theorem bits_ofCode (small : code < signBit) :
    (ofCode sign code).bits.toNat = if sign then signBit + code else code := by
  have double : signBit + signBit = 2 ^ 64 := by decide
  rw [ofCode, UInt64.toNat_ofNat']
  apply Nat.mod_eq_of_lt
  split <;> omega

theorem code_ofCode (small : code < signBit) : (ofCode sign code).code = code := by
  rw [Binary64.code, bits_ofCode small]
  split
  · rw [Nat.add_mod_left, Nat.mod_eq_of_lt small]
  · exact Nat.mod_eq_of_lt small

theorem negative_ofCode (small : code < signBit) : (ofCode sign code).negative = sign := by
  rw [negative, bits_ofCode small]
  cases sign with
  | true => exact decide_eq_true (Nat.le_add_right _ _)
  | false => exact decide_eq_false (Nat.not_le.mpr small)

theorem unitsOfCode_normal {s : Nat} (least : leadingBit ≤ m) (most : m < 2 * leadingBit) :
    unitsOfCode (s * leadingBit + m) = m * 2 ^ s := by
  have parts : s * leadingBit + m = leadingBit * (s + 1) + (m - leadingBit) := by
    rw [Nat.mul_succ, Nat.mul_comm]
    omega
  have exponent : (s * leadingBit + m) / leadingBit = s + 1 := by
    rw [parts, Nat.mul_add_div (by decide), Nat.div_eq_of_lt (by omega), Nat.add_zero]
  have rest : (s * leadingBit + m) % leadingBit = m - leadingBit := by
    rw [parts, Nat.mul_add_mod, Nat.mod_eq_of_lt (by omega)]
  have normal : ¬ s * leadingBit + m < leadingBit := by omega
  rw [unitsOfCode, if_neg normal, exponent, rest, Nat.add_sub_cancel' least, Nat.add_sub_cancel, Nat.shiftLeft_eq]

theorem exists_code_of_lt {exponent : Nat} (small : n < 2 ^ 53) (within : exponent ≤ 2045) :
    ∃ code < infiniteCode, unitsOfCode code = n * 2 ^ exponent := by
  by_cases zero : n = 0
  · rw [zero, Nat.zero_mul]
    exact ⟨0, by decide, rfl⟩
  obtain ⟨shift, total⟩ : ∃ shift, n.log2 + shift = 52 :=
    ⟨52 - n.log2, Nat.add_sub_of_le (Nat.le_of_lt_succ ((Nat.log2_lt zero).mpr small))⟩
  have most : n * 2 ^ shift < 2 * leadingBit := by
    calc n * 2 ^ shift < 2 ^ (n.log2 + 1) * 2 ^ shift :=
          Nat.mul_lt_mul_of_pos_right Nat.lt_log2_self (Nat.two_pow_pos _)
      _ = 2 * leadingBit := by rw [leadingBit_eq, ← Nat.pow_add, Nat.add_right_comm, total, Nat.pow_succ']
  by_cases room : shift ≤ exponent
  · have least : leadingBit ≤ n * 2 ^ shift := by
      calc leadingBit = 2 ^ n.log2 * 2 ^ shift := by rw [leadingBit_eq, ← Nat.pow_add, total]
        _ ≤ n * 2 ^ shift := Nat.mul_le_mul_right _ (Nat.log2_self_le zero)
    refine ⟨(exponent - shift) * leadingBit + n * 2 ^ shift, ?_, ?_⟩
    · have high : (exponent - shift) * leadingBit ≤ 2045 * leadingBit := Nat.mul_le_mul_right _ (by omega)
      unfold infiniteCode
      omega
    · rw [unitsOfCode_normal least most, Nat.mul_assoc, ← Nat.pow_add, Nat.add_sub_of_le room]
  · -- too small for a leading bit
    have subnormal : n * 2 ^ exponent < leadingBit := by
      have half : 2 * (n * 2 ^ exponent) ≤ n * 2 ^ shift := by
        calc 2 * (n * 2 ^ exponent) = n * 2 ^ (exponent + 1) := by rw [Nat.pow_succ]; ring
          _ ≤ n * 2 ^ shift := Nat.mul_le_mul_left _ (Nat.pow_le_pow_right Nat.two_pos (by omega))
      omega
    refine ⟨n * 2 ^ exponent, Nat.lt_trans subnormal (by decide), ?_⟩
    rw [unitsOfCode, if_pos subnormal]

theorem ofNat_exact (small : n < 2 ^ 53) :
    (ofNat n).isFinite = true ∧ (ofNat n).negative = false ∧ (ofNat n).units = n * unitsPerOne := by
  obtain ⟨bits, bits_eq, one⟩ := unitsPerOne_eq
  obtain ⟨code, finite, units⟩ := exists_code_of_lt small (show bits ≤ 2045 by omega)
  rw [← one] at units
  have rounded : ofNat n = ofCode false code := by
    rw [ofNat, ← units, nearestCode_units finite]
  have bound : code < signBit := Nat.lt_trans finite infiniteCode_lt
  rw [rounded, isFinite, Binary64.units, code_ofCode bound, negative_ofCode bound]
  exact ⟨decide_eq_true finite, rfl, units⟩

theorem not_isNaN {x : Binary64} (finite : x.isFinite = true) : x.isNaN = false := by
  have bound : x.code < infiniteCode := of_decide_eq_true finite
  exact decide_eq_false (by omega)

theorem not_isInfinite {x : Binary64} (finite : x.isFinite = true) : x.isInfinite = false := by
  have bound : x.code < infiniteCode := of_decide_eq_true finite
  exact beq_false_of_ne (Nat.ne_of_lt bound)

theorem unitsPerOne_pos : 0 < unitsPerOne := by
  obtain ⟨bits, -, units⟩ := unitsPerOne_eq
  rw [units]
  exact Nat.two_pow_pos bits

theorem add_ofNat (small : n + m < 2 ^ 53) : (ofNat n).add (ofNat m) = ofNat (n + m) := by
  obtain ⟨finite, sign, units⟩ := ofNat_exact (n := n) (by omega)
  obtain ⟨finite', sign', units'⟩ := ofNat_exact (n := m) (by omega)
  have sum : (ofNat n).signedUnits + (ofNat m).signedUnits = ((n + m) * unitsPerOne : Nat) := by
    simp only [signedUnits, sign, sign', units, units', Bool.false_eq_true, if_false, Nat.add_mul, Nat.cast_add]
  simp only [add, not_isNaN finite, not_isNaN finite', not_isInfinite finite, not_isInfinite finite', sum, sign,
    Bool.or_self, Bool.false_eq_true, if_false, Bool.false_and]
  by_cases zero : n + m = 0
  · have rounded : nearestCode 0 1 = 0 := nearestCode_of_small (by decide)
    rw [zero, ofNat, Nat.zero_mul, Nat.cast_zero, if_pos rfl, rounded]
    rfl
  · have nonzero : (((n + m) * unitsPerOne : Nat) : Int) ≠ 0 :=
      Int.natCast_ne_zero.mpr (Nat.mul_ne_zero zero (Nat.ne_of_gt unitsPerOne_pos))
    have nonnegative : ¬ (((n + m) * unitsPerOne : Nat) : Int) < 0 := Int.not_lt.mpr (Int.natCast_nonneg _)
    rw [if_neg nonzero, Int.natAbs_natCast, decide_eq_false nonnegative]
    rfl

theorem toWord_ofNat (small : n < 2 ^ 53) : (ofNat n).toWord = n := by
  obtain ⟨finite, sign, units⟩ := ofNat_exact small
  have word : UInt64.size - 1 = 2 ^ 64 - 1 := rfl
  rw [toWord, not_isNaN finite, sign, units, Nat.mul_div_cancel _ unitsPerOne_pos, word]
  simp only [Bool.or_self, Bool.false_eq_true, if_false]
  omega

end Interconnect.Binary64
