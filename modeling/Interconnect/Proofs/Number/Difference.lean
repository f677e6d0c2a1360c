import Mathlib
import Interconnect.Proofs.Number.Whole

namespace Interconnect.Binary64

variable {x y : Binary64} {code : Nat} {sign : Bool}

theorem unitsOfCode_strictMono : StrictMono unitsOfCode := by
  apply strictMono_nat_of_lt_succ
  intro code
  by_cases subnormal : code + 1 < leadingBit
  · rw [unitsOfCode, unitsOfCode, if_pos subnormal, if_pos (Nat.lt_of_succ_lt subnormal)]
    exact Nat.lt_succ_self code
  by_cases last : code + 1 = leadingBit
  · rw [last, unitsOfCode, if_pos (show code < leadingBit by omega)]
    have least := unitsOfCode_normal (s := 0) (Nat.le_refl leadingBit) (by decide)
    rw [Nat.zero_mul, Nat.zero_add] at least
    omega
  -- the significand grows by one, and from the last one on to the first of the next exponent
  obtain ⟨s, m, least, most, parts⟩ : ∃ s m, leadingBit ≤ m ∧ m < 2 * leadingBit ∧ code = s * leadingBit + m := by
    have divided := Nat.div_add_mod' code leadingBit
    have remainder := Nat.mod_lt code (show 0 < leadingBit by decide)
    have exponent : 1 ≤ code / leadingBit := (Nat.le_div_iff_mul_le (by decide)).mpr (by omega)
    refine ⟨code / leadingBit - 1, leadingBit + code % leadingBit, by omega, by omega, ?_⟩
    rw [Nat.sub_mul, Nat.one_mul]
    have whole := Nat.mul_le_mul_right leadingBit exponent
    omega
  rw [parts, unitsOfCode_normal least most]
  by_cases top : m + 1 < 2 * leadingBit
  · rw [Nat.add_assoc, unitsOfCode_normal (Nat.le_succ_of_le least) top]
    exact Nat.mul_lt_mul_of_pos_right (Nat.lt_succ_self m) (Nat.two_pow_pos s)
  · have next : s * leadingBit + m + 1 = (s + 1) * leadingBit + leadingBit := by
      rw [Nat.succ_mul]
      omega
    rw [next, unitsOfCode_normal (Nat.le_refl _) (by decide), Nat.pow_succ', ← Nat.mul_assoc]
    apply Nat.mul_lt_mul_of_pos_right _ (Nat.two_pow_pos s)
    omega

theorem exists_significand (finite : code < infiniteCode) :
    ∃ m s, m < 2 ^ 53 ∧ s ≤ 2045 ∧ unitsOfCode code = m * 2 ^ s := by
  have bits : 2 * leadingBit = 2 ^ 53 := by decide
  by_cases subnormal : code < leadingBit
  · refine ⟨code, 0, by omega, Nat.zero_le _, ?_⟩
    rw [unitsOfCode, if_pos subnormal, Nat.pow_zero, Nat.mul_one]
  · have remainder := Nat.mod_lt code (show 0 < leadingBit by decide)
    have exponent : code / leadingBit < 2047 := Nat.div_lt_of_lt_mul (by rwa [Nat.mul_comm])
    refine ⟨leadingBit + code % leadingBit, code / leadingBit - 1, by omega, by omega, ?_⟩
    rw [unitsOfCode, if_neg subnormal, Nat.shiftLeft_eq]

theorem exists_code_of_fraction (finite : code < infiniteCode) :
    ∃ rest < infiniteCode, unitsOfCode rest = unitsOfCode code % unitsPerOne := by
  obtain ⟨bits, bits_eq, one⟩ := unitsPerOne_eq
  obtain ⟨m, s, small, within, units⟩ := exists_significand finite
  rw [units, one]
  by_cases whole : bits ≤ s
  · refine ⟨0, by decide, ?_⟩
    rw [← Nat.add_sub_of_le whole, Nat.pow_add, Nat.mul_left_comm, Nat.mul_mod_right]
    rfl
  · have cut : m % 2 ^ (bits - s) < 2 ^ 53 := Nat.lt_of_le_of_lt (Nat.mod_le _ _) small
    obtain ⟨rest, finite', left⟩ := exists_code_of_lt cut within
    refine ⟨rest, finite', left.trans ?_⟩
    have split : 2 ^ bits = 2 ^ (bits - s) * 2 ^ s := by rw [← Nat.pow_add, Nat.sub_add_cancel (by omega)]
    rw [split, Nat.mul_mod_mul_right]

theorem dvd_of_large (finite : code < infiniteCode) (large : 2 ^ 53 * unitsPerOne ≤ unitsOfCode code) :
    unitsPerOne ∣ unitsOfCode code := by
  obtain ⟨bits, bits_eq, one⟩ := unitsPerOne_eq
  obtain ⟨m, s, small, within, units⟩ := exists_significand finite
  rw [units, one] at large ⊢
  have whole : bits ≤ s := by
    by_contra short
    have less : m * 2 ^ s < 2 ^ 53 * 2 ^ bits :=
      Nat.mul_lt_mul_of_lt_of_le small (Nat.pow_le_pow_right Nat.two_pos (by omega)) (Nat.two_pow_pos _)
    omega
  exact Dvd.dvd.mul_left (Nat.pow_dvd_pow 2 whole) m

theorem signedUnits_of_positive (positive : x.negative = false) : x.signedUnits = x.units := by
  rw [signedUnits, positive]
  rfl

theorem signedUnits_of_negative (negative : x.negative = true) : x.signedUnits = -(x.units : Int) := by
  rw [signedUnits, negative, if_pos rfl]

theorem signedUnits_ofCode (small : code < signBit) :
    (ofCode sign code).signedUnits = if sign then -(unitsOfCode code : Int) else unitsOfCode code := by
  rw [signedUnits, units, code_ofCode small, negative_ofCode small]

theorem isFinite_ofCode (finite : code < infiniteCode) : (ofCode sign code).isFinite = true := by
  rw [isFinite, code_ofCode (Nat.lt_trans finite infiniteCode_lt)]
  exact decide_eq_true finite

theorem isFinite_neg (finite : x.isFinite = true) : x.neg.isFinite = true := isFinite_ofCode (of_decide_eq_true finite)

theorem signedUnits_neg (x : Binary64) : x.neg.signedUnits = -x.signedUnits := by
  have small : x.code < signBit := Nat.mod_lt _ (by decide)
  rw [neg, signedUnits_ofCode small, signedUnits, units]
  cases x.negative <;> simp

theorem lt_iff (finite : x.isFinite = true) (finite' : y.isFinite = true) :
    x.lt y = true ↔ x.signedUnits < y.signedUnits := by
  have ordered : x.lt y = true ↔
      (if x.negative then -(x.code : Int) else x.code) < if y.negative then -(y.code : Int) else y.code := by
    simp only [lt, compare?, not_isNaN finite, not_isNaN finite', Bool.or_self, Bool.false_eq_true, if_false,
      beq_iff_eq, Option.some.injEq, compare_lt_iff_lt]
  rw [ordered, signedUnits, signedUnits, units, units]
  have zero : unitsOfCode 0 = 0 := rfl
  have mono := unitsOfCode_strictMono.lt_iff_lt (a := x.code) (b := y.code)
  have mono' := unitsOfCode_strictMono.lt_iff_lt (a := y.code) (b := x.code)
  have positive := unitsOfCode_strictMono.lt_iff_lt (a := 0) (b := x.code)
  have positive' := unitsOfCode_strictMono.lt_iff_lt (a := 0) (b := y.code)
  rw [zero] at positive positive'
  cases x.negative <;> cases y.negative <;> simp only [Bool.false_eq_true, if_true, if_false] <;> omega

theorem sub_of_pos {n : Nat} (finite : x.isFinite = true) (finite' : y.isFinite = true) (some : n ≠ 0)
    (above : x.signedUnits - y.signedUnits = n) : x.sub y = ofCode false (nearestCode n 1) := by
  have negated := isFinite_neg finite'
  have nonzero : (n : Int) ≠ 0 := Int.natCast_ne_zero.mpr some
  have nonnegative : ¬ (n : Int) < 0 := Int.not_lt.mpr (Int.natCast_nonneg n)
  simp only [sub, add, not_isNaN finite, not_isNaN finite', not_isNaN negated, not_isInfinite finite,
    not_isInfinite negated, Bool.or_self, Bool.false_eq_true, if_false, signedUnits_neg, ← sub_eq_add_neg, above,
    nonzero, nonnegative, decide_false, Int.natAbs_natCast]

theorem sub_exact (finite : x.isFinite = true) (finite' : y.isFinite = true) (represented : code < infiniteCode)
    (exact : (x.signedUnits - y.signedUnits).natAbs = unitsOfCode code) :
    (x.sub y).isFinite = true ∧ (x.sub y).signedUnits = x.signedUnits - y.signedUnits := by
  have small : code < signBit := Nat.lt_trans represented infiniteCode_lt
  have negated := isFinite_neg finite'
  simp only [sub, add, not_isNaN finite, not_isNaN finite', not_isNaN negated, not_isInfinite finite,
    not_isInfinite negated, Bool.or_self, Bool.false_eq_true, if_false, signedUnits_neg, ← sub_eq_add_neg]
  split
  · rename_i none
    rw [none, zero, signedUnits_ofCode (by decide)]
    refine ⟨isFinite_ofCode (by decide), ?_⟩
    split <;> rfl
  · rw [exact, nearestCode_units represented]
    refine ⟨isFinite_ofCode represented, ?_⟩
    rw [signedUnits_ofCode small, ← exact]
    simp only [decide_eq_true_eq]
    split <;> omega

end Interconnect.Binary64
