import Mathlib
import Interconnect.Number.Binary64
import Interconnect.Proofs.Number.Decimal

namespace Interconnect.Binary64

theorem roundHalfEven_scale {k num den : Nat} (positive : 0 < k) :
    roundHalfEven (k * num) (k * den) = roundHalfEven num den := by
  have whole : k * num / (k * den) = num / den := Nat.mul_div_mul_left _ _ positive
  have rest : k * num % (k * den) = k * (num % den) := Nat.mul_mod_mul_left _ _ _
  have twice : 2 * (k * (num % den)) = k * (2 * (num % den)) := Nat.mul_left_comm _ _ _
  simp only [roundHalfEven, whole, rest, twice, Nat.mul_lt_mul_left positive,
    Nat.mul_right_inj (Nat.ne_of_gt positive)]

theorem nearestCode_scale {k num den : Nat} (positive : 0 < k) :
    nearestCode (k * num) (k * den) = nearestCode num den := by
  have shifted (s : Nat) : (k * den) <<< s = k * (den <<< s) := by
    simp only [Nat.shiftLeft_eq, Nat.mul_assoc]
  simp only [nearestCode, Nat.mul_div_mul_left _ _ positive, shifted, roundHalfEven_scale positive]

theorem nearestCode_congr {num den num' den' : Nat} (positive : 0 < den) (positive' : 0 < den')
    (same : num * den' = num' * den) : nearestCode num den = nearestCode num' den' := by
  calc nearestCode num den
      = nearestCode (den' * num) (den' * den) := (nearestCode_scale positive').symm
    _ = nearestCode (den * num') (den * den') := by
        rw [Nat.mul_comm den' num, same, Nat.mul_comm num' den, Nat.mul_comm den' den]
    _ = nearestCode num' den' := nearestCode_scale positive

theorem leadingBit_eq : leadingBit = 2 ^ 52 := by decide

theorem unitsPerOne_eq : ∃ places, places = 1074 ∧ unitsPerOne = 2 ^ places := by
  -- the exponent stays a variable, so that no step computes the power
  obtain ⟨places, named⟩ : ∃ places, places = 1074 := ⟨_, rfl⟩
  refine ⟨places, named, ?_⟩
  rw [unitsPerOne, ← named, Nat.one_shiftLeft]

theorem roundHalfEven_whole (n den : Nat) (positive : 0 < den) : roundHalfEven (n * den) den = n := by
  have whole : n * den / den = n := Nat.mul_div_cancel n positive
  simp [roundHalfEven, whole, positive]

theorem le_roundHalfEven (num den : Nat) : num / den ≤ roundHalfEven num den := by
  unfold roundHalfEven
  dsimp only
  split <;> omega

theorem nearestCode_of_large {n e : Nat} (beyond : 2098 ≤ e) (large : 2 ^ e ≤ n) :
    nearestCode n 1 = infiniteCode := by
  have positive : n ≠ 0 := by
    have power := Nat.two_pow_pos e
    omega
  have size : e ≤ n.log2 := (Nat.le_log2 positive).2 large
  have shift : 2046 ≤ n.log2 - 52 := by omega
  have significand : leadingBit ≤ n / 2 ^ (n.log2 - 52) := by
    rw [leadingBit_eq, Nat.le_div_iff_mul_le (Nat.two_pow_pos _), ← Nat.pow_add]
    have total : 52 + (n.log2 - 52) = n.log2 := by omega
    rw [total]
    exact Nat.log2_self_le positive
  have rounded := le_roundHalfEven n (1 <<< (n.log2 - 52))
  rw [Nat.one_shiftLeft] at rounded
  have exponent := Nat.mul_le_mul_right leadingBit shift
  simp only [nearestCode, Nat.div_one, Nat.one_shiftLeft, infiniteCode]
  omega

theorem nearestCode_of_small {num den : Nat} (small : 2 * num < den) : nearestCode num den = 0 := by
  have less : num < den := by omega
  have none_whole : num / den = 0 := Nat.div_eq_of_lt less
  have rest : num % den = num := Nat.mod_eq_of_lt less
  have log_zero : Nat.log2 0 = 0 := by decide
  simp [nearestCode, roundHalfEven, none_whole, rest, small, log_zero]

theorem log2_significand {m s : Nat} (least : leadingBit ≤ m) (most : m < 2 * leadingBit) :
    (m * 2 ^ s).log2 = 52 + s := by
  rw [leadingBit_eq] at least most
  have low : 2 ^ (52 + s) ≤ m * 2 ^ s := by
    rw [Nat.pow_add]
    exact Nat.mul_le_mul_right _ least
  have high : m * 2 ^ s < 2 ^ (52 + s + 1) := by
    rw [Nat.add_right_comm, Nat.pow_add]
    apply Nat.mul_lt_mul_of_pos_right _ (Nat.two_pow_pos s)
    omega
  have nonzero : m * 2 ^ s ≠ 0 := by
    have power := Nat.two_pow_pos (52 + s)
    omega
  have atLeast := (Nat.le_log2 nonzero).2 low
  have below := (Nat.log2_lt nonzero).2 high
  omega

theorem nearestCode_units {code : Nat} (finite : code < infiniteCode) : nearestCode (unitsOfCode code) 1 = code := by
  by_cases subnormal : code < leadingBit
  · have size : code.log2 - 52 = 0 := by
      rcases Nat.eq_zero_or_pos code with rfl | positive
      · decide
      · have bound : code.log2 < 52 := (Nat.log2_lt (by omega)).2 (by rwa [leadingBit_eq] at subnormal)
        omega
    have rounded := roundHalfEven_whole code 1 (by decide)
    rw [Nat.mul_one] at rounded
    simp only [nearestCode, unitsOfCode, subnormal, if_true, Nat.div_one, size, Nat.shiftLeft_zero, rounded]
    omega
  · -- with the leading bit put back, the significand has 53 bits, and the exponent says how far it is shifted
    have remainder := Nat.mod_lt code (show 0 < leadingBit by decide)
    have exponent : 1 ≤ code / leadingBit := (Nat.le_div_iff_mul_le (by decide)).2 (by omega)
    have parts := Nat.div_add_mod' code leadingBit
    generalize shift : code / leadingBit - 1 = s
    generalize significand : leadingBit + code % leadingBit = m
    have size := log2_significand (m := m) (s := s) (by omega) (by omega)
    have shifted : (m * 2 ^ s).log2 - 52 = s := by omega
    have rounded := roundHalfEven_whole m (2 ^ s) (Nat.two_pow_pos s)
    have total : s * leadingBit + m = code := by
      have step : code / leadingBit = s + 1 := by omega
      rw [step, Nat.succ_mul] at parts
      omega
    simp only [nearestCode, unitsOfCode, subnormal, if_false, shift, significand, Nat.shiftLeft_eq, Nat.div_one,
      Nat.one_mul, shifted, rounded, total]
    omega

theorem two_pow_three_mul_le_tenTo (n : Nat) : 2 ^ (3 * n) ≤ Decimal.tenTo n := by
  rw [Nat.pow_mul]
  exact Nat.pow_le_pow_left (by decide) n

theorem nearestCode_beyond {c tens : Nat} (nonzero : c ≠ 0) (beyond : 1024 ≤ c.log2 + 3 * tens) :
    nearestCode (c * Decimal.tenTo tens * unitsPerOne) 1 = infiniteCode := by
  obtain ⟨bits, bits_eq, units⟩ := unitsPerOne_eq
  have large : 2 ^ (c.log2 + 3 * tens + bits) ≤ c * Decimal.tenTo tens * unitsPerOne := by
    rw [Nat.pow_add, Nat.pow_add, units]
    have least := Nat.log2_self_le nonzero
    have power := two_pow_three_mul_le_tenTo tens
    gcongr
  exact nearestCode_of_large (by omega) large

theorem nearestCode_below {c places : Nat} (below : c.log2 + 1076 ≤ 3 * places) :
    nearestCode (c * unitsPerOne) (Decimal.tenTo places) = 0 := by
  obtain ⟨bits, bits_eq, units⟩ := unitsPerOne_eq
  have most : c < 2 ^ (c.log2 + 1) := Nat.lt_log2_self
  apply nearestCode_of_small
  calc 2 * (c * unitsPerOne)
      = c * 2 ^ (bits + 1) := by
        rw [units, Nat.pow_succ]
        ring
    _ < 2 ^ (c.log2 + 1) * 2 ^ (bits + 1) := Nat.mul_lt_mul_of_pos_right most (Nat.two_pow_pos _)
    _ = 2 ^ (c.log2 + 1 + (bits + 1)) := (Nat.pow_add ..).symm
    _ ≤ 2 ^ (3 * places) := Nat.pow_le_pow_right (by decide) (by omega)
    _ ≤ Decimal.tenTo places := two_pow_three_mul_le_tenTo places

/-- The cut-offs of a decimal far out of range give what rounding gives. -/
theorem codeOfDecimal_eq (c : Nat) (e : Int) :
    codeOfDecimal ⟨c, e⟩ =
      nearestCode (c * Decimal.tenTo e.toNat * unitsPerOne) (Decimal.tenTo (-e).toNat) := by
  by_cases zero : c = 0
  · have rounded : nearestCode 0 (Decimal.tenTo (-e).toNat) = 0 :=
      nearestCode_of_small (Decimal.tenTo_pos _)
    simp [codeOfDecimal, zero, rounded]
  by_cases whole : 0 ≤ e
  · have no_places : (-e).toNat = 0 := by omega
    simp only [codeOfDecimal, zero, whole, if_true, if_false, no_places]
    by_cases beyond : 1024 ≤ (c.log2 : Int) + 3 * e
    · simp only [beyond, if_true]
      exact (nearestCode_beyond zero (by omega)).symm
    · simp only [beyond, if_false]
      rfl
  · have no_tens : Decimal.tenTo e.toNat = 1 := by
      rw [Int.toNat_of_nonpos (by omega)]
      rfl
    simp only [codeOfDecimal, zero, whole, if_false, no_tens, Nat.mul_one]
    by_cases below : (c.log2 : Int) + 3 * e ≤ -1076
    · simp only [below, if_true]
      exact (nearestCode_below (by omega)).symm
    · simp only [below, if_false]

theorem codeOfDecimal_shift (c : Nat) (e : Int) (k : Nat) :
    codeOfDecimal ⟨c * Decimal.tenTo k, e⟩ = codeOfDecimal ⟨c, e + k⟩ := by
  have powers : Decimal.tenTo k * Decimal.tenTo e.toNat * Decimal.tenTo (-(e + k)).toNat =
      Decimal.tenTo (e + k).toNat * Decimal.tenTo (-e).toNat := by
    rw [← Decimal.tenTo_add, ← Decimal.tenTo_add, ← Decimal.tenTo_add]
    congr 1
    omega
  rw [codeOfDecimal_eq, codeOfDecimal_eq]
  apply nearestCode_congr (Decimal.tenTo_pos _) (Decimal.tenTo_pos _)
  calc c * Decimal.tenTo k * Decimal.tenTo e.toNat * unitsPerOne * Decimal.tenTo (-(e + k)).toNat
      = c * (Decimal.tenTo k * Decimal.tenTo e.toNat * Decimal.tenTo (-(e + k)).toNat) * unitsPerOne := by ring
    _ = c * Decimal.tenTo (e + k).toNat * unitsPerOne * Decimal.tenTo (-e).toNat := by
      rw [powers]
      ring

theorem codeOfDecimal_rescaled {d d' : Decimal} (same : Decimal.Rescaled d d') :
    codeOfDecimal d = codeOfDecimal d' := by
  cases same with
  | raise c e k => exact codeOfDecimal_shift c e k
  | lower c e k => exact (codeOfDecimal_shift c e k).symm

theorem ofCode_code (x : Binary64) : ofCode x.negative x.code = x := by
  have size := x.bits.toNat_lt
  have double : signBit + signBit = 2 ^ 64 := by decide
  unfold ofCode negative code
  congr 1
  apply UInt64.toNat_inj.1
  by_cases high : signBit ≤ x.bits.toNat
  · have rest : x.bits.toNat % signBit = x.bits.toNat - signBit := by
      rw [Nat.mod_eq_sub_mod high, Nat.mod_eq_of_lt (by omega)]
    simp only [high, decide_true, if_true, rest, UInt64.toNat_ofNat']
    omega
  · have rest : x.bits.toNat % signBit = x.bits.toNat := Nat.mod_eq_of_lt (by omega)
    simp only [high, decide_false, rest, UInt64.toNat_ofNat']
    exact Nat.mod_eq_of_lt size

end Interconnect.Binary64
