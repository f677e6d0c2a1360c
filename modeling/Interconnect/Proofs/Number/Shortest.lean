import Mathlib
import Interconnect.Number.Shortest
import Interconnect.Proofs.Number.Binary64

namespace Interconnect.Binary64

theorem dvd_unitsOfCode {code bits : Nat} (within : bits ≤ code / leadingBit - 1) : 2 ^ bits ∣ unitsOfCode code := by
  unfold unitsOfCode
  split
  · rename_i subnormal
    have exponent : code / leadingBit = 0 := Nat.div_eq_of_lt subnormal
    have no_bits : bits = 0 := by omega
    rw [no_bits]
    exact Nat.one_dvd code
  · rw [Nat.shiftLeft_eq]
    exact Dvd.dvd.mul_left (Nat.pow_dvd_pow 2 within) _

theorem codeOfDecimal_exact {code : Nat} (finite : code < infiniteCode) :
    codeOfDecimal (exactDecimal code) = code := by
  -- as many factors of five come in as places are cut off, and make tens of the twos in the units
  obtain ⟨bits, bits_eq, units⟩ := unitsPerOne_eq
  unfold exactDecimal
  rw [← bits_eq]
  generalize count : bits - (code / leadingBit - 1) = places
  obtain ⟨whole, magnitude⟩ := dvd_unitsOfCode (show bits - places ≤ code / leadingBit - 1 by omega)
  have shifted : unitsOfCode code >>> (bits - places) = whole := by
    rw [Nat.shiftRight_eq_div_pow, magnitude, Nat.mul_div_cancel_left _ (Nat.two_pow_pos _)]
  have tens : Decimal.tenTo places = 2 ^ places * 5 ^ places := Nat.mul_pow 2 5 places
  have powers : 2 ^ bits = 2 ^ (bits - places) * 2 ^ places := by
    rw [← Nat.pow_add, Nat.sub_add_cancel (by omega)]
  have no_tens : Decimal.tenTo (-(places : Int)).toNat = 1 := by
    rw [Int.toNat_of_nonpos (by omega)]
    rfl
  rw [codeOfDecimal_eq, no_tens, Int.neg_neg, Int.toNat_natCast, shifted]
  rw [← nearestCode_units finite]
  apply nearestCode_congr (Decimal.tenTo_pos _) Nat.one_pos
  rw [units, powers, magnitude, tens]
  change whole * 5 ^ places * 1 * _ * 1 = _
  ring

theorem codeOfDecimal_shortest {code : Nat} (finite : code < infiniteCode) :
    codeOfDecimal (shortestDecimal code) = code := by
  unfold shortestDecimal
  dsimp only
  generalize searched : List.find? (codeOfDecimal · == code) _ = found
  cases found with
  | none =>
    -- no shorter decimal was found to be rounded to the number
    exact codeOfDecimal_exact finite
  | some d =>
    have accepted := List.find?_some searched
    exact eq_of_beq accepted

theorem render_finite {x : Binary64} (finite : x.isFinite = true) :
    ∃ d, codeOfDecimal d = x.code ∧
      x.render = if x.negative then '-' :: d.positional else d.positional := by
  have bound : x.code < infiniteCode := of_decide_eq_true finite
  have number : x.isNaN = false := decide_eq_false (by omega)
  have bounded : x.isInfinite = false := by
    rw [isInfinite, beq_eq_false_iff_ne]
    omega
  by_cases zero : x.code = 0
  · refine ⟨⟨0, 0⟩, zero.symm, ?_⟩
    have digit : Decimal.positional ⟨0, 0⟩ = ['0'] := by decide
    simp [render, number, bounded, zero, digit]
  · refine ⟨shortestDecimal x.code, codeOfDecimal_shortest bound, ?_⟩
    simp [render, number, bounded, zero]

end Interconnect.Binary64
