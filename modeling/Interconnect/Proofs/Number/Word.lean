import Mathlib
import Interconnect.Number.Word
import Interconnect.Proofs.Failure

namespace Interconnect.Word

variable {a b n start : Nat} {factors : List Nat} {operation : Arithmetic}

theorem checked_eq_ok : checked operation a = .ok n ↔ a < 2 ^ 64 ∧ n = a := by
  have size : UInt64.size = 2 ^ 64 := rfl
  rw [checked, size]
  by_cases bounded : a < 2 ^ 64
  · rw [if_pos bounded, Except.ok.injEq, eq_comm, and_iff_right bounded]
  · rw [if_neg bounded]
    exact iff_of_false nofun fun fits => bounded fits.1

theorem add_eq_ok : add a b = .ok n ↔ a + b < 2 ^ 64 ∧ n = a + b := checked_eq_ok

theorem mul_eq_ok : mul a b = .ok n ↔ a * b < 2 ^ 64 ∧ n = a * b := checked_eq_ok

theorem sub_eq_ok : sub a b = .ok n ↔ b ≤ a ∧ n = a - b := by
  unfold sub
  by_cases below : b ≤ a
  · rw [if_pos below, Except.ok.injEq, eq_comm, and_iff_right below]
  · rw [if_neg below]
    exact iff_of_false nofun fun fits => below fits.1

theorem rem_eq_ok : rem a b = .ok n ↔ b ≠ 0 ∧ n = a % b := by
  unfold rem
  by_cases zero : b = 0
  · rw [if_pos zero]
    exact iff_of_false nofun fun fits => fits.1 zero
  · rw [if_neg zero, Except.ok.injEq, eq_comm, and_iff_right zero]

theorem foldlM_mul_eq_ok (positive : 0 ∉ factors) (bounded : start < 2 ^ 64) :
    factors.foldlM mul start = .ok n ↔ start * factors.prod < 2 ^ 64 ∧ n = start * factors.prod := by
  induction factors generalizing start with
  | nil =>
    rw [List.prod_nil, Nat.mul_one, and_iff_right bounded]
    constructor
    · rintro ⟨⟩
      rfl
    · rintro rfl
      rfl
  | cons factor factors ih =>
    rw [List.mem_cons, not_or] at positive
    have rest : 1 ≤ factors.prod := Nat.one_le_iff_ne_zero.mpr (List.prod_ne_zero positive.2)
    rw [List.foldlM_cons, bind_eq_ok, List.prod_cons, ← Nat.mul_assoc]
    constructor
    · rintro ⟨product, fits, done⟩
      obtain ⟨bounded, rfl⟩ := mul_eq_ok.mp fits
      exact (ih positive.2 bounded).mp done
    · rintro ⟨fits, rfl⟩
      have bounded : start * factor < 2 ^ 64 := Nat.lt_of_le_of_lt (Nat.le_mul_of_pos_right _ rest) fits
      exact ⟨_, mul_eq_ok.mpr ⟨bounded, rfl⟩, (ih positive.2 bounded).mpr ⟨fits, rfl⟩⟩

theorem product_eq_ok (positive : 0 ∉ factors) :
    product factors = .ok n ↔ factors.prod < 2 ^ 64 ∧ n = factors.prod := by
  rw [product, foldlM_mul_eq_ok positive (by decide), Nat.one_mul]

end Interconnect.Word
