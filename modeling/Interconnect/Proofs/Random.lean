import Mathlib
import Interconnect.Random

namespace Interconnect

namespace Random

def leadingZeros (n : Nat) : Nat := 63 - n.log2

def firstWord (n i : Nat) : Nat := (i * UInt64.size + (n - 1)) / n

variable {n i : Nat} {w : UInt64}

theorem shifted_bounds (some : 0 < n) (counted : n < UInt64.size) :
    2 ^ 63 ≤ n * 2 ^ leadingZeros n ∧ n * 2 ^ leadingZeros n < UInt64.size := by
  have lower : 2 ^ n.log2 ≤ n := Nat.log2_self_le some.ne'
  have upper : n < 2 ^ (n.log2 + 1) := Nat.lt_log2_self
  have short : n.log2 < 64 := (Nat.log2_lt some.ne').mpr counted
  have below : n.log2 + leadingZeros n = 63 := by
    unfold leadingZeros
    omega
  constructor
  · calc 2 ^ 63 = 2 ^ n.log2 * 2 ^ leadingZeros n := by rw [← pow_add, below]
      _ ≤ n * 2 ^ leadingZeros n := Nat.mul_le_mul_right _ lower
  · calc n * 2 ^ leadingZeros n < 2 ^ (n.log2 + 1) * 2 ^ leadingZeros n :=
          Nat.mul_lt_mul_of_pos_right upper (Nat.two_pow_pos _)
      _ = 2 ^ 64 := by rw [← pow_add, Nat.add_right_comm, below]

theorem zone_eq (n : Nat) : zone n = n * 2 ^ leadingZeros n - 1 := by
  rw [zone, Nat.shiftLeft_eq]
  rfl

theorem accepts_iff (some : 0 < n) :
    accepts n w ↔ w.toNat * n % UInt64.size < n * 2 ^ leadingZeros n := by
  have positive : 0 < n * 2 ^ leadingZeros n := Nat.mul_pos some (Nat.two_pow_pos _)
  rw [accepts, decide_eq_true_iff, zone_eq]
  omega

theorem below_cons (n : Nat) (w : UInt64) (words : List UInt64) (drawn : Nat) :
    below n ⟨w :: words, drawn⟩ =
      if accepts n w then (pick n w, ⟨words, drawn + 1⟩) else below n ⟨words, drawn + 1⟩ := rfl

theorem pick_lt (some : 0 < n) (w : UInt64) : pick n w < n := by
  apply Nat.div_lt_of_lt_mul
  exact Nat.mul_lt_mul_of_pos_right w.toNat_lt some

theorem below_lt (some : 0 < n) (r : Random) : (r.below n).1 < n := by
  rcases r with ⟨words, drawn⟩
  induction words generalizing drawn with
  | nil => exact some
  | cons w words ih =>
    rw [below_cons]
    split
    · exact pick_lt some w
    · exact ih (drawn + 1)

-- the quotient that is rounded up, as `firstWord` has it
theorem roundUp_le_iff {least word : Nat} (some : 0 < n) : (least + (n - 1)) / n ≤ word ↔ least ≤ word * n := by
  rw [Nat.div_le_iff_le_mul_add_pred some, Nat.add_le_add_iff_right, Nat.mul_comm]

theorem lt_roundUp_iff {least word : Nat} (some : 0 < n) : word < (least + (n - 1)) / n ↔ word * n < least :=
  lt_iff_lt_of_le_iff_le (roundUp_le_iff some)

theorem roundUp_add {least : Nat} (some : 0 < n) (count : Nat) :
    (least + (n - 1)) / n + count = (least + n * count + (n - 1)) / n := by
  rw [Nat.add_right_comm, Nat.add_mul_div_left _ _ some]

theorem high_low_iff {size width product : Nat} (fits : width ≤ size) :
    product % size < width ∧ product / size = i ↔ i * size ≤ product ∧ product < i * size + width := by
  have split := Nat.div_add_mod' product size
  constructor
  · rintro ⟨low, rfl⟩
    omega
  · intro ⟨lower, upper⟩
    have high : product / size = i := by
      apply Nat.div_eq_of_lt_le lower
      rw [Nat.succ_mul]
      omega
    rw [high] at split
    exact ⟨by omega, high⟩

theorem draws_iff (some : 0 < n) (counted : n < UInt64.size) :
    accepts n w ∧ pick n w = i ↔
      firstWord n i ≤ w.toNat ∧ w.toNat < firstWord n i + 2 ^ leadingZeros n := by
  rw [accepts_iff some, firstWord, roundUp_add some, roundUp_le_iff some, lt_roundUp_iff some]
  exact high_low_iff (shifted_bounds some counted).2.le

theorem ncard_words {first last : Nat} (words : last ≤ UInt64.size) :
    {w : UInt64 | first ≤ w.toNat ∧ w.toNat < last}.ncard = last - first := by
  have image : UInt64.toNat '' {w : UInt64 | first ≤ w.toNat ∧ w.toNat < last} = ↑(Finset.Ico first last) := by
    ext k
    rw [Finset.mem_coe, Finset.mem_Ico]
    constructor
    · rintro ⟨w, bounds, rfl⟩
      exact bounds
    · intro bounds
      have same : (UInt64.ofNat k).toNat = k := UInt64.toNat_ofNat_of_lt' (by omega)
      refine ⟨UInt64.ofNat k, ?_, same⟩
      show first ≤ (UInt64.ofNat k).toNat ∧ (UInt64.ofNat k).toNat < last
      rwa [same]
  rw [← Set.ncard_image_of_injective _ fun _ _ => UInt64.toNat_inj.mp, image, Set.ncard_coe_finset, Nat.card_Ico]

theorem lastWord_le (inside : i < n) (counted : n < UInt64.size) :
    firstWord n i + 2 ^ leadingZeros n ≤ UInt64.size := by
  have some : 0 < n := by omega
  have fits := (shifted_bounds some counted).2
  have next : (i + 1) * UInt64.size ≤ n * UInt64.size := Nat.mul_le_mul_right _ inside
  rw [Nat.succ_mul, Nat.mul_comm n] at next
  rw [firstWord, roundUp_add some, roundUp_le_iff some]
  omega

/-- Each number below the bound is drawn by the same number of words. -/
theorem ncard_draws (inside : i < n) (counted : n < UInt64.size) :
    {w : UInt64 | accepts n w ∧ pick n w = i}.ncard = 2 ^ leadingZeros n := by
  have some : 0 < n := by omega
  have run : {w : UInt64 | accepts n w ∧ pick n w = i} =
      {w : UInt64 | firstWord n i ≤ w.toNat ∧ w.toNat < firstWord n i + 2 ^ leadingZeros n} := by
    ext w
    exact draws_iff some counted
  rw [run, ncard_words (lastWord_le inside counted), Nat.add_sub_cancel_left]

theorem ncard_accepts (counted : n < UInt64.size) (some : 0 < n) :
    {w : UInt64 | accepts n w}.ncard = n * 2 ^ leadingZeros n := by
  have first (k : Nat) (within : k ≤ n) :
      {w : UInt64 | accepts n w ∧ pick n w < k}.ncard = k * 2 ^ leadingZeros n := by
    induction k with
    | zero => simp
    | succ k ih =>
      have both : {w : UInt64 | accepts n w ∧ pick n w < k + 1} =
          {w : UInt64 | accepts n w ∧ pick n w < k} ∪ {w : UInt64 | accepts n w ∧ pick n w = k} := by
        ext w
        simp only [Set.mem_ofPred_eq, Set.mem_union, ← and_or_left, Nat.lt_succ_iff_lt_or_eq]
      have apart : Disjoint {w : UInt64 | accepts n w ∧ pick n w < k} {w : UInt64 | accepts n w ∧ pick n w = k} := by
        rw [Set.disjoint_left]
        rintro w ⟨-, lower⟩ ⟨-, same⟩
        exact lower.ne same
      rw [both, Set.ncard_union_eq apart, ih (by omega), ncard_draws (by omega) counted, Nat.succ_mul]
  rw [← first n le_rfl]
  congr 1
  ext w
  exact (and_iff_left (pick_lt some w)).symm

end Random

end Interconnect
