import Mathlib
import Interconnect.Config.Typed
import Interconnect.Proofs.Failure
import Interconnect.Proofs.Number.Difference

namespace Interconnect

/-- The whole number that a number counts as: one at most the tolerance below it. What lies as little below zero
counts as zero, the number after the greatest word as that word, and what is no number as zero. -/
inductive Binary64.CountsAs (x : Binary64) : Nat → Prop where
  | near {n : Nat} : x.isFinite → n < 2 ^ 64 → n * unitsPerOne ≤ x.signedUnits →
      x.signedUnits ≤ n * unitsPerOne + Config.Value.wholeTolerance.units → CountsAs x n
  | belowZero : x.isFinite → x.signedUnits ≤ 0 → -Config.Value.wholeTolerance.units ≤ x.signedUnits → CountsAs x 0
  | afterLast : x.isFinite → x.signedUnits = (2 ^ 64 * unitsPerOne : Nat) → CountsAs x (2 ^ 64 - 1)
  | notANumber : x.isNaN → CountsAs x 0

namespace Config.Value

open Binary64

variable {x : Binary64} {n code : Nat}

def Close (x : Binary64) (n : Nat) : Prop :=
  wholeTolerance.lt (x.sub (ofNat n)) = false ∧ (x.sub (ofNat n)).lt wholeTolerance.neg = false

theorem toWord_eq_ok_iff_close : toWord (.number x) = .ok n ↔ n = x.toWord ∧ Close x n := by
  unfold toWord Close
  dsimp only
  split
  · rename_i far
    rw [Bool.or_eq_true] at far
    refine iff_of_false nofun ?_
    rintro ⟨rfl, above, below⟩
    rw [above, below] at far
    simp at far
  · rename_i close
    rw [Bool.or_eq_true, not_or, Bool.not_eq_true, Bool.not_eq_true] at close
    rw [Except.ok.injEq]
    constructor
    · rintro rfl
      exact ⟨rfl, close⟩
    · rintro ⟨rfl, -⟩
      rfl

theorem wholeTolerance_spec :
    wholeTolerance.isFinite = true ∧ wholeTolerance.negative = false ∧ wholeTolerance.units < unitsPerOne ∧
      wholeTolerance.code < 1022 * leadingBit := by decide +kernel

theorem close_iff (finite : x.isFinite = true) (finite' : (ofNat n).isFinite = true) (represented : code < infiniteCode)
    (exact : (x.signedUnits - (ofNat n).signedUnits).natAbs = unitsOfCode code) :
    Close x n ↔ x.signedUnits - (ofNat n).signedUnits ≤ wholeTolerance.units ∧
      -wholeTolerance.units ≤ x.signedUnits - (ofNat n).signedUnits := by
  obtain ⟨bounded, positive, -, -⟩ := wholeTolerance_spec
  obtain ⟨computed, difference⟩ := sub_exact finite finite' represented exact
  rw [Close, ← Bool.not_eq_true, ← Bool.not_eq_true, lt_iff bounded computed, lt_iff computed (isFinite_neg bounded),
    signedUnits_neg, difference, signedUnits_of_positive positive, Int.not_lt, Int.not_lt]

theorem toWord_of_negative (finite : x.isFinite = true) (negative : x.negative = true) :
    x.toWord = 0 ∧ (Close x 0 ↔ -wholeTolerance.units ≤ x.signedUnits) := by
  obtain ⟨finite', sign, units⟩ := ofNat_exact (n := 0) (by decide)
  have zero : (ofNat 0).signedUnits = 0 := by
    rw [signedUnits_of_positive sign, units, Nat.zero_mul]
    rfl
  have below := signedUnits_of_negative negative
  refine ⟨by rw [Binary64.toWord, negative, Bool.or_true, if_pos rfl], ?_⟩
  rw [close_iff finite finite' (of_decide_eq_true finite) (by rw [zero, below]; simp [Binary64.units]), zero,
    Int.sub_zero]
  exact and_iff_right (by omega)

theorem toWord_of_nonnegative (finite : x.isFinite = true) (positive : x.negative = false) :
    x.toWord = min (x.units / unitsPerOne) (2 ^ 64 - 1) := by
  rw [Binary64.toWord, not_isNaN finite, positive]
  rfl

theorem ofNat_eq (finite : x.isFinite = true) (positive : x.negative = false) (whole : x.units = n * unitsPerOne) :
    ofNat n = x := by
  rw [ofNat, ← whole, Binary64.units, nearestCode_units (of_decide_eq_true finite), ← positive, ofCode_code]

theorem toWord_of_lt (finite : x.isFinite = true) (positive : x.negative = false)
    (below : x.units < 2 ^ 64 * unitsPerOne) :
    x.toWord = x.units / unitsPerOne ∧ (Close x (x.units / unitsPerOne) ↔ x.units % unitsPerOne ≤ wholeTolerance.units)
    := by
  have word : x.units / unitsPerOne < 2 ^ 64 := (Nat.div_lt_iff_lt_mul unitsPerOne_pos).mpr below
  have parts := Nat.div_add_mod' x.units unitsPerOne
  have above := signedUnits_of_positive positive
  refine ⟨by rw [toWord_of_nonnegative finite positive]; omega, ?_⟩
  have computed : (ofNat (x.units / unitsPerOne)).isFinite = true ∧
      (ofNat (x.units / unitsPerOne)).signedUnits = (x.units / unitsPerOne * unitsPerOne : Nat) := by
    by_cases small : x.units / unitsPerOne < 2 ^ 53
    · obtain ⟨finite', sign, units⟩ := ofNat_exact small
      exact ⟨finite', units ▸ signedUnits_of_positive sign⟩
    · have large : 2 ^ 53 * unitsPerOne ≤ x.units :=
        (Nat.le_div_iff_mul_le unitsPerOne_pos).mp (Nat.le_of_not_lt small)
      have whole : x.units / unitsPerOne * unitsPerOne = x.units :=
        Nat.div_mul_cancel (dvd_of_large (of_decide_eq_true finite) large)
      rw [ofNat_eq finite positive whole.symm]
      exact ⟨finite, above.trans (congrArg _ whole.symm)⟩
  obtain ⟨rest, represented, left⟩ := exists_code_of_fraction (of_decide_eq_true finite)
  have difference : x.signedUnits - (ofNat (x.units / unitsPerOne)).signedUnits = (x.units % unitsPerOne : Nat) := by
    rw [above, computed.2]
    omega
  have exact : (x.signedUnits - (ofNat (x.units / unitsPerOne)).signedUnits).natAbs = unitsOfCode rest := by
    rw [difference, Int.natAbs_natCast]
    exact left.symm
  rw [close_iff finite computed.1 represented exact, difference]
  omega

theorem last_spec :
    (ofNat (2 ^ 64 - 1)).isFinite = true ∧ (ofNat (2 ^ 64 - 1)).signedUnits = (2 ^ 64 * unitsPerOne : Nat) := by
  decide +kernel

theorem le_nearestCode (far : unitsPerOne ≤ n) : 1022 * leadingBit ≤ nearestCode n 1 := by
  obtain ⟨bits, bits_eq, one⟩ := unitsPerOne_eq
  have some : n ≠ 0 := Nat.ne_of_gt (Nat.lt_of_lt_of_le unitsPerOne_pos far)
  have size : bits ≤ n.log2 := (Nat.le_log2 some).mpr (one ▸ far)
  have exponent : 1022 * leadingBit ≤ (n.log2 - 52) * leadingBit := Nat.mul_le_mul_right _ (by omega)
  have range : 1022 * leadingBit ≤ infiniteCode := by decide
  rw [nearestCode, Nat.div_one]
  exact Nat.le_min.mpr ⟨Nat.le_add_right_of_le exponent, range⟩

theorem wholeTolerance_lt {y : Binary64} (positive : y.negative = false) (far : 1022 * leadingBit ≤ y.code)
    (number : y.code ≤ infiniteCode) : wholeTolerance.lt y = true := by
  obtain ⟨finite, sign, -, small⟩ := wholeTolerance_spec
  have compared : y.isNaN = false := decide_eq_false (Nat.not_lt.mpr number)
  simp only [Binary64.lt, Binary64.compare?, not_isNaN finite, compared, sign, positive, Bool.or_self,
    Bool.false_eq_true, if_false, beq_iff_eq, Option.some.injEq, compare_lt_iff_lt]
  omega

theorem not_close_of_far {units : Nat} (finite : x.isFinite = true) (finite' : (ofNat n).isFinite = true)
    (difference : x.signedUnits - (ofNat n).signedUnits = units) (far : unitsPerOne ≤ units) : ¬ Close x n := by
  rintro ⟨near, -⟩
  have some := Nat.ne_of_gt (Nat.lt_of_lt_of_le unitsPerOne_pos far)
  have bounded : nearestCode units 1 ≤ infiniteCode := Nat.min_le_right _ _
  have small := Nat.lt_of_le_of_lt bounded infiniteCode_lt
  have beyond : wholeTolerance.lt (x.sub (ofNat n)) = true := by
    rw [sub_of_pos finite finite' some difference]
    apply wholeTolerance_lt (negative_ofCode small)
    · rw [code_ofCode small]
      exact le_nearestCode far
    · rwa [code_ofCode small]
  rw [beyond] at near
  cases near

theorem unitsPerOne_le_of_ne (finite : x.isFinite = true) (beyond : 2 ^ 64 * unitsPerOne ≤ x.units)
    (apart : x.units ≠ 2 ^ 64 * unitsPerOne) : unitsPerOne ≤ x.units - 2 ^ 64 * unitsPerOne := by
  have large : 2 ^ 53 * unitsPerOne ≤ x.units := Nat.le_trans (Nat.mul_le_mul_right _ (by decide)) beyond
  obtain ⟨k, whole⟩ : unitsPerOne ∣ x.units := dvd_of_large (of_decide_eq_true finite) large
  rw [Nat.mul_comm] at whole
  rw [whole] at beyond apart ⊢
  have atLeast : 2 ^ 64 ≤ k := Nat.le_of_mul_le_mul_right beyond unitsPerOne_pos
  have next : 2 ^ 64 < k := Nat.lt_of_le_of_ne atLeast fun same => apart (same ▸ rfl)
  rw [← Nat.sub_mul]
  exact Nat.le_mul_of_pos_left _ (Nat.sub_pos_of_lt next)

/-- Beyond the range of words, numbers are whole, and only the first of them is near to the greatest word. -/
theorem toWord_of_le (finite : x.isFinite = true) (positive : x.negative = false)
    (beyond : 2 ^ 64 * unitsPerOne ≤ x.units) :
    x.toWord = 2 ^ 64 - 1 ∧ (Close x (2 ^ 64 - 1) ↔ x.units = 2 ^ 64 * unitsPerOne) := by
  have cut : 2 ^ 64 ≤ x.units / unitsPerOne := (Nat.le_div_iff_mul_le unitsPerOne_pos).mpr beyond
  refine ⟨by rw [toWord_of_nonnegative finite positive]; omega, ?_⟩
  obtain ⟨finite', last⟩ := last_spec
  have difference : x.signedUnits - (ofNat (2 ^ 64 - 1)).signedUnits = (x.units - 2 ^ 64 * unitsPerOne : Nat) := by
    rw [signedUnits_of_positive positive, last]
    omega
  constructor
  · intro close
    by_contra apart
    exact not_close_of_far finite finite' difference (unitsPerOne_le_of_ne finite beyond apart) close
  · intro first
    rw [first, Nat.sub_self] at difference
    have exact : (x.signedUnits - (ofNat (2 ^ 64 - 1)).signedUnits).natAbs = unitsOfCode 0 := by
      rw [difference]
      rfl
    rw [close_iff finite finite' (by decide) exact, difference]
    omega

theorem not_close_infinity (sign : Bool) : ¬ Close (infinity sign) (infinity sign).toWord := by
  unfold Close
  cases sign <;> decide +kernel

theorem close_of_isNaN (isNaN : x.isNaN = true) : x.toWord = 0 ∧ Close x 0 := by
  have zero : (ofNat 0).isNaN = false := by decide
  have distance : x.sub (ofNat 0) = nan := by
    rw [sub, zero, if_neg Bool.false_ne_true, add, isNaN, Bool.true_or, if_pos rfl]
  refine ⟨by rw [Binary64.toWord, isNaN, Bool.true_or, if_pos rfl], ?_⟩
  rw [Close, distance]
  decide +kernel

theorem cases_number (x : Binary64) : x.isNaN = true ∨ (∃ sign, x = infinity sign) ∨ x.isFinite = true := by
  rcases Nat.lt_trichotomy x.code infiniteCode with less | equal | greater
  · exact .inr (.inr (decide_eq_true less))
  · refine .inr (.inl ⟨x.negative, ?_⟩)
    rw [infinity, ← equal, ofCode_code]
  · exact .inl (decide_eq_true greater)

theorem not_isNaN_infinity (sign : Bool) : (infinity sign).isNaN ≠ true ∧ (infinity sign).isFinite ≠ true := by
  cases sign <;> decide

theorem countsAs_of_negative (finite : x.isFinite = true) (negative : x.negative = true) :
    x.CountsAs n ↔ n = 0 ∧ -wholeTolerance.units ≤ x.signedUnits := by
  have below := signedUnits_of_negative negative
  have one := unitsPerOne_pos
  constructor
  · intro counted
    cases counted with
    | @near _ _ _ above _ =>
      have none : n * unitsPerOne = 0 := by
        rw [below, ← Int.natCast_mul] at above
        omega
      refine ⟨(Nat.mul_eq_zero.mp none).resolve_right (Nat.ne_of_gt one), ?_⟩
      rw [← Int.natCast_mul, none] at above
      omega
    | belowZero _ _ close => exact ⟨rfl, close⟩
    | afterLast _ first => omega
    | notANumber isNaN => simp [not_isNaN finite] at isNaN
  · rintro ⟨rfl, close⟩
    exact .belowZero finite (by omega) close

theorem countsAs_of_lt (finite : x.isFinite = true) (positive : x.negative = false)
    (below : x.units < 2 ^ 64 * unitsPerOne) :
    x.CountsAs n ↔ n = x.units / unitsPerOne ∧ x.units % unitsPerOne ≤ wholeTolerance.units := by
  have above := signedUnits_of_positive positive
  have tolerance := wholeTolerance_spec.2.2.1
  have parts := Nat.div_add_mod' x.units unitsPerOne
  constructor
  · intro counted
    cases counted with
    | @near _ _ _ least most =>
      rw [above, ← Int.natCast_mul] at least most
      have whole : x.units / unitsPerOne = n := by
        apply Nat.div_eq_of_lt_le
        · omega
        · rw [Nat.succ_mul]
          omega
      rw [whole] at parts ⊢
      exact ⟨rfl, by omega⟩
    | belowZero _ least _ =>
      have none : x.units = 0 := by omega
      rw [none, Nat.zero_div, Nat.zero_mod]
      exact ⟨rfl, Nat.zero_le _⟩
    | afterLast _ first => omega
    | notANumber isNaN => simp [not_isNaN finite] at isNaN
  · rintro ⟨rfl, close⟩
    have word : x.units / unitsPerOne < 2 ^ 64 := (Nat.div_lt_iff_lt_mul unitsPerOne_pos).mpr below
    refine .near finite word ?_ ?_ <;> rw [above, ← Int.natCast_mul] <;> omega

theorem countsAs_of_le (finite : x.isFinite = true) (positive : x.negative = false)
    (beyond : 2 ^ 64 * unitsPerOne ≤ x.units) :
    x.CountsAs n ↔ n = 2 ^ 64 - 1 ∧ x.units = 2 ^ 64 * unitsPerOne := by
  have above := signedUnits_of_positive positive
  have tolerance := wholeTolerance_spec.2.2.1
  have one := unitsPerOne_pos
  constructor
  · intro counted
    cases counted with
    | @near _ _ small _ most =>
      rw [above, ← Int.natCast_mul] at most
      have small : n + 1 ≤ 2 ^ 64 := small
      have room := Nat.mul_le_mul_right unitsPerOne small
      rw [Nat.succ_mul] at room
      omega
    | belowZero _ least _ => omega
    | afterLast _ first => exact ⟨rfl, by omega⟩
    | notANumber isNaN => simp [not_isNaN finite] at isNaN
  · rintro ⟨rfl, first⟩
    exact .afterLast finite (above.trans (congrArg _ first))

theorem countsAs_of_infinite (infinite : x.isFinite ≠ true) : x.CountsAs n ↔ x.isNaN = true ∧ n = 0 := by
  constructor
  · intro counted
    cases counted with
    | near finite => exact absurd finite infinite
    | belowZero finite => exact absurd finite infinite
    | afterLast finite => exact absurd finite infinite
    | notANumber isNaN => exact ⟨isNaN, rfl⟩
  · rintro ⟨isNaN, rfl⟩
    exact .notANumber isNaN

theorem toWord_number_eq_ok : toWord (.number x) = .ok n ↔ x.CountsAs n := by
  rw [toWord_eq_ok_iff_close]
  rcases cases_number x with isNaN | ⟨sign, rfl⟩ | finite
  · obtain ⟨zero, close⟩ := close_of_isNaN isNaN
    have infinite : x.isFinite ≠ true := fun finite => by simp [not_isNaN finite] at isNaN
    rw [countsAs_of_infinite infinite, zero, and_iff_right isNaN]
    exact ⟨And.left, fun same => ⟨same, same ▸ close⟩⟩
  · obtain ⟨number, infinite⟩ := not_isNaN_infinity sign
    rw [countsAs_of_infinite infinite]
    refine iff_of_false ?_ fun counted => number counted.1
    rintro ⟨rfl, close⟩
    exact not_close_infinity sign close
  · cases negative : x.negative with
    | true =>
      obtain ⟨zero, close⟩ := toWord_of_negative finite negative
      rw [countsAs_of_negative finite negative, zero]
      exact and_congr_right fun same => same ▸ close
    | false =>
      rcases Nat.lt_or_ge x.units (2 ^ 64 * unitsPerOne) with below | beyond
      · obtain ⟨whole, close⟩ := toWord_of_lt finite negative below
        rw [countsAs_of_lt finite negative below, whole]
        exact and_congr_right fun same => same ▸ close
      · obtain ⟨last, close⟩ := toWord_of_le finite negative beyond
        rw [countsAs_of_le finite negative beyond, last]
        exact and_congr_right fun same => same ▸ close

def IsWord (v : Value) (n : Nat) : Prop := ∃ x, v = .number x ∧ x.CountsAs n

def IsArray {α : Type} (IsItem : Value → α → Prop) (v : Value) (as : List α) : Prop :=
  ∃ items, v = .array items ∧ List.Forall₂ IsItem items as

theorem toWord_eq_ok {v : Value} : v.toWord = .ok n ↔ v.IsWord n := by
  cases v with
  | number x => simp only [IsWord, toWord_number_eq_ok, Value.number.injEq, exists_eq_left']
  | _ => exact ⟨nofun, nofun⟩

theorem toFlag_eq_ok {v : Value} {flag : Bool} : v.toFlag = .ok flag ↔ v = .boolean flag := by
  cases v <;> simp [toFlag]

theorem toText_eq_ok {v : Value} {text : String} : v.toText = .ok text ↔ v = .literal text := by
  cases v <;> simp [toText]

theorem toItems_eq_ok {v : Value} {items : List Value} : v.toItems = .ok items ↔ v = .array items := by
  cases v <;> simp [toItems]

theorem mapM_toItems_eq_ok {α : Type} {read : Value → Except Error α} {IsItem : Value → α → Prop}
    (read_eq_ok : ∀ item a, read item = .ok a ↔ IsItem item a) {v : Value} {as : List α} :
    (do (← v.toItems).mapM read) = .ok as ↔ v.IsArray IsItem as := by
  simp only [bind_eq_ok, toItems_eq_ok, mapM_eq_ok, read_eq_ok, IsArray]

theorem toWords_eq_ok {v : Value} {ns : List Nat} : v.toWords = .ok ns ↔ v.IsArray IsWord ns :=
  mapM_toItems_eq_ok fun _ _ => toWord_eq_ok

theorem toFlags_eq_ok {v : Value} {flags : List Bool} : v.toFlags = .ok flags ↔ v.IsArray (· = .boolean ·) flags :=
  mapM_toItems_eq_ok fun _ _ => toFlag_eq_ok

theorem toTexts_eq_ok {v : Value} {texts : List String} : v.toTexts = .ok texts ↔ v.IsArray (· = .literal ·) texts :=
  mapM_toItems_eq_ok fun _ _ => toText_eq_ok

end Config.Value

end Interconnect
