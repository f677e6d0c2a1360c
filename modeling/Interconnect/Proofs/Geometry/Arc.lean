import Mathlib
import Interconnect.Geometry.Arc
import Interconnect.Proofs.Number.Word

namespace Interconnect

variable {side c t offset : Nat} {sign : Sign}

def aheadBy (side source target : Nat) : Nat := (target + side - source) % side

def nearest (offset side : Nat) : Sign → Bool
  | .positive => decide (2 * offset ≤ side)
  | .negative => decide (side ≤ 2 * offset)

def hopsToward (side source target : Nat) : Sign → Nat
  | .positive => aheadBy side source target
  | .negative => aheadBy side target source

/-- The target lies toward the sign before the link that closes the ring. -/
def Onward (source target : Nat) : Sign → Prop
  | .positive => source ≤ target
  | .negative => target ≤ source

theorem aheadBy_eq (inside : c < side) (target : t < side) :
    aheadBy side c t = if c ≤ t then t - c else t + side - c := by
  unfold aheadBy
  split
  · have wrapped : t + side - c = t - c + side := by omega
    rw [wrapped, Nat.add_mod_right, Nat.mod_eq_of_lt (by omega)]
  · exact Nat.mod_eq_of_lt (by omega)

theorem aheadBy_lt (positive : 0 < side) : aheadBy side c t < side := Nat.mod_lt _ positive

theorem aheadBy_eq_zero_iff (inside : c < side) (target : t < side) : aheadBy side c t = 0 ↔ c = t := by
  rw [aheadBy_eq inside target]
  split <;> omega

theorem aheadBy_swap (inside : c < side) (target : t < side) (apart : c ≠ t) :
    aheadBy side t c = side - aheadBy side c t := by
  rw [aheadBy_eq inside target, aheadBy_eq target inside]
  split <;> split <;> omega

theorem ringOffset_eq_ok :
    ringOffset side c t = .ok offset ↔
      t + side < 2 ^ 64 ∧ c ≤ t + side ∧ side ≠ 0 ∧ offset = aheadBy side c t := by
  simp only [ringOffset, bind_eq_ok, Word.add_eq_ok, Word.sub_eq_ok, Word.rem_eq_ok]
  constructor
  · rintro ⟨_, ⟨bounded, rfl⟩, _, ⟨reached, rfl⟩, positive, rfl⟩
    exact ⟨bounded, reached, positive, rfl⟩
  · rintro ⟨bounded, reached, positive, rfl⟩
    exact ⟨_, ⟨bounded, rfl⟩, _, ⟨reached, rfl⟩, positive, rfl⟩

theorem ringOffset_eq (inside : c < side) (bounded : t + side < 2 ^ 64) :
    ringOffset side c t = .ok (aheadBy side c t) :=
  ringOffset_eq_ok.mpr ⟨bounded, by omega, by omega, rfl⟩

theorem shorterArc_eq_none_iff : shorterArc offset side = .ok none ↔ offset = 0 := by
  unfold shorterArc
  by_cases none : offset = 0
  · simp [none, pure, Except.pure]
  · simp [none, bind_eq_ok, pure, Except.pure]

theorem shorterArc_eq_some_iff :
    shorterArc offset side = .ok (some sign) ↔
      offset ≠ 0 ∧ 2 * offset < 2 ^ 64 ∧ sign = if 2 * offset ≤ side then .positive else .negative := by
  unfold shorterArc
  by_cases none : offset = 0
  · simp [none, pure, Except.pure]
  · simp only [none, if_false, bind_eq_ok, Word.mul_eq_ok, ne_eq, not_false_eq_true, true_and]
    constructor
    · rintro ⟨_, ⟨bounded, rfl⟩, ⟨⟩⟩
      exact ⟨bounded, rfl⟩
    · rintro ⟨bounded, rfl⟩
      exact ⟨_, ⟨bounded, rfl⟩, rfl⟩

theorem exists_shorterArc_eq_some (apart : offset ≠ 0) (bounded : 2 * offset < 2 ^ 64) (side : Nat) :
    ∃ sign, shorterArc offset side = .ok (some sign) :=
  ⟨_, shorterArc_eq_some_iff.mpr ⟨apart, bounded, rfl⟩⟩

theorem isShortest_eq_ok {short : Bool} :
    isShortest offset side sign = .ok short ↔ 2 * offset < 2 ^ 64 ∧ short = nearest offset side sign := by
  simp only [isShortest, bind_eq_ok, Word.mul_eq_ok]
  constructor
  · rintro ⟨_, ⟨bounded, rfl⟩, done⟩
    cases sign <;> cases done <;> exact ⟨bounded, rfl⟩
  · rintro ⟨bounded, rfl⟩
    refine ⟨_, ⟨bounded, rfl⟩, ?_⟩
    cases sign <;> rfl

theorem ringSign_eq_some {size source target : Nat} (way : ringSign size source target = .ok (some sign)) :
    aheadBy size source target ≠ 0 ∧
      sign = if size / 2 ≤ aheadBy size source target then .negative else .positive := by
  obtain ⟨hops, measured, chosen⟩ := bind_eq_ok.mp way
  obtain ⟨-, -, -, rfl⟩ := ringOffset_eq_ok.mp measured
  injection chosen with chosen
  split at chosen
  · cases chosen
  · rename_i apart
    refine ⟨apart, ?_⟩
    split at chosen <;> (cases chosen; rename_i near; simp only [near, if_true, if_false])

theorem exists_ringSign_eq_some {size source target : Nat} (inside : source < size) (reachable : target < size)
    (bounded : target + size < 2 ^ 64) (apart : source ≠ target) :
    ∃ sign, ringSign size source target = .ok (some sign) := by
  have offset : aheadBy size source target ≠ 0 := fun none =>
    apart ((aheadBy_eq_zero_iff inside reachable).mp none)
  refine ⟨if size / 2 ≤ aheadBy size source target then .negative else .positive, ?_⟩
  refine bind_eq_ok.mpr ⟨_, ringOffset_eq inside bounded, ?_⟩
  rw [if_neg offset]
  split <;> rfl

theorem nextPlace_positive (inside : c < side) :
    nextPlace side c .positive = if c + 1 = side then 0 else c + 1 := by
  change (c + 1) % side = _
  split
  · rename_i last
    rw [last, Nat.mod_self]
  · exact Nat.mod_eq_of_lt (by omega)

theorem nextPlace_negative (inside : c < side) :
    nextPlace side c .negative = if c = 0 then side - 1 else c - 1 := by
  change (c + side - 1) % side = _
  split
  · rename_i first
    rw [first, Nat.zero_add, Nat.mod_eq_of_lt (by omega)]
  · have wrapped : c + side - 1 = c - 1 + side := by omega
    rw [wrapped, Nat.add_mod_right, Nat.mod_eq_of_lt (by omega)]

theorem nextPlace_lt (inside : c < side) (sign : Sign) : nextPlace side c sign < side := by
  cases sign <;> exact Nat.mod_lt _ (by omega)

theorem hopsToward_eq_zero_iff (inside : c < side) (target : t < side) :
    hopsToward side c t sign = 0 ↔ c = t := by
  cases sign with
  | positive => exact aheadBy_eq_zero_iff inside target
  | negative => exact (aheadBy_eq_zero_iff target inside).trans eq_comm

theorem hopsToward_nextPlace (inside : c < side) (target : t < side) (apart : c ≠ t) (sign : Sign) :
    hopsToward side (nextPlace side c sign) t sign + 1 = hopsToward side c t sign := by
  have next := nextPlace_lt inside sign
  cases sign with
  | positive =>
    simp only [hopsToward]
    rw [aheadBy_eq next target, aheadBy_eq inside target, nextPlace_positive inside]
    split <;> split <;> split <;> omega
  | negative =>
    simp only [hopsToward]
    rw [aheadBy_eq target next, aheadBy_eq target inside, nextPlace_negative inside]
    split <;> split <;> split <;> omega

theorem Onward.next (onward : Onward c t sign) (inside : c < side) (target : t < side) (apart : c ≠ t) :
    closesRing side c sign = false ∧ Onward (nextPlace side c sign) t sign := by
  cases sign with
  | positive =>
    simp only [Onward] at onward
    simp only [closesRing, Onward, beq_eq_false_iff_ne, nextPlace_positive inside]
    split <;> omega
  | negative =>
    simp only [Onward] at onward
    simp only [closesRing, Onward, beq_eq_false_iff_ne, nextPlace_negative inside]
    split <;> omega

theorem onward_of_closesRing (closes : closesRing side c sign) (inside : c < side) (target : t < side) :
    Onward (nextPlace side c sign) t sign := by
  cases sign with
  | positive =>
    simp only [closesRing, beq_iff_eq] at closes
    simp only [Onward]
    rw [nextPlace_positive inside, if_pos closes]
    omega
  | negative =>
    simp only [closesRing, beq_iff_eq] at closes
    simp only [Onward]
    rw [nextPlace_negative inside, if_pos closes]
    omega

def progress (side place : Nat) : Sign → Nat
  | .positive => place
  | .negative => side - 1 - place

theorem progress_lt (inside : c < side) (sign : Sign) : progress side c sign < side := by
  cases sign <;> simp only [progress] <;> omega

theorem progress_nextPlace (inside : c < side) (before : closesRing side c sign = false) :
    progress side (nextPlace side c sign) sign = progress side c sign + 1 := by
  cases sign with
  | positive =>
    simp only [closesRing, beq_eq_false_iff_ne] at before
    simp only [progress, nextPlace_positive inside, before, if_false]
  | negative =>
    simp only [closesRing, beq_eq_false_iff_ne] at before
    simp only [progress, nextPlace_negative inside, before, if_false]
    omega

end Interconnect
