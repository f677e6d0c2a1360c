import Mathlib
import Interconnect.Number.Decimal

namespace Interconnect.Decimal

theorem tenTo_add (n m : Nat) : tenTo (n + m) = tenTo n * tenTo m := Nat.pow_add 10 n m

theorem tenTo_pos (n : Nat) : 0 < tenTo n := Nat.pow_pos (by decide)

theorem ofDigits_append (ds es : List Char) :
    ofDigits (ds ++ es) = ofDigits ds * tenTo es.length + ofDigits es := by
  unfold ofDigits tenTo
  rw [Nat.ofDigitChars_append, Nat.ofDigitChars_eq_ofDigitChars_zero, Nat.mul_comm]
  rfl

@[simp]
theorem ofDigits_digits (n : Nat) : ofDigits (digits n) = n := Nat.ofDigitChars_ten_toDigits

@[simp]
theorem ofDigits_zeros (n : Nat) : ofDigits (List.replicate n '0') = 0 := by
  unfold ofDigits
  rw [Nat.ofDigitChars_replicate_zero, Nat.mul_zero]

theorem digits_ne_nil (n : Nat) : digits n ≠ [] := Nat.toDigits_ne_nil

theorem isDigit_of_mem_digits {n : Nat} {c : Char} (among : c ∈ digits n) : c.isDigit = true :=
  Nat.isDigit_of_mem_toDigits (by decide) (by decide) among

theorem length_digits_le {n places : Nat} (small : n < tenTo places) (some_place : 0 < places) :
    (digits n).length ≤ places :=
  (Nat.length_toDigits_le_iff (by decide) some_place).2 small

@[simp]
theorem ofDigits_padLeft (width : Nat) (ds : List Char) : ofDigits (padLeft width ds) = ofDigits ds := by
  simp [padLeft, ofDigits_append]

theorem length_padLeft {width : Nat} {ds : List Char} (fits : ds.length ≤ width) :
    (padLeft width ds).length = width := by
  simp only [padLeft, List.length_append, List.length_replicate]
  omega

theorem isDigit_of_mem_padLeft {width : Nat} {ds : List Char} (all : ∀ c ∈ ds, c.isDigit = true) {c : Char}
    (among : c ∈ padLeft width ds) : c.isDigit = true := by
  rcases List.mem_append.1 among with pad | kept
  · rw [List.eq_of_mem_replicate pad]
    rfl
  · exact all c kept

theorem stripTrailing_append (ds : List Char) :
    ∃ zeros, stripTrailing ds ++ List.replicate zeros '0' = ds := by
  have split := List.takeWhile_append_dropWhile (p := (· == '0')) (l := ds.reverse)
  have zeros : ds.reverse.takeWhile (· == '0') =
      List.replicate (ds.reverse.takeWhile (· == '0')).length '0' := by
    apply List.eq_replicate_of_mem
    intro c among
    have zero := List.mem_takeWhile_imp among
    simpa using zero
  refine ⟨(ds.reverse.takeWhile (· == '0')).length, ?_⟩
  have turned := congrArg List.reverse split
  rw [List.reverse_append, List.reverse_reverse, zeros, List.reverse_replicate] at turned
  exact turned

def pointed : List Char → List Char
  | [] => []
  | places => '.' :: places

def ofPlaces (whole places : List Char) : Decimal := ⟨ofDigits (whole ++ places), -places.length⟩

inductive Rescaled : Decimal → Decimal → Prop
  | raise (c : Nat) (e : Int) (k : Nat) : Rescaled ⟨c * tenTo k, e⟩ ⟨c, e + k⟩
  | lower (c : Nat) (e : Int) (k : Nat) : Rescaled ⟨c, e + k⟩ ⟨c * tenTo k, e⟩

theorem fraction_digits {n places : Nat} {fraction : List Char}
    (named : stripTrailing (padLeft places (digits n)) = fraction) (small : n < tenTo places)
    (some_place : 0 < places) :
    (∀ c ∈ fraction, c.isDigit = true) ∧
      ∃ zeros, fraction.length + zeros = places ∧ n = ofDigits fraction * tenTo zeros := by
  obtain ⟨zeros, whole⟩ := stripTrailing_append (padLeft places (digits n))
  rw [named] at whole
  have fits := length_digits_le small some_place
  refine ⟨?_, zeros, ?_, ?_⟩
  · intro c among
    have kept : c ∈ padLeft places (digits n) := by
      rw [← whole]
      exact List.mem_append_left _ among
    exact isDigit_of_mem_padLeft (fun _ => isDigit_of_mem_digits) kept
  · have length := congrArg List.length whole
    rw [length_padLeft fits, List.length_append, List.length_replicate] at length
    exact length
  · have value := congrArg ofDigits whole
    rw [ofDigits_padLeft, ofDigits_digits, ofDigits_append, ofDigits_zeros, List.length_replicate] at value
    omega

/-- Positional notation is digits, with a point and more digits if need be, that stand for the same value. -/
theorem positional_reads_back (d : Decimal) :
    ∃ whole places, positional d = whole ++ pointed places ∧ whole ≠ [] ∧
      (∀ c ∈ whole, c.isDigit = true) ∧ (∀ c ∈ places, c.isDigit = true) ∧
      Rescaled d (ofPlaces whole places) := by
  obtain ⟨c, e⟩ := d
  by_cases nonnegative : 0 ≤ e
  · refine ⟨digits (c * tenTo e.toNat), [], ?_, digits_ne_nil _, fun _ => isDigit_of_mem_digits, by simp, ?_⟩
    · simp [positional, nonnegative, pointed]
    · have same : ofPlaces (digits (c * tenTo e.toNat)) [] = ⟨c * tenTo e.toNat, 0⟩ := by simp [ofPlaces]
      have split : (⟨c, e⟩ : Decimal) = ⟨c, 0 + (e.toNat : Int)⟩ := by
        congr 1
        omega
      rw [same, split]
      exact .lower c 0 e.toNat
  · generalize shown : (-e).toNat = places
    have some_place : 0 < places := by omega
    -- zeros at the end of the fraction are not written, so the coefficient may lose factors of ten
    have remainder : c % tenTo places < tenTo places := Nat.mod_lt _ (tenTo_pos places)
    generalize named : stripTrailing (padLeft places (digits (c % tenTo places))) = fraction
    obtain ⟨all, zeros, length, value⟩ := fraction_digits named remainder some_place
    refine ⟨digits (c / tenTo places), fraction, ?_, digits_ne_nil _, fun _ => isDigit_of_mem_digits, all, ?_⟩
    · simp only [positional, nonnegative, if_false, shown, named]
      cases fraction <;> simp [pointed]
    · have coefficient : c = ofDigits (digits (c / tenTo places) ++ fraction) * tenTo zeros := by
        rw [ofDigits_append, ofDigits_digits, Nat.add_mul, ← value, Nat.mul_assoc, ← tenTo_add, length]
        exact (Nat.div_add_mod' c (tenTo places)).symm
      have exponent : (-fraction.length : Int) = e + zeros := by omega
      unfold ofPlaces
      rw [exponent]
      nth_rewrite 1 [coefficient]
      exact .raise _ _ _

end Interconnect.Decimal
