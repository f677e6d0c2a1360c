import Mathlib
import Interconnect.Port.Selection
import Interconnect.Proofs.Number.Word

namespace Interconnect

theorem Span.mem_mk {start stop channel : Nat} :
    channel ∈ (⟨start, stop⟩ : Span) ↔ start ≤ channel ∧ channel < stop :=
  Iff.rfl

theorem Span.fits_of_stop_le {s : Span} {count : Nat} (below : s.stop ≤ count) : s.fits count :=
  decide_eq_true (.inr below)

theorem Span.not_mem_empty {channel : Nat} : channel ∉ Span.empty := fun inside => Nat.not_lt_zero channel inside.2

namespace Selection

variable {selection : Selection} {dimension? : Option Nat} {vnet size count channel : Nat} {opened : Span × Span}

def spans (s : Selection) (dimension? : Option Nat) (vnet size : Nat) : Span × Span :=
  let base := vnet * size
  let pool : Span := ⟨base, base + size⟩
  match dimension?, s.partition with
  | none, _ => (pool, .empty)
  | some _, .whole => (pool, .empty)
  | some dimension, .halves =>
    let middle := base + size / 2
    (if s.checkpoint dimension then ⟨base, middle⟩ else ⟨middle, base + size⟩, .empty)
  | some dimension, .thirds =>
    let third := size / 3
    (⟨base, base + third⟩,
      if s.checkpoint dimension then ⟨base + third, base + 2 * third⟩
      else ⟨base + 2 * third, base + size⟩)

theorem eq_spans_of_ranges (found : selection.ranges dimension? vnet size = .ok opened) :
    opened = selection.spans dimension? vnet size := by
  obtain ⟨partition, checkpoints⟩ := selection
  cases dimension? with
  | none =>
    simp only [ranges, bind_eq_ok, Word.mul_eq_ok, Word.add_eq_ok] at found
    obtain ⟨_, ⟨-, rfl⟩, _, ⟨-, rfl⟩, ⟨⟩⟩ := found
    rfl
  | some dimension =>
    cases partition with
    | whole =>
      simp only [ranges, bind_eq_ok, Word.mul_eq_ok, Word.add_eq_ok] at found
      obtain ⟨_, ⟨-, rfl⟩, _, ⟨-, rfl⟩, ⟨⟩⟩ := found
      rfl
    | halves =>
      by_cases crossed : checkpoint ⟨.halves, checkpoints⟩ dimension
      · simp only [ranges, crossed, if_true, bind_eq_ok, Word.mul_eq_ok, Word.add_eq_ok] at found
        obtain ⟨_, ⟨-, rfl⟩, _, ⟨-, rfl⟩, ⟨⟩⟩ := found
        simp only [spans, crossed, if_true]
      · simp only [ranges, if_neg crossed, bind_eq_ok, Word.mul_eq_ok, Word.add_eq_ok] at found
        obtain ⟨_, ⟨-, rfl⟩, _, ⟨-, rfl⟩, _, ⟨-, rfl⟩, ⟨⟩⟩ := found
        simp only [spans, if_neg crossed]
    | thirds =>
      by_cases crossed : checkpoint ⟨.thirds, checkpoints⟩ dimension
      · simp only [ranges, crossed, if_true, bind_eq_ok, Word.mul_eq_ok, Word.add_eq_ok] at found
        obtain ⟨_, ⟨-, rfl⟩, _, ⟨-, rfl⟩, _, ⟨-, rfl⟩, _, ⟨-, rfl⟩, ⟨⟩⟩ := found
        simp only [spans, crossed, if_true]
      · simp only [ranges, if_neg crossed, bind_eq_ok, Word.mul_eq_ok, Word.add_eq_ok] at found
        obtain ⟨_, ⟨-, rfl⟩, _, ⟨-, rfl⟩, _, ⟨-, rfl⟩, _, ⟨-, rfl⟩, _, ⟨-, rfl⟩, ⟨⟩⟩ := found
        simp only [spans, if_neg crossed]

theorem ranges_eq (selection : Selection) (dimension? : Option Nat) (room : vnet * size + size < 2 ^ 64) :
    selection.ranges dimension? vnet size = .ok (selection.spans dimension? vnet size) := by
  obtain ⟨partition, checkpoints⟩ := selection
  have base : Word.mul vnet size = .ok (vnet * size) := Word.mul_eq_ok.mpr ⟨by omega, rfl⟩
  have stop : Word.add (vnet * size) size = .ok (vnet * size + size) := Word.add_eq_ok.mpr ⟨room, rfl⟩
  rw [ranges]
  refine bind_eq_ok.mpr ⟨_, base, ?_⟩
  cases dimension? with
  | none => exact bind_eq_ok.mpr ⟨_, stop, rfl⟩
  | some dimension =>
    cases partition with
    | whole => exact bind_eq_ok.mpr ⟨_, stop, rfl⟩
    | halves =>
      have middle : Word.add (vnet * size) (size / 2) = .ok (vnet * size + size / 2) :=
        Word.add_eq_ok.mpr ⟨by omega, rfl⟩
      refine bind_eq_ok.mpr ⟨_, middle, ?_⟩
      by_cases crossed : checkpoint ⟨.halves, checkpoints⟩ dimension
      · simp only [spans, crossed, if_true]
        rfl
      · simp only [spans, if_neg crossed]
        exact bind_eq_ok.mpr ⟨_, stop, rfl⟩
    | thirds =>
      have first : Word.add (vnet * size) (size / 3) = .ok (vnet * size + size / 3) :=
        Word.add_eq_ok.mpr ⟨by omega, rfl⟩
      have twice : Word.mul 2 (size / 3) = .ok (2 * (size / 3)) := Word.mul_eq_ok.mpr ⟨by omega, rfl⟩
      have last : Word.add (vnet * size) (2 * (size / 3)) = .ok (vnet * size + 2 * (size / 3)) :=
        Word.add_eq_ok.mpr ⟨by omega, rfl⟩
      refine bind_eq_ok.mpr ⟨_, first, bind_eq_ok.mpr ⟨_, twice, bind_eq_ok.mpr ⟨_, last, ?_⟩⟩⟩
      by_cases crossed : checkpoint ⟨.thirds, checkpoints⟩ dimension
      · simp only [spans, crossed, if_true]
        rfl
      · simp only [spans, if_neg crossed]
        exact bind_eq_ok.mpr ⟨_, stop, rfl⟩

theorem spans_fits (selection : Selection) (dimension? : Option Nat) (room : vnet * size + size ≤ count) :
    (selection.spans dimension? vnet size).1.fits count ∧ (selection.spans dimension? vnet size).2.fits count := by
  obtain ⟨partition, checkpoints⟩ := selection
  cases dimension? with
  | none => exact ⟨Span.fits_of_stop_le room, Span.fits_of_stop_le (Nat.zero_le _)⟩
  | some dimension =>
    cases partition with
    | whole => exact ⟨Span.fits_of_stop_le room, Span.fits_of_stop_le (Nat.zero_le _)⟩
    | halves =>
      refine ⟨?_, Span.fits_of_stop_le (Nat.zero_le _)⟩
      simp only [spans]
      split <;> apply Span.fits_of_stop_le <;> dsimp only <;> omega
    | thirds =>
      simp only [spans]
      constructor
      · apply Span.fits_of_stop_le
        dsimp only
        omega
      · split <;> apply Span.fits_of_stop_le <;> dsimp only <;> omega

theorem mem_of_mem_spans
    (opened : channel ∈ (selection.spans dimension? vnet size).1 ∨
      channel ∈ (selection.spans dimension? vnet size).2) :
    vnet * size ≤ channel ∧ channel < vnet * size + size := by
  obtain ⟨partition, checkpoints⟩ := selection
  cases dimension? with
  | none => exact opened.resolve_right Span.not_mem_empty
  | some dimension =>
    cases partition with
    | whole => exact opened.resolve_right Span.not_mem_empty
    | halves =>
      have opened := opened.resolve_right Span.not_mem_empty
      simp only [spans] at opened
      split at opened <;> rw [Span.mem_mk] at opened <;> omega
    | thirds =>
      have third : 3 * (size / 3) ≤ size := Nat.mul_div_le size 3
      simp only [spans, Span.mem_mk] at opened
      split at opened <;> rw [Span.mem_mk] at opened <;> omega

end Selection

end Interconnect
