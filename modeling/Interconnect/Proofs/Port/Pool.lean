import Mathlib
import Interconnect.Proofs.Port.Separation

namespace Interconnect

namespace Span

/-- Spans inside a pool, each wholly before the next. -/
structure Within (parts : List Span) (pool : Span) : Prop where
  inside : ∀ part ∈ parts, ∀ channel ∈ part, channel ∈ pool
  increasing : parts.Pairwise fun part later => ∀ channel ∈ part, ∀ other ∈ later, channel < other

/-- Spans that have a channel each, and together all channels of a pool. -/
structure Fill (parts : List Span) (pool : Span) : Prop extends Within parts pool where
  nonempty : ∀ part ∈ parts, ∃ channel, channel ∈ part
  cover : ∀ channel ∈ pool, ∃ part ∈ parts, channel ∈ part

theorem pool_eq (vnet size : Nat) : pool vnet size = ⟨vnet * size, vnet * size + size⟩ := by
  rw [pool, Nat.succ_mul]

theorem fill_nil (start : Nat) : Fill [] ⟨start, start⟩ := by
  constructor
  case toWithin => exact ⟨nofun, List.Pairwise.nil⟩
  case nonempty => exact nofun
  case cover =>
    intro channel inside
    rw [mem_mk] at inside
    omega

theorem Fill.cons {start stop last : Nat} {parts : List Span} (rest : Fill parts ⟨stop, last⟩) (some : start < stop)
    (within : stop ≤ last) : Fill (⟨start, stop⟩ :: parts) ⟨start, last⟩ := by
  have later : ∀ part ∈ parts, ∀ channel ∈ part, stop ≤ channel ∧ channel < last := rest.inside
  constructor
  case toWithin =>
    constructor
    case inside =>
      intro part member channel among
      rw [mem_mk]
      rcases List.mem_cons.mp member with rfl | member
      · rw [mem_mk] at among
        omega
      · have bounds := later part member channel among
        omega
    case increasing =>
      apply List.pairwise_cons.mpr
      apply And.intro _ rest.increasing
      intro part member channel among other among'
      have bounds := later part member other among'
      rw [mem_mk] at among
      omega
  case nonempty =>
    intro part member
    rcases List.mem_cons.mp member with rfl | member
    · exact ⟨start, Nat.le_refl start, some⟩
    · exact rest.nonempty part member
  case cover =>
    intro channel inside
    rw [mem_mk] at inside
    by_cases before : channel < stop
    · exact ⟨_, List.mem_cons_self, inside.1, before⟩
    · rcases rest.cover channel ⟨Nat.le_of_not_lt before, inside.2⟩ with ⟨part, member, among⟩
      exact ⟨part, List.mem_cons_of_mem _ member, among⟩

end Span

namespace Selection

def Opens (s : Selection) (dimension? : Option Nat) (vnet size channel : Nat) : Prop :=
  channel ∈ (s.spans dimension? vnet size).1 ∨ channel ∈ (s.spans dimension? vnet size).2

variable {s : Selection} {dimension? : Option Nat} {vnet size channel dimension : Nat}
  {checkpoints crossed before : List Bool}

theorem Opens.mem_pool (opened : s.Opens dimension? vnet size channel) : channel ∈ Span.pool vnet size := by
  rw [Span.pool_eq]
  exact mem_of_mem_spans opened

theorem spans_within (s : Selection) (dimension? : Option Nat) (vnet size : Nat) :
    Span.Within [(s.spans dimension? vnet size).1, (s.spans dimension? vnet size).2] (.pool vnet size) := by
  constructor
  case inside =>
    intro part member channel among
    rcases List.mem_pair.mp member with rfl | rfl
    · exact Opens.mem_pool (.inl among)
    · exact Opens.mem_pool (.inr among)
  case increasing =>
    apply List.pairwise_pair.mpr
    intro channel among other among'
    rcases s with ⟨partition, checkpoints⟩
    cases dimension? with
    | none => exact absurd among' Span.not_mem_empty
    | some dimension =>
      cases partition with
      | whole => exact absurd among' Span.not_mem_empty
      | halves => exact absurd among' Span.not_mem_empty
      | thirds =>
        simp only [spans] at among among'
        rw [Span.mem_mk] at among
        split at among' <;> rw [Span.mem_mk] at among' <;> omega

theorem spans_none (s : Selection) (vnet size : Nat) :
    s.spans none vnet size = (.pool vnet size, .empty) := by
  rw [Span.pool_eq]
  rfl

theorem spans_whole (checkpoints : List Bool) (dimension? : Option Nat) (vnet size : Nat) :
    spans ⟨.whole, checkpoints⟩ dimension? vnet size = (.pool vnet size, .empty) := by
  rw [Span.pool_eq]
  cases dimension? <;> rfl

theorem spans_congr {partition : Partition} {other : List Bool}
    (same : checkpoints[dimension]?.getD false = other[dimension]?.getD false) (vnet size : Nat) :
    spans ⟨partition, checkpoints⟩ (some dimension) vnet size =
      spans ⟨partition, other⟩ (some dimension) vnet size := by
  have agree : checkpoint ⟨partition, checkpoints⟩ dimension = checkpoint ⟨partition, other⟩ dimension := same
  cases partition <;> simp only [spans, agree]

section Parts

variable (behind : crossed[dimension]?.getD false = true) (ahead : before[dimension]?.getD false = false)
include behind ahead

theorem halves_fill (enough : 2 ≤ size) (vnet : Nat) :
    let opened (checkpoints : List Bool) := spans ⟨.halves, checkpoints⟩ (some dimension) vnet size
    (opened crossed).2 = .empty ∧ (opened before).2 = .empty ∧
      Span.Fill [(opened crossed).1, (opened before).1] (.pool vnet size) := by
  have lower : spans ⟨.halves, crossed⟩ (some dimension) vnet size =
      (⟨vnet * size, vnet * size + size / 2⟩, .empty) := by simp only [spans, checkpoint, behind, if_true]
  have upper : spans ⟨.halves, before⟩ (some dimension) vnet size =
      (⟨vnet * size + size / 2, vnet * size + size⟩, .empty) := by simp [spans, checkpoint, ahead]
  intro opened
  refine ⟨congrArg Prod.snd lower, congrArg Prod.snd upper, ?_⟩
  simp only [opened, lower, upper, Span.pool_eq]
  apply Span.Fill.cons _ (by omega) (by omega)
  exact (Span.fill_nil _).cons (by omega) (Nat.le_refl _)

theorem thirds_fill (enough : 3 ≤ size) (vnet : Nat) :
    let opened (checkpoints : List Bool) := spans ⟨.thirds, checkpoints⟩ (some dimension) vnet size
    (opened crossed).1 = (opened before).1 ∧
      Span.Fill [(opened crossed).1, (opened crossed).2, (opened before).2] (.pool vnet size) := by
  have second : spans ⟨.thirds, crossed⟩ (some dimension) vnet size =
      (⟨vnet * size, vnet * size + size / 3⟩, ⟨vnet * size + size / 3, vnet * size + 2 * (size / 3)⟩) := by
    simp only [spans, checkpoint, behind, if_true]
  have last : spans ⟨.thirds, before⟩ (some dimension) vnet size =
      (⟨vnet * size, vnet * size + size / 3⟩, ⟨vnet * size + 2 * (size / 3), vnet * size + size⟩) := by
    simp [spans, checkpoint, ahead]
  intro opened
  simp only [opened, second, last, Span.pool_eq, true_and]
  apply Span.Fill.cons _ (by omega) (by omega)
  apply Span.Fill.cons _ (by omega) (by omega)
  exact (Span.fill_nil _).cons (by omega) (Nat.le_refl _)

end Parts

/-- A pool of at least the least size is shared out by its partition: what packets may take at a port lies in it, in
increasing order, and depends on nothing but the checkpoint of the dimension of the port; what the checkpoint set and
not set opens fills it; and nothing of it is open to packets of another virtual network. It can be told to a packet
if the end of the pool is a word. -/
theorem spans_share_pool {partition : Partition} (enough : partition.leastPool ≤ size) (vnet dimension : Nat) :
    let opened (checkpoints : List Bool) (dimension? : Option Nat) :=
      spans ⟨partition, checkpoints⟩ dimension? vnet size
    let pool := Span.pool vnet size
    ((∀ checkpoints dimension? told,
        ranges ⟨partition, checkpoints⟩ dimension? vnet size = .ok told → told = opened checkpoints dimension?) ∧
      (pool.stop < 2 ^ 64 → ∀ checkpoints dimension?,
        ranges ⟨partition, checkpoints⟩ dimension? vnet size = .ok (opened checkpoints dimension?))) ∧
    (∀ checkpoints dimension?,
      Span.Within [(opened checkpoints dimension?).1, (opened checkpoints dimension?).2] pool) ∧
    (∀ checkpoints, opened checkpoints none = (pool, .empty)) ∧
    (∀ crossed before, crossed[dimension]?.getD false = true → before[dimension]?.getD false = false →
      match partition with
      | .whole => opened crossed dimension = (pool, .empty) ∧ opened before dimension = (pool, .empty)
      | .halves => (opened crossed dimension).2 = .empty ∧ (opened before dimension).2 = .empty ∧
          Span.Fill [(opened crossed dimension).1, (opened before dimension).1] pool
      | .thirds => (opened crossed dimension).1 = (opened before dimension).1 ∧
          Span.Fill [(opened crossed dimension).1, (opened crossed dimension).2, (opened before dimension).2] pool) ∧
    (∀ checkpoints other, checkpoints[dimension]?.getD false = other[dimension]?.getD false →
      opened checkpoints dimension = opened other dimension) ∧
    ∀ checkpoints dimension? channel, Opens ⟨partition, checkpoints⟩ dimension? vnet size channel →
      ∀ (selection : Selection) other? other, other ≠ vnet → ¬ selection.Opens other? other size channel := by
  intro opened pool
  refine ⟨⟨fun checkpoints dimension? told found => eq_spans_of_ranges found, ?_⟩,
    fun checkpoints dimension? => spans_within _ _ _ _, ?_, ?_, ?_, ?_⟩
  · intro room checkpoints dimension?
    simp only [pool, Span.pool_eq] at room
    exact ranges_eq ⟨partition, checkpoints⟩ dimension? room
  · intro checkpoints
    exact spans_none _ vnet size
  · intro crossed before behind ahead
    cases partition with
    | whole => exact ⟨spans_whole crossed dimension vnet size, spans_whole before dimension vnet size⟩
    | halves => exact halves_fill behind ahead enough vnet
    | thirds => exact thirds_fill behind ahead enough vnet
  · intro checkpoints other same
    exact spans_congr same vnet size
  · intro checkpoints dimension? channel mine selection other? other foreign theirs
    exact foreign (Span.eq_of_mem_pool theirs.mem_pool mine.mem_pool)

theorem pool_of_eleven_in_thirds :
    Partition.thirds.leastPool ≤ 11 ∧ ranges ⟨.thirds, [false, true]⟩ (some 1) 2 11 = .ok (⟨22, 25⟩, ⟨25, 28⟩) ∧
      Span.Fill [⟨22, 25⟩, ⟨25, 28⟩, ⟨28, 33⟩] (.pool 2 11) := by
  have enough : Partition.thirds.leastPool ≤ 11 := by decide
  have shared := spans_share_pool enough 2 1
  exact ⟨enough, shared.1.2 (by decide) [false, true] (some 1), (shared.2.2.2.1 [false, true] [] rfl rfl).2⟩

end Selection

end Interconnect
