import Interconnect.Number.Word

namespace Interconnect

inductive Partition where
  | whole
  /-- The lower half after the crossing, the upper half before it. -/
  | halves
  /-- The first third always, and the second after the crossing or the last before it. -/
  | thirds
deriving DecidableEq

def Partition.leastPool : Partition → Nat
  | whole => 1
  | halves => 2
  | thirds => 3

structure Selection where
  partition : Partition
  checkpoints : List Bool

/-- The channels from `start` up to `stop`, without the latter. -/
structure Span where
  start : Nat
  stop : Nat
deriving DecidableEq

namespace Span

def empty : Span := ⟨0, 0⟩

instance : Membership Nat Span := ⟨fun s channel => s.start ≤ channel ∧ channel < s.stop⟩

instance (channel : Nat) (s : Span) : Decidable (channel ∈ s) :=
  inferInstanceAs (Decidable (s.start ≤ channel ∧ channel < s.stop))

def fits (s : Span) (count : Nat) : Bool := decide (s.stop ≤ s.start ∨ s.stop ≤ count)

end Span

namespace Selection

def any : Selection := ⟨.whole, []⟩

def checkpoint (s : Selection) (dimension : Nat) : Bool := s.checkpoints[dimension]?.getD false

/-- The channels open to a packet of `vnet` with pools of `size`, at a port that faces `dimension?`. A port
without a dimension opens the whole pool. -/
def ranges (s : Selection) (dimension? : Option Nat) (vnet size : Nat) : Except Breach (Span × Span) := do
  let base ← Word.mul vnet size
  match dimension?, s.partition with
  | none, _ => return (⟨base, ← Word.add base size⟩, .empty)
  | some _, .whole => return (⟨base, ← Word.add base size⟩, .empty)
  | some dimension, .halves =>
    let middle ← Word.add base (size / 2)
    if s.checkpoint dimension then return (⟨base, middle⟩, .empty)
    else return (⟨middle, ← Word.add base size⟩, .empty)
  | some dimension, .thirds =>
    let third := size / 3
    let first : Span := ⟨base, ← Word.add base third⟩
    let last ← Word.add base (← Word.mul 2 third)
    if s.checkpoint dimension then return (first, ⟨first.stop, last⟩)
    else return (first, ⟨last, ← Word.add base size⟩)

end Selection

end Interconnect
