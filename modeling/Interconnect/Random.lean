import Interconnect.Number.Binary64

namespace Interconnect

structure Random where
  words : List UInt64
  drawn : Nat

namespace Random

def ofWords (words : List UInt64) : Random := ⟨words, 0⟩

def next : Random → UInt64 × Random
  | ⟨[], drawn⟩ => (0, ⟨[], drawn + 1⟩)
  | ⟨w :: words, drawn⟩ => (w, ⟨words, drawn + 1⟩)

def zone (n : Nat) : Nat := (n <<< (63 - n.log2)) - 1

def accepts (n : Nat) (w : UInt64) : Bool := decide (w.toNat * n % UInt64.size ≤ zone n)

def pick (n : Nat) (w : UInt64) : Nat := w.toNat * n / UInt64.size

def belowFrom (n : Nat) : List UInt64 → Nat → Nat × Random
  | [], drawn => (0, ⟨[], drawn + 1⟩)
  | w :: words, drawn =>
    if accepts n w then (pick n w, ⟨words, drawn + 1⟩) else belowFrom n words (drawn + 1)

/-- A number below `n`: the high half of a word times `n`, for the first word whose low half is accepted. -/
def below (n : Nat) (r : Random) : Nat × Random := belowFrom n r.words r.drawn

def threshold (p : Binary64) : Nat := p.units * UInt64.size / Binary64.unitsPerOne

def chance (p : Binary64) (r : Random) : Bool × Random :=
  if p = Binary64.one then (true, r)
  else
    let (w, rest) := r.next
    (decide (w.toNat < threshold p), rest)

end Random

end Interconnect
