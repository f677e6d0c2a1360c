namespace Interconnect

/-- A slot of the channel was freed; with `frees` the packet has left the channel altogether. -/
structure Credit where
  channel : Nat
  frees : Bool
deriving DecidableEq

structure CreditLink where
  /-- The credits under way, each with the cycle it arrives. -/
  pending : List (Nat × Credit)
deriving DecidableEq

namespace CreditLink

def empty : CreditLink := ⟨[]⟩

def insertInto (arrival : Nat) (credit : Credit) : List (Nat × Credit) → List (Nat × Credit)
  | [] => [(arrival, credit)]
  | p :: ps => if arrival < p.1 then (arrival, credit) :: p :: ps else p :: insertInto arrival credit ps

def send (l : CreditLink) (credit : Credit) (arrival : Nat) : CreditLink :=
  ⟨insertInto arrival credit l.pending⟩

def isReady (l : CreditLink) (cycle : Nat) : Bool := l.pending.head?.any fun p => decide (p.1 ≤ cycle)

def consume (l : CreditLink) (cycle : Nat) : Option Credit × CreditLink :=
  match l.pending with
  | [] => (none, l)
  | (arrival, credit) :: rest => if arrival ≤ cycle then (some credit, ⟨rest⟩) else (none, l)

def size (l : CreditLink) : Nat := l.pending.length

def isEmpty (l : CreditLink) : Bool := l.pending.isEmpty

end CreditLink

end Interconnect
