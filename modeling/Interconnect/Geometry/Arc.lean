import Interconnect.Number.Word

namespace Interconnect

/-- How far `target` lies ahead of `source` in a ring of `side` places. -/
def ringOffset (side source target : Nat) : Except Breach Nat := do
  let beyond ← Word.add target side
  let ahead ← Word.sub beyond source
  Word.rem ahead side

/-- The shorter way to a place `offset` ahead, `positive` if both are equal. -/
def shorterArc (offset side : Nat) : Except Breach (Option Sign) := do
  if offset = 0 then return none
  let doubled ← Word.mul 2 offset
  return some (if doubled ≤ side then .positive else .negative)

def isShortest (offset side : Nat) (sign : Sign) : Except Breach Bool := do
  let doubled ← Word.mul 2 offset
  match sign with
  | .positive => return decide (doubled ≤ side)
  | .negative => return decide (side ≤ doubled)

/-- The chance of going ahead: the share of the ring that lies beyond the offset. -/
def aheadChance (offset side : Nat) : Binary64 :=
  Binary64.one.sub ((Binary64.ofNat offset).div (Binary64.ofNat side))

def nextPlace (side place : Nat) : Sign → Nat
  | .positive => (place + 1) % side
  | .negative => (place + side - 1) % side

def closesRing (side place : Nat) : Sign → Bool
  | .negative => place == 0
  | .positive => place + 1 == side

/-- The way around a ring of routers, `negative` from the rounded half of its size on. -/
def ringSign (size current target : Nat) : Except Breach (Option Sign) := do
  let hops ← ringOffset size current target
  return if hops = 0 then none else if size / 2 ≤ hops then some .negative else some .positive

end Interconnect
