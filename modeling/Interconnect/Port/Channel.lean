import Interconnect.Failure

namespace Interconnect

inductive ChannelState where
  | idle
  | active
deriving DecidableEq

structure Channel where
  index : Nat
  depth : Nat
  credits : Nat
  credits_le : credits ≤ depth
  state : ChannelState
deriving DecidableEq

namespace Channel

def idle (index depth : Nat) : Channel := ⟨index, depth, depth, Nat.le_refl depth, .idle⟩

def isIdle (c : Channel) : Bool := c.state == .idle

def setState (c : Channel) (state : ChannelState) : Channel := { c with state }

def spend (c : Channel) : Except Breach Channel :=
  if c.credits = 0 then .error (.noCredit c.index)
  else .ok { c with credits := c.credits - 1, credits_le := Nat.le_trans (Nat.sub_le _ 1) c.credits_le }

/-- A credit came back. One that the buffer has no slot for is dropped. -/
def restore (c : Channel) : Channel :=
  if room : c.credits < c.depth then { c with credits := c.credits + 1, credits_le := room } else c

def hasCredit (c : Channel) : Except Breach Bool :=
  match c.state with
  | .idle => .error (.creditOfIdle c.index)
  | .active => .ok (decide (0 < c.credits))

end Channel

end Interconnect
