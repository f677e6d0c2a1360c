import Interconnect.CalendarQueue
import Interconnect.Packet.Traffic
import Interconnect.Port.Channel
import Interconnect.Port.CreditLink
import Interconnect.Port.Selection

namespace Interconnect

structure PortCounts where
  forwardedFlits : Nat
  receivedCredits : Nat
  freeSignals : Nat
deriving DecidableEq

def PortCounts.zero : PortCounts := ⟨0, 0, 0⟩

structure Port where
  index : Nat
  direction : Direction
  poolSize : Nat
  channels : List Channel
  egress : List Nat
  credits : CreditLink
  counts : PortCounts
deriving DecidableEq

namespace Port

def idle (index : Nat) (direction : Direction) (vnets poolSize depth : Nat) : Port where
  index := index
  direction := direction
  poolSize := poolSize
  channels := (List.range (vnets * poolSize)).map fun channel => Channel.idle channel depth
  egress := []
  credits := .empty
  counts := .zero

def build (index : Nat) (direction : Direction) (vnets poolSize depth : Nat) : Except Breach Port := do
  let _ ← Word.mul vnets poolSize
  return idle index direction vnets poolSize depth

def channel (p : Port) (channel : Nat) : Except Breach Channel :=
  orBreach p.channels[channel]? .indexOutOfBounds

def setChannel (p : Port) (channel : Nat) (c : Channel) : Port :=
  { p with channels := p.channels.set channel c }

def spendCredit (p : Port) (channel : Nat) : Except Breach Port := do
  return p.setChannel channel (← (← p.channel channel).spend)

def restoreCredit (p : Port) (channel : Nat) : Except Breach Port := do
  return p.setChannel channel (← p.channel channel).restore

def setState (p : Port) (channel : Nat) (state : ChannelState) : Except Breach Port := do
  return p.setChannel channel ((← p.channel channel).setState state)

def hasCredit (p : Port) (channel : Nat) : Except Breach Bool := do
  (← p.channel channel).hasCredit

def isIdle (p : Port) (channel : Nat) : Except Breach Bool := return (← p.channel channel).isIdle

/-- The idle channels among those open to a packet, in increasing order. A pool lies within the port or beyond
its last channel; beyond it, only a selection that opens no channel is in bounds. -/
def free (p : Port) (vnet : Nat) (selection : Selection) : Except Breach (List Nat) := do
  let (first, second) ← selection.ranges p.direction.dimension? vnet p.poolSize
  if first.fits p.channels.length && second.fits p.channels.length then
    let idle := p.channels.zipIdx.filter fun (c, channel) =>
      c.isIdle && decide (channel ∈ first ∨ channel ∈ second)
    .ok (idle.map Prod.snd)
  else .error .indexOutOfBounds

def selectFree (p : Port) (vnet : Nat) (selection : Selection) : Except Breach (Option Nat × Port) := do
  match ← p.free vnet selection with
  | [] => return (none, p)
  | channel :: _ => return (some channel, ← p.setState channel .active)

def countFree (p : Port) (vnet : Nat) (selection : Selection) : Except Breach Nat :=
  return (← p.free vnet selection).length

def hasFree (p : Port) (vnet : Nat) (selection : Selection) : Except Breach Bool :=
  return !(← p.free vnet selection).isEmpty

def countCredit (p : Port) : Port :=
  { p with counts := { p.counts with receivedCredits := p.counts.receivedCredits + 1 } }

def countFreeSignal (p : Port) : Port :=
  { p with counts := { p.counts with freeSignals := p.counts.freeSignals + 1 } }

/-- Applies a credit of the next router. One that frees its channel makes it idle whatever its count. -/
def applyCredit (p : Port) (credit : Credit) : Except Breach Port := do
  let restored ← p.countCredit.restoreCredit credit.channel
  if credit.frees then restored.countFreeSignal.setState credit.channel .idle else return restored

def wakeupAfter (p : Port) (delay : Nat) : Request := ⟨delay, .first, .creditWakeup p.index⟩

def deliverCredit (p : Port) (credit : Credit) (cycle delay : Nat) : Request × Port :=
  (p.wakeupAfter delay, { p with credits := p.credits.send credit (cycle + delay) })

/-- Takes one credit that has arrived, and asks to be woken in the next cycle if another has. -/
def wakeup (p : Port) (cycle : Nat) : Except Breach (List Request × Port) := do
  match p.credits.consume cycle with
  | (none, _) => return ([], p)
  | (some credit, credits) =>
    let taken : Port := { p with credits }
    let requests := if credits.isReady cycle then [p.wakeupAfter 1] else []
    return (requests, ← taken.applyCredit credit)

def pushFlit (p : Port) (flit : Nat) : Request × Port :=
  let counts := { p.counts with forwardedFlits := p.counts.forwardedFlits + 1 }
  (⟨1, .second, .linkTraversal p.index⟩, { p with egress := p.egress ++ [flit], counts })

def front? (p : Port) : Option Nat := p.egress.head?

def popFlit (p : Port) : Option Nat × Port :=
  match p.egress with
  | [] => (none, p)
  | flit :: rest => (some flit, { p with egress := rest })

/-- Sends a flit: it spends a credit of its channel, if it has one, and waits for the link. -/
def sendFlit (p : Port) (traffic : Traffic) (flit : Nat) : Except Breach (Request × Port) :=
  match traffic.channel? flit with
  | none => return p.pushFlit flit
  | some channel => return (← p.spendCredit channel).pushFlit flit

def functionalRead (p : Port) (traffic : Traffic) (address : Nat) : Option (List UInt8) := do
  let flit ← p.egress.find? fun flit => traffic.address? flit == some address
  return (← traffic.message? flit).data

def functionalWrite (p : Port) (traffic : Traffic) (address : Nat) (data : List UInt8) : Nat × Traffic :=
  let hits := p.egress.filter fun flit => traffic.address? flit == some address
  (hits.length, hits.foldl (fun traffic flit => traffic.setData flit data) traffic)

def resetCounts (p : Port) : Port := { p with counts := .zero }

end Port

end Interconnect
