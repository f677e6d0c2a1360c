import Interconnect.Packet.Route

namespace Interconnect

structure Message where
  origin : Nat
  destination : Nat
  address : Option Nat
  data : List UInt8
  creationCycle : Nat
deriving DecidableEq

structure Packet where
  size : Nat
  route : Route
  message : Nat
  index : Nat
deriving DecidableEq

structure Flit where
  packet : Nat
  index : Nat
  channel : Option Nat
deriving DecidableEq

structure Traffic where
  messages : List Message
  packets : List Packet
  flits : List Flit
deriving DecidableEq

namespace Traffic

def empty : Traffic := ⟨[], [], []⟩

def addMessage (t : Traffic) (message : Message) : Nat × Traffic :=
  (t.messages.length, { t with messages := t.messages ++ [message] })

def addPacket (t : Traffic) (packet : Packet) : Nat × Traffic :=
  (t.packets.length, { t with packets := t.packets ++ [packet] })

def addFlits (t : Traffic) (packet : Nat) : List Nat × Traffic :=
  let size := (t.packets[packet]?.map Packet.size).getD 0
  let flits := (List.range size).map fun index => Flit.mk packet index none
  (List.range' t.flits.length size, { t with flits := t.flits ++ flits })

def packetOf? (t : Traffic) (flit : Nat) : Option Packet := do
  t.packets[(← t.flits[flit]?).packet]?

def message? (t : Traffic) (flit : Nat) : Option Message := do
  t.messages[(← t.packetOf? flit).message]?

def address? (t : Traffic) (flit : Nat) : Option Nat := do
  (← t.message? flit).address

def channel? (t : Traffic) (flit : Nat) : Option Nat := do
  (← t.flits[flit]?).channel

def setChannel (t : Traffic) (flit : Nat) (channel : Option Nat) : Traffic :=
  { t with flits := t.flits.modify flit fun f => { f with channel } }

def setData (t : Traffic) (flit : Nat) (data : List UInt8) : Traffic :=
  match t.packetOf? flit with
  | some packet => { t with messages := t.messages.modify packet.message fun m => { m with data } }
  | none => t

end Traffic

def Flit.isFirst (f : Flit) : Bool := f.index == 0

def Flit.isLast (f : Flit) (packet : Packet) : Bool := f.index + 1 == packet.size

end Interconnect
