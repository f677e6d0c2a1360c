import Interconnect.Failure

namespace Interconnect

/-- What a router asks to be woken for, addressed to one of its output ports. -/
inductive Event where
  | creditWakeup (port : Nat)
  | linkTraversal (port : Nat)
deriving DecidableEq

def Event.port : Event → Nat
  | creditWakeup port => port
  | linkTraversal port => port

inductive Phase where
  | first
  | second
deriving DecidableEq

structure Request where
  delay : Nat
  phase : Phase
  event : Event
deriving DecidableEq

structure Slot where
  first : List Event
  second : List Event
deriving DecidableEq

namespace Slot

def empty : Slot := ⟨[], []⟩

def push (s : Slot) (event : Event) : Phase → Slot
  | .first => { s with first := s.first ++ [event] }
  | .second => { s with second := s.second ++ [event] }

def events (s : Slot) : Phase → List Event
  | .first => s.first
  | .second => s.second

def isEmpty (s : Slot) : Bool := s.first.isEmpty && s.second.isEmpty

end Slot

structure CalendarQueue where
  slots : List Slot
  current : Nat
  cycle : Nat
deriving DecidableEq

namespace CalendarQueue

def empty (size : Nat) : CalendarQueue := ⟨List.replicate size .empty, 0, 0⟩

def size (q : CalendarQueue) : Nat := q.slots.length

def present (q : CalendarQueue) : Except Breach Slot := orBreach q.slots[q.current]? .indexOutOfBounds

def events (q : CalendarQueue) (phase : Phase) : Except Breach (List Event) :=
  return (← q.present).events phase

def enqueue (q : CalendarQueue) (request : Request) : Except Breach CalendarQueue :=
  if q.size ≤ request.delay then .error .delayTooLong
  else
    let slot := (q.current + request.delay) % q.size
    .ok { q with slots := q.slots.modify slot (·.push request.event request.phase) }

def advance (q : CalendarQueue) : Except Breach CalendarQueue := do
  let _ ← q.present
  return ⟨q.slots.set q.current .empty, (q.current + 1) % q.size, q.cycle + 1⟩

def isEmpty (q : CalendarQueue) : Bool := q.slots.all Slot.isEmpty

end CalendarQueue

end Interconnect
