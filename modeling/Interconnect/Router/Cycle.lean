import Interconnect.Router.Basic

namespace Interconnect

structure ScheduledRouter where
  router : Router
  queue : CalendarQueue

structure Wakeup where
  event : Event
  requests : List Request

structure Departure where
  event : Event
  requests : List Request
  flit : Option Nat

structure CycleReport where
  wakeups : List Wakeup
  departures : List Departure

namespace ScheduledRouter

def schedule (s : ScheduledRouter) (request : Request) : Except Breach ScheduledRouter := do
  return { s with queue := ← s.queue.enqueue request }

def sendFlit (s : ScheduledRouter) (outport : Nat) (traffic : Traffic) (flit : Nat) :
    Except Breach (Request × ScheduledRouter) := do
  let (request, router) ← s.router.sendFlit outport traffic flit
  return (request, ← { s with router }.schedule request)

def deliverCredit (s : ScheduledRouter) (outport : Nat) (credit : Credit) (delay : Nat) :
    Except Breach (Request × ScheduledRouter) := do
  let (request, router) ← s.router.deliverCredit outport credit s.queue.cycle delay
  return (request, ← { s with router }.schedule request)

def wake (s : ScheduledRouter) (event : Event) : Except Breach (Wakeup × ScheduledRouter) := do
  let (requests, router) ← s.router.process event s.queue.cycle
  let woken ← requests.foldlM schedule { s with router }
  return (⟨event, requests⟩, woken)

def depart (s : ScheduledRouter) (event : Event) : Except Breach (Departure × ScheduledRouter) := do
  let (requests, router) ← s.router.process event s.queue.cycle
  let (flit, port) := (← router.port event.port).popFlit
  return (⟨event, requests, flit⟩, { s with router := router.setPort event.port port })

def wakeAll : List Event → ScheduledRouter → Except Breach (List Wakeup × ScheduledRouter)
  | [], s => .ok ([], s)
  | event :: events, s => do
    let (wakeup, s) ← s.wake event
    let (wakeups, s) ← wakeAll events s
    return (wakeup :: wakeups, s)

def departAll : List Event → ScheduledRouter → Except Breach (List Departure × ScheduledRouter)
  | [], s => .ok ([], s)
  | event :: events, s => do
    let (departure, s) ← s.depart event
    let (departures, s) ← departAll events s
    return (departure :: departures, s)

/-- Runs the present cycle and goes on to the next. A wakeup asks for nothing in the present cycle, so the
events of its first phase are all there from the start. -/
def cycle (s : ScheduledRouter) : Except Breach (CycleReport × ScheduledRouter) := do
  let (wakeups, s) ← wakeAll (← s.queue.events .first) s
  let (departures, s) ← departAll (← s.queue.events .second) s
  return (⟨wakeups, departures⟩, { s with queue := ← s.queue.advance })

end ScheduledRouter

end Interconnect
