import Interconnect.Direction
import Interconnect.Packet.EndpointSet

namespace Interconnect

structure Route where
  router : Nat
  destination : EndpointSet
  vnet : Nat
  /-- The way to go in each dimension of a torus, none where there is nothing to go; fixed at the first
  hop. -/
  directions : Option (List (Option Sign))
  checkpoints : List Bool
  minimal : Bool
  hops : Nat
deriving DecidableEq

namespace Route

def toward (router : Nat) (destination : EndpointSet) (vnet : Nat) : Route :=
  ⟨router, destination, vnet, none, [], false, 0⟩

def checkpoint (r : Route) (dimension : Nat) : Bool := r.checkpoints[dimension]?.getD false

def setCheckpoint (r : Route) (dimension : Nat) : Route :=
  let padding := List.replicate (dimension + 1 - r.checkpoints.length) false
  { r with checkpoints := (r.checkpoints ++ padding).set dimension true }

def direction? (r : Route) (dimension : Nat) : Option Sign := do
  (← (← r.directions)[dimension]?)

end Route

end Interconnect
