import Interconnect.Routing.Decision

namespace Interconnect

structure RoutingCounts where
  routed : Nat
  delivered : Nat
  adaptive : Nat
  /-- Those whose directions were fixed here, with a port found, and lead a longer way. -/
  nonMinimal : Nat
deriving DecidableEq

def RoutingCounts.zero : RoutingCounts := ⟨0, 0, 0, 0⟩

structure RoutingUnit where
  router : Nat
  algorithm : Algorithm
  table : RoutingTable
  /-- Whether each virtual network needs its packets in order; one that is not listed does not. -/
  orderedVnets : List Bool
  inports : DirectionMap
  outports : DirectionMap
  counts : RoutingCounts

structure Computed where
  outport : Except Failure Nat
  route : Route
  random : Random

namespace RoutingUnit

def empty (router : Nat) (algorithm : Algorithm) (orderedVnets : List Bool) : RoutingUnit :=
  ⟨router, algorithm, .empty, orderedVnets, .empty, .empty, .zero⟩

def addRoute (u : RoutingUnit) (entry : List EndpointSet) : RoutingUnit :=
  { u with table := u.table.addRoute entry }

def addWeight (u : RoutingUnit) (weight : Nat) : RoutingUnit := { u with table := u.table.addWeight weight }

def addInport (u : RoutingUnit) (direction : Direction) (inport : Nat) : RoutingUnit :=
  { u with inports := u.inports.insert direction inport }

def addOutport (u : RoutingUnit) (direction : Direction) (outport : Nat) : RoutingUnit :=
  { u with outports := u.outports.insert direction outport }

def isOrdered (u : RoutingUnit) (vnet : Nat) : Bool := u.orderedVnets[vnet]?.getD false

def selection (u : RoutingUnit) (route : Route) : Selection := ⟨u.algorithm.partition, route.checkpoints⟩

def countRouted (u : RoutingUnit) : RoutingUnit :=
  { u with counts := { u.counts with routed := u.counts.routed + 1 } }

def countDelivered (u : RoutingUnit) : RoutingUnit :=
  { u with counts := { u.counts with delivered := u.counts.delivered + 1 } }

def countOutcome (u : RoutingUnit) (before : Route) (outcome : Outcome) : RoutingUnit :=
  match outcome.decision with
  | .error _ => u
  | .ok decision =>
    let byLoad := decide (1 < decision.compared)
    let detour := before.directions.isNone && outcome.route.directions.isSome && !outcome.route.minimal
    let adaptive := u.counts.adaptive + byLoad.toNat
    let nonMinimal := u.counts.nonMinimal + detour.toNat
    { u with counts := { u.counts with adaptive, nonMinimal } }

/-- The port that a packet must take which came in by `inport`. -/
def compute (u : RoutingUnit) (route : Route) (inport : Nat) (entered : Direction) (ports : List Port)
    (random : Random) : Computed × RoutingUnit :=
  let u := u.countRouted
  if route.router = u.router then
    let u := u.countDelivered
    let (found, random) := u.table.lookup route.vnet route.destination (u.isOrdered route.vnet) random
    (⟨found.mapError .error, route, random⟩, u)
  else
    let surroundings : Surroundings :=
      ⟨u.router, u.table, u.isOrdered route.vnet, inport, entered, u.outports, ports⟩
    let outcome := u.algorithm.next surroundings route random
    (⟨outcome.decision.map Decision.outport, outcome.route, outcome.random⟩, u.countOutcome route outcome)

/-- The route that a packet carries on to the router beyond `outport`. -/
def nextHop (u : RoutingUnit) (route : Route) (outport : Nat) : Route :=
  match u.outports.direction? outport with
  | none => route
  | some direction =>
    let moved := if direction = .localPort then route else { route with hops := route.hops + 1 }
    match u.algorithm.wraparound? u.router direction with
    | some dimension => moved.setCheckpoint dimension
    | none => moved

def resetCounts (u : RoutingUnit) : RoutingUnit := { u with counts := .zero }

end RoutingUnit

end Interconnect
