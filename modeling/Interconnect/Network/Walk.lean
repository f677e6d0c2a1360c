import Interconnect.Router.Statistics

namespace Interconnect

open Config (Value)

structure Network where
  grid : Grid
  routers : List Router

structure Hop where
  router : Nat
  inport : Nat
  outport : Nat
  free : Nat
  channel : Option Nat
  draws : Nat

inductive Ending where
  | delivered
  | lost
  | failed (failure : Failure)

structure Walk where
  hops : List Hop
  ending : Ending
  route : Route

structure Journey where
  network : Network
  random : Random

namespace Network

def place (v : Value) (index : Nat) : Except Failure Router := do
  let router ← Router.ofValue index v
  let entry := List.replicate router.vnets (EndpointSet.single index)
  return { router with unit := (router.unit.addRoute entry).addWeight 1 }

def fill (v : Value) : Nat → Array Router → Except Failure (Array Router)
  | 0, routers => .ok routers
  | left + 1, routers => do fill v left (routers.push (← place v routers.size))

def ofValue (sides : List Nat) (v : Value) : Except Failure Network := do
  let grid ← Grid.ofSides sides
  return ⟨grid, (← fill v grid.size #[]).toList⟩

def router (n : Network) (index : Nat) : Except Breach Router := orBreach n.routers[index]? .indexOutOfBounds

def setRouter (n : Network) (index : Nat) (router : Router) : Network :=
  { n with routers := n.routers.set index router }

end Network

/-- What becomes of a packet at a router. -/
inductive Stage where
  | stopped (walk : Walk)
  | onward (hop : Hop) (router inport : Nat) (route : Route)

namespace Journey

def leave (j : Journey) (index inport outport draws : Nat) (router : Router) (route : Route) :
    Stage × Journey :=
  match router.pass outport route with
  | .error b => (.stopped ⟨[], .failed (.breach b), route⟩, j)
  | .ok (passage, router) =>
    let hop : Hop := ⟨index, inport, outport, passage.free, passage.channel, draws⟩
    let j := { j with network := j.network.setRouter index router }
    let route := router.nextHop route outport
    match passage.direction.link? with
    | none => (.stopped ⟨[hop], .delivered, route⟩, j)
    | some (dimension, sign) =>
      let arrival := do
        let next ← j.network.grid.neighbour index dimension sign
        return (next, (← j.network.router next).inportFacing dimension sign.opposite)
      match arrival with
      | .error b => (.stopped ⟨[hop], .failed (.breach b), route⟩, j)
      | .ok (next, inport) => (.onward hop next inport route, j)

def step (j : Journey) (index inport : Nat) (route : Route) : Stage × Journey :=
  match j.network.router index with
  | .error b => (.stopped ⟨[], .failed (.breach b), route⟩, j)
  | .ok router =>
    let (computed, router) := router.compute route inport j.random
    let draws := computed.random.drawn - j.random.drawn
    let j : Journey := ⟨j.network.setRouter index router, computed.random⟩
    match computed.outport with
    | .error f => (.stopped ⟨[], .failed f, computed.route⟩, j)
    | .ok outport => j.leave index inport outport draws router computed.route

/-- Walks on from a router for at most as many hops as `bound`. -/
def walkFrom : Nat → Nat → Nat → Route → Journey → Walk × Journey
  | 0, _, _, route, j => (⟨[], .lost, route⟩, j)
  | bound + 1, index, inport, route, j =>
    match j.step index inport route with
    | (.stopped walk, j) => (walk, j)
    | (.onward hop next inport route, j) =>
      let (walk, j) := walkFrom bound next inport route j
      ({ walk with hops := hop :: walk.hops }, j)

def hopLimit : Nat := 64

def walk (j : Journey) (source target vnet : Nat) : Walk × Journey :=
  walkFrom hopLimit source 0 (.toward target (.single target) vnet) j

def walkAll : List (Nat × Nat × Nat) → Journey → List Walk × Journey
  | [], j => ([], j)
  | (source, target, vnet) :: packets, j =>
    let (walk, j) := j.walk source target vnet
    let (walks, j) := walkAll packets j
    (walk :: walks, j)

end Journey

def Network.statistics (n : Network) (cycle : Nat) : Except Error (Option Value) :=
  n.routers.foldlM (fun previous router => return some (← router.statistics previous cycle)) none

end Interconnect
