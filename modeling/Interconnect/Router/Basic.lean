import Interconnect.Router.Settings
import Interconnect.Routing.Unit

namespace Interconnect

open Config (Value)

structure Router where
  vnets : Nat
  unit : RoutingUnit
  ports : List Port
  countedFrom : Nat

namespace Router

def index (r : Router) : Nat := r.unit.router

/-- Checks the place of a router in its network, and that its pools fill the parts that the routing splits
them into. -/
def checkFit (v : Value) (index poolSize : Nat) (algorithm : Algorithm) : Except Failure Unit := do
  if let some size ← algorithm.routerCount? then
    if size ≤ index then throw (.error (.illFormed v (.routerOutside index size)))
  let least := algorithm.partition.leastPool
  if poolSize < least then throw (.error (.illFormed v (.tooFewChannels least poolSize)))

def entryOf (v : Value) : Except Error (List EndpointSet) := do
  (← v.toItems).mapM fun endpoints => return EndpointSet.ofList (← endpoints.toWords)

def fillTable (v : Value) (settings : Settings) (ports : Nat) (unit : RoutingUnit) :
    Except Error RoutingUnit := do
  let some routes := settings.routes | return unit
  if routes.length ≠ ports then throw (.illFormed (.array routes) (.routeCount routes.length ports))
  let weights := settings.weights.getD (List.replicate ports 1)
  if weights.length ≠ ports then throw (.illFormed v (.weightCount weights.length ports))
  (routes.zip weights).foldlM (fun unit (entry, weight) =>
    return (unit.addRoute (← entryOf entry)).addWeight weight) unit

def directionsOf (family : Family) (labels : List String) : Except Error (List Direction) :=
  labels.mapM (Direction.ofLabel family)

def portOf (family : Family) (vnets poolSize depth : Nat) (label : String) (index : Nat) : Except Failure Port := do
  let direction ← Direction.ofLabel family label
  Port.build index direction vnets poolSize depth

/-- The router that a configuration object describes. -/
def ofValue (index : Nat) (v : Value) : Except Failure Router := do
  let settings ← Settings.ofValue v
  let vnets ← orError settings.vnets (.missingField "virtual_networks")
  let poolSize ← orError settings.poolSize (.missingField "virtual_channels_per_vnet")
  let depth ← orError settings.bufferDepth (.missingField "buffer_depth")
  let routing ← orError settings.routing (.missingField "routing")
  let labels ← orError settings.ports (.missingField "ports")
  let algorithm ← Algorithm.ofValue routing settings.geometry
  checkFit v index poolSize algorithm
  let ports ← labels.zipIdx.mapM fun (label, i) => portOf algorithm.family vnets poolSize depth label i
  let inports ← directionsOf algorithm.family (settings.inports.getD labels)
  let unit := ports.foldl (fun unit port => unit.addOutport port.direction port.index)
    (.empty index algorithm settings.orderedVnets)
  let unit := inports.zipIdx.foldl (fun unit (direction, i) => unit.addInport direction i) unit
  return ⟨vnets, ← fillTable v settings labels.length unit, ports, 0⟩

def port (r : Router) (outport : Nat) : Except Breach Port := orBreach r.ports[outport]? .indexOutOfBounds

def setPort (r : Router) (outport : Nat) (p : Port) : Router := { r with ports := r.ports.set outport p }

def inportFacing (r : Router) (dimension : Nat) (sign : Sign) : Nat :=
  let faces (inport : Nat) : Bool :=
    (r.unit.inports.direction? inport).any fun d => d.link? == some (dimension, sign)
  ((List.range r.ports.length).find? faces).getD 0

def compute (r : Router) (route : Route) (inport : Nat) (random : Random) : Computed × Router :=
  match r.unit.inports.direction? inport with
  | none => (⟨.error (.error (.noInputPort r.index inport)), route, random⟩, r)
  | some entered =>
    let (computed, unit) := r.unit.compute route inport entered r.ports random
    (computed, { r with unit })

def nextHop (r : Router) (route : Route) (outport : Nat) : Route := r.unit.nextHop route outport

def selectFree (r : Router) (outport : Nat) (route : Route) : Except Breach (Option Nat × Router) := do
  let (channel, port) ← (← r.port outport).selectFree route.vnet (r.unit.selection route)
  return (channel, r.setPort outport port)

def countFree (r : Router) (outport : Nat) (route : Route) : Except Breach Nat := do
  (← r.port outport).countFree route.vnet (r.unit.selection route)

def hasFree (r : Router) (outport : Nat) (route : Route) : Except Breach Bool := do
  (← r.port outport).hasFree route.vnet (r.unit.selection route)

structure Passage where
  free : Nat
  channel : Option Nat
  direction : Direction

def pass (r : Router) (outport : Nat) (route : Route) : Except Breach (Passage × Router) := do
  let port ← r.port outport
  let free ← r.countFree outport route
  let (channel, r) ← r.selectFree outport route
  return (⟨free, channel, port.direction⟩, r)

def sendFlit (r : Router) (outport : Nat) (traffic : Traffic) (flit : Nat) :
    Except Breach (Request × Router) := do
  let (request, port) ← (← r.port outport).sendFlit traffic flit
  return (request, r.setPort outport port)

def deliverCredit (r : Router) (outport : Nat) (credit : Credit) (cycle delay : Nat) :
    Except Breach (Request × Router) := do
  let (request, port) := (← r.port outport).deliverCredit credit cycle delay
  return (request, r.setPort outport port)

/-- Answers an event that the router asked for. Flits are taken by the link itself. -/
def process (r : Router) (event : Event) (cycle : Nat) : Except Breach (List Request × Router) := do
  match event with
  | .linkTraversal _ => return ([], r)
  | .creditWakeup outport =>
    let (requests, port) ← (← r.port outport).wakeup cycle
    return (requests, r.setPort outport port)

def reset (r : Router) (cycle : Nat) : Router :=
  { r with countedFrom := cycle, unit := r.unit.resetCounts, ports := r.ports.map Port.resetCounts }

end Router

end Interconnect
