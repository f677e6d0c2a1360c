import Interconnect.Failure
import Interconnect.Packet.EndpointSet
import Interconnect.Random

namespace Interconnect

structure RoutingTable where
  rows : List (List EndpointSet)
  weights : List Nat

namespace RoutingTable

def empty : RoutingTable := ⟨[], []⟩

def addTo : List (List EndpointSet) → List EndpointSet → List (List EndpointSet)
  | rows, [] => rows
  | [], e :: entry => [e] :: addTo [] entry
  | row :: rows, e :: entry => (row ++ [e]) :: addTo rows entry

/-- Adds the endpoints that the next port reaches, for as many virtual networks as are given. -/
def addRoute (t : RoutingTable) (entry : List EndpointSet) : RoutingTable :=
  { t with rows := addTo t.rows entry }

def addWeight (t : RoutingTable) (weight : Nat) : RoutingTable := { t with weights := t.weights ++ [weight] }

def size (t : RoutingTable) : Nat := (t.rows.map List.length).foldl max 0

def isEmpty (t : RoutingTable) : Bool := t.size == 0

def row (t : RoutingTable) (vnet : Nat) : List EndpointSet := t.rows[vnet]?.getD []

def reaching (t : RoutingTable) (vnet : Nat) (destination : EndpointSet) : List Nat :=
  ((t.row vnet).zipIdx.filter (·.1.intersects destination)).map Prod.snd

def weigh (t : RoutingTable) (port : Nat) : Except Error (Nat × Nat) := do
  return (port, ← orError t.weights[port]? (.missingWeight port))

/-- The ports of least weight that reach the destination. -/
def candidates (t : RoutingTable) (vnet : Nat) (destination : EndpointSet) : Except Error (List Nat) := do
  let weighed ← (t.reaching vnet destination).mapM t.weigh
  match (weighed.map Prod.snd).min? with
  | none => return []
  | some least => return (weighed.filter (·.2 == least)).map Prod.fst

/-- An ordered network always takes the first candidate, the others draw one. -/
def lookup (t : RoutingTable) (vnet : Nat) (destination : EndpointSet) (ordered : Bool) (random : Random) :
    Except Error Nat × Random :=
  match t.candidates vnet destination with
  | .error e => (.error e, random)
  | .ok [] => (.error (.missingRoute vnet destination.toList), random)
  | .ok (first :: others) =>
    if ordered then (.ok first, random)
    else
      let (chosen, random) := random.below (others.length + 1)
      (.ok ((first :: others)[chosen]?.getD first), random)

end RoutingTable

end Interconnect
