import Interconnect.DirectionMap
import Interconnect.Port.Basic
import Interconnect.Routing.Algorithm
import Interconnect.Routing.Table

namespace Interconnect

/-- What an algorithm may look at in the router that asks. -/
structure Surroundings where
  router : Nat
  table : RoutingTable
  ordered : Bool
  inport : Nat
  entered : Direction
  outports : DirectionMap
  ports : List Port

structure Decision where
  outport : Nat
  /-- How many ports were compared; with more than one the load decided. -/
  compared : Nat
deriving DecidableEq

structure Outcome where
  decision : Except Failure Decision
  route : Route
  random : Random

def Surroundings.outport (s : Surroundings) (direction : Direction) : Except Error Nat :=
  orError (s.outports.index? direction) (.missingDirection direction)

abbrev Drawing := ExceptT Breach (StateM Random)

namespace DirectionRule

def sign (rule : DirectionRule) (offset side : Nat) : Drawing Sign :=
  match rule with
  | shortest => do
    let doubled ← Word.mul 2 offset
    return if doubled < side then .positive else .negative
  | drawn => do
    let ahead ← modifyGet (Random.chance (aheadChance offset side))
    return if ahead then .positive else .negative

/-- Fixes the way to go along each side from one coordinate to another, none where there is nothing to go, and tells
whether all these ways are shortest. -/
def signs (rule : DirectionRule) : List (Nat × Nat × Nat) → Drawing (List (Option Sign) × Bool)
  | [] => return ([], true)
  | (side, c, t) :: others => do
    let offset ← ringOffset side c t
    match ← shorterArc offset side with
    | none =>
      let (signs, minimal) ← rule.signs others
      return (none :: signs, minimal)
    | some _ =>
      let sign ← rule.sign offset side
      let short ← isShortest offset side sign
      let (signs, minimal) ← rule.signs others
      return (some sign :: signs, short && minimal)

end DirectionRule

def Grid.arcs (g : Grid) (source target : Nat) : List (Nat × Nat × Nat) :=
  g.sides.zip ((g.coordinates source).zip (g.coordinates target))

/-- Fixes the directions of a route that has none yet. -/
def Route.fixDirections (r : Route) (torus : Grid) (rule : DirectionRule) (router : Nat) : Drawing Route := do
  if r.directions.isSome then return r
  let (signs, minimal) ← rule.signs (torus.arcs router r.router)
  return { r with directions := some signs, minimal }

namespace Algorithm

def decideMesh (columns : Nat) (s : Surroundings) (r : Route) : Except Failure Decision := do
  let some (axis, sign) ← (meshStep columns s.router r.router).mapError .breach
    | throw (.breach (.routedToItself "XY" s.router))
  let going : Direction := .mesh axis sign
  let allowed := match axis with
    | .x => s.entered == .localPort || s.entered == .mesh .x sign.opposite
    | .y => s.entered != .mesh .y sign
  if !allowed then throw (.breach (.turnedBack s.router going s.entered s.inport))
  return ⟨← (s.outport going).mapError .error, 1⟩

def decideRing (size : Nat) (s : Surroundings) (r : Route) : Except Failure Decision := do
  let some sign ← (ringSign size s.router r.router).mapError .breach
    | throw (.breach (.routedToItself "Ring" s.router))
  return ⟨← (s.outport (.ring sign)).mapError .error, 1⟩

def decideDimensionOrder (torus : Grid) (s : Surroundings) (r : Route) : Except Failure Decision := do
  let step := torus.dimensionOrder (torus.coordinates s.router) (torus.coordinates r.router)
  let some (dimension, sign) ← step.mapError .breach
    | throw (.breach (.routedToItself "DOR" s.router))
  return ⟨← (s.outport (.torus dimension sign)).mapError .error, 1⟩

def unresolved (torus : Grid) (s : Surroundings) (r : Route) : List Nat :=
  (((torus.coordinates s.router).zip (torus.coordinates r.router)).zipIdx.filter
    fun (places, _) => places.1 != places.2).map Prod.snd

def candidate (s : Surroundings) (r : Route) (dimension : Nat) : Except Error Nat := do
  let sign ← orError (r.direction? dimension) (.undirectedOffset dimension s.router r.router)
  s.outport (.torus dimension sign)

def poll (s : Surroundings) (r : Route) (selection : Selection) (outport : Nat) :
    Except Failure (Nat × Nat) := do
  let port ← (orError s.ports[outport]? (.noOutputPort outport)).mapError .error
  return (outport, ← (port.countFree r.vnet selection).mapError .breach)

def leastLoaded? : List (Nat × Nat) → Option Nat
  | [] => none
  | first :: others => some (others.foldl (fun best p => if best.2 < p.2 then p else best) first).1

def decideAdaptive (torus : Grid) (s : Surroundings) (r : Route) : Except Failure Decision := do
  let candidates ← ((unresolved torus s r).mapM (candidate s r)).mapError .error
  let loads ← candidates.mapM (poll s r ⟨.thirds, r.checkpoints⟩)
  match leastLoaded? loads with
  | some outport => return ⟨outport, candidates.length⟩
  | none => throw (.breach (.routedToItself "adaptive torus" s.router))

def next (a : Algorithm) (s : Surroundings) (r : Route) (random : Random) : Outcome :=
  match a with
  | table =>
    let (found, random) := s.table.lookup r.vnet r.destination s.ordered random
    ⟨(found.map (⟨·, 1⟩)).mapError .error, r, random⟩
  | mesh columns _ => ⟨decideMesh columns s r, r, random⟩
  | ring size => ⟨decideRing size s r, r, random⟩
  | dimensionOrder torus => ⟨decideDimensionOrder torus s r, r, random⟩
  | adaptive torus rule =>
    match (r.fixDirections torus rule s.router).run.run random with
    | (.ok r, random) => ⟨decideAdaptive torus s r, r, random⟩
    | (.error b, random) => ⟨.error (.breach b), r, random⟩

end Algorithm

end Interconnect
