import Interconnect.Geometry.Arc

namespace Interconnect

/-- Routers numbered in mixed radix, the first side varying fastest. -/
structure Grid where
  sides : List Nat
deriving DecidableEq

namespace Grid

def size (g : Grid) : Nat := g.sides.foldr (· * ·) 1

def ofSides (sides : List Nat) : Except Breach Grid := do
  let _ ← Word.product sides
  return ⟨sides⟩

def dimensions (g : Grid) : Nat := g.sides.length

def coordinatesOf : List Nat → Nat → List Nat
  | [], _ => []
  | side :: sides, index => index % side :: coordinatesOf sides (index / side)

def indexOf : List Nat → List Nat → Nat
  | side :: sides, c :: cs => c + side * indexOf sides cs
  | _, _ => 0

def coordinates (g : Grid) (index : Nat) : List Nat := coordinatesOf g.sides index

def unpack (g : Grid) (index : Nat) : Except Breach (List Nat) :=
  if 0 ∈ g.sides then .error .divideByZero else .ok (g.coordinates index)

/-- Adds each coordinate to the index as many times as the sides before it have places. Coordinates beyond the last
side count for nothing. -/
def packFrom (index stride : Nat) : List Nat → List Nat → Except Breach Nat
  | [], _ => .ok index
  | _ :: _, [] => .error .indexOutOfBounds
  | side :: sides, c :: cs => do
    let index ← Word.add index (← Word.mul c stride)
    let stride ← Word.mul stride side
    packFrom index stride sides cs

def pack (g : Grid) (coordinates : List Nat) : Except Breach Nat := packFrom 0 1 g.sides coordinates

def side (g : Grid) (dimension : Nat) : Except Breach Nat := orBreach g.sides[dimension]? .indexOutOfBounds

def offset (g : Grid) (dimension source target : Nat) : Except Breach Nat := do
  ringOffset (← g.side dimension) source target

def crossesWraparound (g : Grid) (dimension place : Nat) : Sign → Except Breach Bool
  | .negative => .ok (closesRing 0 place .negative)
  | .positive => do
    let next ← Word.add place 1
    return next == (← g.side dimension)

def neighbour (g : Grid) (router dimension : Nat) (sign : Sign) : Except Breach Nat := do
  let places ← g.unpack router
  let side ← g.side dimension
  let place ← orBreach places[dimension]? .indexOutOfBounds
  return indexOf g.sides (places.set dimension (nextPlace side place sign))

/-- The first dimension in which two places differ, counted from `dimension`, and the shorter way along
it. -/
def firstStep (dimension : Nat) : List Nat → List Nat → List Nat → Except Breach (Option (Nat × Sign))
  | [], _, _ => .ok none
  | side :: sides, c :: current, t :: target => do
    match ← shorterArc (← ringOffset side c t) side with
    | some sign => return some (dimension, sign)
    | none => firstStep (dimension + 1) sides current target
  | _ :: _, _, _ => .error .indexOutOfBounds

def dimensionOrder (g : Grid) (current target : List Nat) : Except Breach (Option (Nat × Sign)) :=
  firstStep 0 g.sides current target

def wraparound? (g : Grid) (router : Nat) : Direction → Option Nat
  | .torus dimension sign => do
    let side ← g.sides[dimension]?
    let place ← (g.coordinates router)[dimension]?
    if closesRing side place sign then some dimension else none
  | _ => none

end Grid

/-- The next hop in a mesh numbered by rows of `columns` routers, all hops in `x` before those in `y`. -/
def meshStep (columns current target : Nat) : Except Breach (Option (Axis × Sign)) :=
  if columns = 0 then .error .divideByZero
  else
    let toward (here there : Nat) : Sign := if here < there then .positive else .negative
    let (x, y) := (current % columns, current / columns)
    let (x', y') := (target % columns, target / columns)
    .ok (if x ≠ x' then some (.x, toward x x') else if y ≠ y' then some (.y, toward y y') else none)

end Interconnect
