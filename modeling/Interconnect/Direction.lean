import Interconnect.Number.Decimal

namespace Interconnect

/-- The side of a dimension that a link leads to: `positive` raises the coordinate. -/
inductive Sign where
  | negative
  | positive
deriving DecidableEq

def Sign.opposite : Sign → Sign
  | negative => positive
  | positive => negative

inductive Axis where
  | x
  | y
deriving DecidableEq

def Axis.dimension : Axis → Nat
  | x => 0
  | y => 1

/-- How the labels of the ports are read: `East` is the side of a mesh or the way around a ring. -/
inductive Family where
  | cartesian
  | ring
deriving DecidableEq

inductive Direction where
  | localPort
  | mesh (axis : Axis) (sign : Sign)
  | ring (sign : Sign)
  | torus (dimension : Nat) (sign : Sign)
deriving DecidableEq

namespace Direction

def dimension? : Direction → Option Nat
  | localPort => none
  | mesh axis _ => some axis.dimension
  | ring _ => some 0
  | torus dimension _ => some dimension

def sign? : Direction → Option Sign
  | localPort => none
  | mesh _ sign => some sign
  | ring sign => some sign
  | torus _ sign => some sign

def link? (d : Direction) : Option (Nat × Sign) := do
  return (← d.dimension?, ← d.sign?)

def label : Direction → String
  | localPort => "Local"
  | mesh .x .positive => "East"
  | mesh .x .negative => "West"
  | mesh .y .positive => "North"
  | mesh .y .negative => "South"
  | ring .positive => "East"
  | ring .negative => "West"
  | torus dimension .positive => "dim" ++ toString dimension ++ "_pos"
  | torus dimension .negative => "dim" ++ toString dimension ++ "_neg"

def torusOfLabel? : List Char → Option Direction
  | 'd' :: 'i' :: 'm' :: rest =>
    let index := Decimal.wordOfDigits? (rest.takeWhile (· != '_'))
    match rest.dropWhile (· != '_') with
    | ['_', 'p', 'o', 's'] => index.map (torus · .positive)
    | ['_', 'n', 'e', 'g'] => index.map (torus · .negative)
    | _ => none
  | _ => none

def ofLabel? (family : Family) (label : String) : Option Direction :=
  match family, label with
  | _, "Local" => some localPort
  | .ring, "East" => some (ring .positive)
  | .ring, "West" => some (ring .negative)
  | .ring, _ => none
  | .cartesian, "East" => some (mesh .x .positive)
  | .cartesian, "West" => some (mesh .x .negative)
  | .cartesian, "North" => some (mesh .y .positive)
  | .cartesian, "South" => some (mesh .y .negative)
  | .cartesian, _ => torusOfLabel? label.toList

end Direction

end Interconnect
