import Interconnect.Config.Object
import Interconnect.Geometry.Grid
import Interconnect.Port.Selection

namespace Interconnect

open Config (Value)

/-- How an adaptive routing fixes the way to go in each dimension. -/
inductive DirectionRule where
  /-- Ahead with a chance that falls with the distance ahead. -/
  | drawn
  /-- The shorter way, backward if both are equal. -/
  | shortest
deriving DecidableEq

inductive Algorithm where
  /-- The routing table for every packet. -/
  | table
  /-- Router `i` of a mesh stands at column `i % columns` of row `i / columns`. -/
  | mesh (columns : Nat) (rows : Option Nat)
  | ring (size : Nat)
  /-- In a torus, the first dimension with an offset by its shorter way. -/
  | dimensionOrder (torus : Grid)
  /-- In a torus, the least loaded port among the dimensions with an offset, each in its fixed direction. -/
  | adaptive (torus : Grid) (rule : DirectionRule)
deriving DecidableEq

structure Geometry where
  torusExtents : Option (List Nat)
  meshColumns : Option Nat
  meshRows : Option Nat
  ringSize : Option Nat
deriving DecidableEq

def Geometry.unknown : Geometry := ⟨none, none, none, none⟩

namespace Algorithm

def partition : Algorithm → Partition
  | table => .whole
  | mesh _ _ => .whole
  | ring _ => .halves
  | dimensionOrder _ => .halves
  | adaptive _ _ => .thirds

def family : Algorithm → Family
  | ring _ => .ring
  | _ => .cartesian

def routerCount? : Algorithm → Except Breach (Option Nat)
  | table => return none
  | mesh columns rows => rows.mapM fun rows => Word.mul rows columns
  | ring size => return some size
  | dimensionOrder torus => return some torus.size
  | adaptive torus _ => return some torus.size

def wraparound? (a : Algorithm) (router : Nat) (direction : Direction) : Option Nat :=
  match a, direction with
  | ring size, .ring sign => if closesRing size router sign then some 0 else none
  | dimensionOrder torus, _ => torus.wraparound? router direction
  | adaptive torus _, _ => torus.wraparound? router direction
  | _, _ => none

def torusOf (v : Value) (geometry : Geometry) : Except Failure Grid := do
  let extents ← orError geometry.torusExtents (.missingField "torus_extents")
  if extents.isEmpty || extents.contains 0 then throw (.error (.illFormed v (.badExtents extents)))
  Grid.ofSides extents

def meshOf (v : Value) (geometry : Geometry) : Except Error Algorithm := do
  let columns ← orError geometry.meshColumns (.missingField "mesh_columns")
  if columns == 0 || geometry.meshRows == some 0 then throw (.illFormed v .emptyMesh)
  return mesh columns geometry.meshRows

def ringOf (v : Value) (geometry : Geometry) : Except Error Algorithm := do
  let size ← orError geometry.ringSize (.missingField "ring_size")
  if size == 0 then throw (.illFormed v .emptyRing)
  return ring size

def ofValue (v : Value) (geometry : Geometry) : Except Failure Algorithm := do
  match ← v.objectName with
  | "Table" =>
    v.expectBare ["Table"]
    return table
  | "XY" =>
    v.expectBare ["XY"]
    meshOf v geometry
  | "Ring" =>
    v.expectBare ["Ring"]
    ringOf v geometry
  | "DOR" =>
    v.expectBare ["DOR"]
    return dimensionOrder (← torusOf v geometry)
  | "GOAL" =>
    v.expectBare ["GOAL", "MINAD"]
    return adaptive (← torusOf v geometry) .drawn
  | "MINAD" =>
    v.expectBare ["GOAL", "MINAD"]
    return adaptive (← torusOf v geometry) .shortest
  | name => throw (.error (.illFormed v (.unknownRouting name)))

end Algorithm

end Interconnect
