import Interconnect.Routing.Algorithm

namespace Interconnect

open Config (Value)

structure Settings where
  vnets : Option Nat
  poolSize : Option Nat
  bufferDepth : Option Nat
  routing : Option Value
  geometry : Geometry
  orderedVnets : List Bool
  ports : Option (List String)
  inports : Option (List String)
  routes : Option (List Value)
  weights : Option (List Nat)

namespace Settings

def initial : Settings := ⟨none, none, none, none, .unknown, [], none, none, none, none⟩

def setGeometry (s : Settings) (update : Geometry → Geometry) : Settings :=
  { s with geometry := update s.geometry }

def read (s : Settings) (field : String) (v : Value) : Option (Except Error Settings) :=
  match field with
  | "virtual_networks" => some (v.toWord.map fun n => { s with vnets := some n })
  | "virtual_channels_per_vnet" => some (v.toWord.map fun n => { s with poolSize := some n })
  | "buffer_depth" => some (v.toWord.map fun n => { s with bufferDepth := some n })
  | "routing" => some (.ok { s with routing := some v })
  | "torus_extents" => some (v.toWords.map fun ns => s.setGeometry ({ · with torusExtents := some ns }))
  | "mesh_columns" => some (v.toWord.map fun n => s.setGeometry ({ · with meshColumns := some n }))
  | "mesh_rows" => some (v.toWord.map fun n => s.setGeometry ({ · with meshRows := some n }))
  | "ring_size" => some (v.toWord.map fun n => s.setGeometry ({ · with ringSize := some n }))
  | "ordered_vnets" => some (v.toFlags.map fun flags => { s with orderedVnets := flags })
  | "ports" => some (v.toTexts.map fun labels => { s with ports := some labels })
  | "inports" => some (v.toTexts.map fun labels => { s with inports := some labels })
  | "routes" => some (v.toItems.map fun entries => { s with routes := some entries })
  | "weights" => some (v.toWords.map fun ns => { s with weights := some ns })
  | _ => none

def ofValue (v : Value) : Except Error Settings := v.readObject ["Router"] read initial

end Settings

end Interconnect
