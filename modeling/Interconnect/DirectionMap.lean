import Interconnect.Direction

namespace Interconnect

structure DirectionMap where
  registrations : List (Direction × Nat)

namespace DirectionMap

def empty : DirectionMap := ⟨[]⟩

def insert (m : DirectionMap) (direction : Direction) (index : Nat) : DirectionMap :=
  ⟨(direction, index) :: m.registrations⟩

def index? (m : DirectionMap) (direction : Direction) : Option Nat :=
  (m.registrations.find? (·.1 == direction)).map Prod.snd

def direction? (m : DirectionMap) (index : Nat) : Option Direction :=
  (m.registrations.find? (·.2 == index)).map Prod.fst

def size (m : DirectionMap) : Nat := (m.registrations.map Prod.snd).eraseDups.length

def isEmpty (m : DirectionMap) : Bool := m.registrations.isEmpty

end DirectionMap

end Interconnect
