import Interconnect.Number.Binary64

namespace Interconnect.Config

inductive Value where
  | literal (text : String)
  | number (number : Binary64)
  | object (name : String) (fields : List (String × Value))
  | array (items : List Value)
  | boolean (flag : Bool)
  | absent
deriving Inhabited

namespace Value

def rank : Value → Nat
  | literal _ => 0
  | number _ => 1
  | object _ _ => 2
  | array _ => 3
  | boolean true => 4
  | boolean false => 5
  | absent => 6

mutual

def compare? : Value → Value → Option Ordering
  | literal s, literal t => some (compare s t)
  | number x, number y => x.compare? y
  | object name fields, object name' fields' =>
    match compare name name' with
    | .eq => compareFields? fields fields'
    | order => some order
  | array items, array items' => compareItems? items items'
  | v, w => some (compare v.rank w.rank)

def compareItems? : List Value → List Value → Option Ordering
  | [], [] => some .eq
  | [], _ :: _ => some .lt
  | _ :: _, [] => some .gt
  | v :: vs, w :: ws =>
    match compare? v w with
    | some .eq => compareItems? vs ws
    | order => order

def compareFields? : List (String × Value) → List (String × Value) → Option Ordering
  | [], [] => some .eq
  | [], _ :: _ => some .lt
  | _ :: _, [] => some .gt
  | (name, v) :: vs, (name', w) :: ws =>
    match compare name name' with
    | .eq =>
      match compare? v w with
      | some .eq => compareFields? vs ws
      | order => order
    | order => some order

end

def equal (v w : Value) : Bool := compare? v w == some .eq

end Value

end Interconnect.Config
