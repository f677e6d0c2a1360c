import Interconnect.Config.Value
import Interconnect.Number.Shortest

namespace Interconnect.Config.Value

def tabs (depth : Nat) : List Char := List.replicate depth '\t'

mutual

def render (depth : Nat) (rest : List Char) : Value → List Char
  | literal text => tabs depth ++ '"' :: (text.toList ++ '"' :: rest)
  | number x => tabs depth ++ (x.render ++ rest)
  | object name fields =>
    let close := tabs depth ++ '\x7d' :: '\n' :: rest
    tabs depth ++ (name.toList ++ '\n' :: (tabs depth ++ '\x7b' :: '\n' :: renderFields depth close fields))
  | array items =>
    let close := tabs depth ++ ']' :: '\n' :: rest
    tabs depth ++ '[' :: '\n' :: renderItems depth close items
  | boolean true => tabs depth ++ ("true".toList ++ rest)
  | boolean false => tabs depth ++ ("false".toList ++ rest)
  | absent => tabs depth ++ ("NONE VALUE".toList ++ rest)

def renderItems (depth : Nat) (rest : List Char) : List Value → List Char
  | [] => rest
  | v :: vs => render (depth + 1) (',' :: '\n' :: renderItems depth rest vs) v

def renderFields (depth : Nat) (rest : List Char) : List (String × Value) → List Char
  | [] => rest
  | (name, v) :: vs =>
    let others := ',' :: '\n' :: renderFields depth rest vs
    tabs (depth + 1) ++ (name.toList ++ ':' :: '\n' :: render (depth + 1) others v)

end

def text (v : Value) : String := String.ofList (render 0 [] v)

end Interconnect.Config.Value
