namespace Interconnect

/-- The number `coefficient * 10 ^ exponent`. -/
structure Decimal where
  coefficient : Nat
  exponent : Int
deriving DecidableEq

namespace Decimal

def tenTo (places : Nat) : Nat := Nat.pow 10 places

def digits (n : Nat) : List Char := Nat.toDigits 10 n

def digitCount (n : Nat) : Nat := (digits n).length

def ofDigits (ds : List Char) : Nat := Nat.ofDigitChars 10 ds 0

def wordOfDigits? (cs : List Char) : Option Nat :=
  let ds := match cs with
    | '+' :: rest => rest
    | _ => cs
  if ds.isEmpty || !ds.all Char.isDigit then none
  else if ofDigits ds < UInt64.size then some (ofDigits ds)
  else none

def padLeft (width : Nat) (ds : List Char) : List Char := List.replicate (width - ds.length) '0' ++ ds

def stripTrailing (ds : List Char) : List Char := (ds.reverse.dropWhile (· == '0')).reverse

/-- Positional notation: never an exponent, no zeros after the last nonzero place, no lone point. -/
def positional (d : Decimal) : List Char :=
  if 0 ≤ d.exponent then digits (d.coefficient * tenTo d.exponent.toNat)
  else
    let places := (-d.exponent).toNat
    let whole := digits (d.coefficient / tenTo places)
    match stripTrailing (padLeft places (digits (d.coefficient % tenTo places))) with
    | [] => whole
    | fraction => whole ++ '.' :: fraction

end Decimal

end Interconnect
