import Interconnect.Number.Decimal

namespace Interconnect

structure Binary64 where
  bits : UInt64
deriving DecidableEq

namespace Binary64

def signBit : Nat := 1 <<< 63

def leadingBit : Nat := 1 <<< 52

def negative (x : Binary64) : Bool := decide (signBit ≤ x.bits.toNat)

/-- The bits below the sign. Magnitudes are ordered as their codes are. -/
def code (x : Binary64) : Nat := x.bits.toNat % signBit

def infiniteCode : Nat := 2047 * leadingBit

def ofCode (negative : Bool) (code : Nat) : Binary64 :=
  ⟨UInt64.ofNat (if negative then signBit + code else code)⟩

def isNaN (x : Binary64) : Bool := decide (infiniteCode < x.code)

def isInfinite (x : Binary64) : Bool := x.code == infiniteCode

def isFinite (x : Binary64) : Bool := decide (x.code < infiniteCode)

def nan : Binary64 := ofCode false (infiniteCode + leadingBit / 2)

def infinity (negative : Bool) : Binary64 := ofCode negative infiniteCode

def zero (negative : Bool) : Binary64 := ofCode negative 0

def unitsPerOne : Nat := 1 <<< 1074

def unitsOfCode (code : Nat) : Nat :=
  if code < leadingBit then code else (leadingBit + code % leadingBit) <<< (code / leadingBit - 1)

def units (x : Binary64) : Nat := unitsOfCode x.code

def signedUnits (x : Binary64) : Int := if x.negative then -(x.units : Int) else x.units

def roundHalfEven (num den : Nat) : Nat :=
  let whole := num / den
  let twice := 2 * (num % den)
  if twice < den ∨ twice = den ∧ whole % 2 = 0 then whole else whole + 1

/-- The code nearest to `num / den` units. A significand that rounds up to the next power of two carries
into the exponent, and a magnitude beyond the greatest finite one is infinite. -/
def nearestCode (num den : Nat) : Nat :=
  let shift := (num / den).log2 - 52
  min (shift * leadingBit + roundHalfEven num (den <<< shift)) infiniteCode

def ofNat (n : Nat) : Binary64 := ofCode false (nearestCode (n * unitsPerOne) 1)

def one : Binary64 := ofNat 1

def neg (x : Binary64) : Binary64 := ofCode (!x.negative) x.code

def add (x y : Binary64) : Binary64 :=
  if x.isNaN || y.isNaN then nan
  else if x.isInfinite then (if y.isInfinite && x.negative != y.negative then nan else x)
  else if y.isInfinite then y
  else
    let sum := x.signedUnits + y.signedUnits
    if sum = 0 then zero (x.negative && y.negative)
    else ofCode (decide (sum < 0)) (nearestCode sum.natAbs 1)

def sub (x y : Binary64) : Binary64 := if y.isNaN then nan else add x y.neg

def div (x y : Binary64) : Binary64 :=
  let negative := x.negative != y.negative
  if x.isNaN || y.isNaN then nan
  else if x.isInfinite then (if y.isInfinite then nan else infinity negative)
  else if y.isInfinite then zero negative
  else if y.units = 0 then (if x.units = 0 then nan else infinity negative)
  else ofCode negative (nearestCode (x.units * unitsPerOne) y.units)

def compare? (x y : Binary64) : Option Ordering :=
  if x.isNaN || y.isNaN then none
  else
    let rank (z : Binary64) : Int := if z.negative then -(z.code : Int) else z.code
    some (compare (rank x) (rank y))

def lt (x y : Binary64) : Bool := x.compare? y == some .lt

/-- The whole part, clamped to `0 ≤ n < 2 ^ 64`. A NaN has none and gives zero. -/
def toWord (x : Binary64) : Nat :=
  if x.isNaN || x.negative then 0 else min (x.units / unitsPerOne) (UInt64.size - 1)

def codeOfDecimal (d : Decimal) : Nat :=
  let size := (d.coefficient.log2 : Int) + 3 * d.exponent
  if d.coefficient = 0 then 0
  else if 0 ≤ d.exponent then
    if 1024 ≤ size then infiniteCode
    else nearestCode (d.coefficient * Decimal.tenTo d.exponent.toNat * unitsPerOne) 1
  else if size ≤ -1076 then 0
  else nearestCode (d.coefficient * unitsPerOne) (Decimal.tenTo (-d.exponent).toNat)

def ofDecimal (negative : Bool) (d : Decimal) : Binary64 := ofCode negative (codeOfDecimal d)

end Binary64

end Interconnect
