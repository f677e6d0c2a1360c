import Interconnect.Number.Binary64

namespace Interconnect

namespace Binary64

def exactDecimal (code : Nat) : Decimal :=
  let places := 1074 - (code / leadingBit - 1)
  ⟨(unitsOfCode code >>> (1074 - places)) * Nat.pow 5 places, -places⟩

def neighbours (exact : Decimal) (dropped : Nat) : List Decimal :=
  let step := Decimal.tenTo dropped
  let exponent := exact.exponent + dropped
  let below : Decimal := ⟨exact.coefficient / step, exponent⟩
  let above : Decimal := ⟨exact.coefficient / step + 1, exponent⟩
  if step ≤ 2 * (exact.coefficient % step) then [above, below] else [below, above]

/-- The fewest digits that read back as `code`. Seventeen always do; the exact decimal closes the search. -/
def shortestDecimal (code : Nat) : Decimal :=
  let exact := exactDecimal code
  let count := Decimal.digitCount exact.coefficient
  let candidates := (List.range' 1 17).flatMap fun kept => neighbours exact (count - kept)
  (candidates.find? (codeOfDecimal · == code)).getD exact

def render (x : Binary64) : List Char :=
  if x.isNaN then "NaN".toList
  else
    let magnitude :=
      if x.isInfinite then "inf".toList
      else if x.code = 0 then ['0']
      else (shortestDecimal x.code).positional
    if x.negative then '-' :: magnitude else magnitude

end Binary64

end Interconnect
