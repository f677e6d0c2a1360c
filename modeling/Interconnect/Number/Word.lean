import Interconnect.Failure

namespace Interconnect.Word

/-- A result of an operation on words, which has to be a word of 64 bits. -/
def checked (operation : Arithmetic) (result : Nat) : Except Breach Nat :=
  if result < UInt64.size then .ok result else .error (.overflow operation)

def add (a b : Nat) : Except Breach Nat := checked .add (a + b)

def mul (a b : Nat) : Except Breach Nat := checked .multiply (a * b)

def sub (a b : Nat) : Except Breach Nat := if b ≤ a then .ok (a - b) else .error (.overflow .subtract)

def rem (a b : Nat) : Except Breach Nat := if b = 0 then .error .divideByZero else .ok (a % b)

def product (factors : List Nat) : Except Breach Nat := factors.foldlM mul 1

end Interconnect.Word
