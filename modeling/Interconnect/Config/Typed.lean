import Interconnect.Config.Parser
import Interconnect.Failure

namespace Interconnect.Config

namespace Value

def parse (source : String) : Except Failure Value := do
  let some tokens := Token.ofText? source | throw (.breach .noToken)
  let some value := ofTokens? tokens | throw (.error .notInGrammar)
  return value

def toFlag : Value → Except Error Bool
  | boolean flag => .ok flag
  | v => .error (.illFormed v .wrongType)

def toText : Value → Except Error String
  | literal text => .ok text
  | v => .error (.illFormed v .wrongType)

def toNumber : Value → Except Error Binary64
  | number x => .ok x
  | v => .error (.illFormed v .wrongType)

def toItems : Value → Except Error (List Value)
  | array items => .ok items
  | v => .error (.illFormed v .wrongType)

def objectName : Value → Except Error String
  | object name _ => .ok name
  | v => .error (.illFormed v .wrongType)

def wholeTolerance : Binary64 := Binary64.ofDecimal false ⟨1, -5⟩

def toWord : Value → Except Error Nat
  | number x =>
    let n := x.toWord
    let distance := x.sub (Binary64.ofNat n)
    if wholeTolerance.lt distance || distance.lt wholeTolerance.neg then
      .error (.illFormed (number x) .wrongType)
    else .ok n
  | v => .error (.illFormed v .wrongType)

def toWords (v : Value) : Except Error (List Nat) := do (← v.toItems).mapM toWord

def toFlags (v : Value) : Except Error (List Bool) := do (← v.toItems).mapM toFlag

def toTexts (v : Value) : Except Error (List String) := do (← v.toItems).mapM toText

end Value

end Interconnect.Config
