import Interconnect.Config.Token

namespace Interconnect.Config

/-- An array or object that is still open, with what was read of it, the latest first. -/
inductive Frame where
  | array (items : List Value)
  | object (name : String) (fields : List (String × Value)) (field : String)

inductive Progress where
  | atValue (outer : List Frame)
  | atItem (items : List Value) (outer : List Frame)
  | atField (name : String) (fields : List (String × Value)) (outer : List Frame)
  | atColon (name : String) (fields : List (String × Value)) (field : String) (outer : List Frame)
  | afterName (name : String) (outer : List Frame)
  | afterValue (value : Value) (outer : List Frame)

namespace Progress

def beginValue? (outer : List Frame) : Token → Option Progress
  | .boolean flag => some (afterValue (.boolean flag) outer)
  | .number x => some (afterValue (.number x) outer)
  | .literal text => some (afterValue (.literal text) outer)
  | .name name => some (afterName name outer)
  | .openBracket => some (atItem [] outer)
  | _ => none

def endValue? (value : Value) : List Frame → Token → Option Progress
  | .array items :: outer, .comma => some (atItem (value :: items) outer)
  | .array items :: outer, .closeBracket => some (afterValue (.array (value :: items).reverse) outer)
  | .object name fields field :: outer, .comma => some (atField name ((field, value) :: fields) outer)
  | .object name fields field :: outer, .closeBrace =>
    some (afterValue (.object name ((field, value) :: fields).reverse) outer)
  | _, _ => none

def step? : Progress → Token → Option Progress
  | atValue outer, t => beginValue? outer t
  | atItem items outer, .closeBracket => some (afterValue (.array items.reverse) outer)
  | atItem items outer, t => beginValue? (.array items :: outer) t
  | atField name fields outer, .closeBrace => some (afterValue (.object name fields.reverse) outer)
  | atField name fields outer, .name field => some (atColon name fields field outer)
  | atColon name fields field outer, .colon => some (atValue (.object name fields field :: outer))
  | afterName name outer, .openBrace => some (atField name [] outer)
  | afterName name outer, t => endValue? (.object name []) outer t
  | afterValue value outer, t => endValue? value outer t
  | _, _ => none

def value? : Progress → Option Value
  | afterName name [] => some (.object name [])
  | afterValue value [] => some value
  | _ => none

end Progress

def Value.ofTokens? (tokens : List Token) : Option Value := do
  (← tokens.foldlM Progress.step? (.atValue [])).value?

end Interconnect.Config
