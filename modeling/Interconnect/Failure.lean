import Interconnect.Config.Printer
import Interconnect.Direction

namespace Interconnect

open Config (Value)

inductive Flaw where
  | wrongType
  | wrongObject (expected : List String) (found : String)
  | unknownField (field : String) (object : String)
  | notAnObject (expected : String)
  | unknownRouting (name : String)
  | badExtents (extents : List Nat)
  | emptyMesh
  | emptyRing
  | routerOutside (router : Nat) (size : Nat)
  | tooFewChannels (least : Nat) (given : Nat)
  | routeCount (routes : Nat) (ports : Nat)
  | weightCount (weights : Nat) (ports : Nat)
  | foreignStatistics (object : String)
  | notStatistics
  | notAddable

inductive Error where
  | illFormed (value : Value) (flaw : Flaw)
  | missingField (field : String)
  | notInGrammar
  | missingRoute (vnet : Nat) (destination : List Nat)
  | missingWeight (outport : Nat)
  | missingDirection (direction : Direction)
  | unknownLabel (label : String)
  | noInputPort (router : Nat) (inport : Nat)
  | undirectedOffset (dimension : Nat) (source : Nat) (target : Nat)
  | noOutputPort (outport : Nat)

inductive ErrorKind where
  | illFormedConfiguration
  | missingConfigurationField
  | couldNotParseConfiguration
  | missingRoute
  | missingWeight
  | missingDirection
  | unknownDirectionLabel
  | undetermined
deriving DecidableEq

/-- The operations whose result may be no word of 64 bits. -/
inductive Arithmetic where
  | add
  | subtract
  | multiply
deriving DecidableEq

inductive Breach where
  | indexOutOfBounds
  | divideByZero
  | overflow (operation : Arithmetic)
  | noToken
  | routedToItself (routing : String) (router : Nat)
  | turnedBack (router : Nat) (going : Direction) (entered : Direction) (inport : Nat)
  | noCredit (channel : Nat)
  | creditOfIdle (channel : Nat)
  | delayTooLong
deriving DecidableEq

inductive Failure where
  | error (error : Error)
  | breach (breach : Breach)

def listText (items : List String) : String := "[" ++ ", ".intercalate items ++ "]"

def Sign.text : Sign → String
  | negative => "Negative"
  | positive => "Positive"

def Axis.text : Axis → String
  | x => "X"
  | y => "Y"

def Direction.description : Direction → String
  | localPort => "Local"
  | mesh axis sign => "Mesh \x7b axis: " ++ axis.text ++ ", sign: " ++ sign.text ++ " \x7d"
  | ring sign => "Ring \x7b sign: " ++ sign.text ++ " \x7d"
  | torus dimension sign =>
    "TorusDimension \x7b index: " ++ toString dimension ++ ", sign: " ++ sign.text ++ " \x7d"

def Arithmetic.text : Arithmetic → String
  | add => "add"
  | subtract => "subtract"
  | multiply => "multiply"

def Flaw.text? : Flaw → Option String
  | wrongType => none
  | wrongObject expected found =>
    let names := listText (expected.map fun name => "\"" ++ name ++ "\"")
    some ("Trying to create either of `" ++ names ++ "` object from `" ++ found ++ "`")
  | unknownField field object => some s!"Nothing to do with field {field} in {object}"
  | notAnObject expected => some s!"Trying to create a {expected} from a non-Object"
  | unknownRouting name => some s!"Unknown routing {name}"
  | badExtents extents => some ("bad torus extents " ++ listText (extents.map toString))
  | emptyMesh => some "a mesh requires at least a row and a column"
  | emptyRing => some "a ring requires some router"
  | routerOutside router size => some s!"router {router} is outside a network of {size} routers"
  | tooFewChannels least given => some
    s!"the routing requires at least {least} virtual channels per virtual network, but {given} were given"
  | routeCount routes ports => some s!"there are {routes} route entries for {ports} ports"
  | weightCount weights ports => some s!"there are {weights} weights for {ports} ports"
  | foreignStatistics object =>
    some ("incompatible statistics, should be `Router` object not `" ++ object ++ "`")
  | notStatistics => some "statistics of a router must be an object"
  | notAddable => some "The value cannot be added"

namespace Error

def kind : Error → ErrorKind
  | illFormed _ _ => .illFormedConfiguration
  | missingField _ => .missingConfigurationField
  | notInGrammar => .couldNotParseConfiguration
  | missingRoute _ _ => .missingRoute
  | missingWeight _ => .missingWeight
  | missingDirection _ => .missingDirection
  | unknownLabel _ => .unknownDirectionLabel
  | noInputPort _ _ => .undetermined
  | undirectedOffset _ _ _ => .undetermined
  | noOutputPort _ => .undetermined

def detail? : Error → Option String
  | illFormed _ flaw => flaw.text?
  | notInGrammar => some "error parsing configuration: NotInGrammar"
  | missingRoute _ _ => some "No route exists from this router."
  | noInputPort router inport => some s!"router {router} has no input port {inport}"
  | undirectedOffset dimension source target => some
    s!"dimension {dimension} has offset from router {source} to {target} but no direction was chosen"
  | noOutputPort outport => some s!"there is no output port {outport}"
  | _ => none

def summary : Error → String
  | illFormed value _ =>
    "IllFormedConfiguration error: the following value could not be understood:\n" ++ value.text
  | missingField field =>
    "MissingConfigurationField error: the required field `" ++ field ++ "` was not given."
  | notInGrammar => "CouldNotParseConfiguration error: the configuration source could not be parsed."
  | missingRoute vnet destination =>
    "MissingRoute error: no route exists from this router for destination " ++
      listText (destination.map toString) ++ " in vnet " ++ toString vnet ++ "."
  | missingWeight outport =>
    s!"MissingWeight error: the routing table entry of outport {outport} has no weight."
  | missingDirection direction =>
    "MissingDirection error: the router has no port in direction " ++ direction.label ++
      " (" ++ direction.description ++ ")."
  | unknownLabel label =>
    "UnknownDirectionLabel error: `" ++ label ++ "` does not name a port direction."
  | noInputPort _ _ | undirectedOffset _ _ _ | noOutputPort _ =>
    "Undetermined error: A generic error. The concrete error should be more specified."

def message (e : Error) : String :=
  match e.detail? with
  | some detail => detail ++ "\n" ++ e.summary ++ "\n"
  | none => e.summary ++ "\n"

end Error

def Breach.message? : Breach → Option String
  | indexOutOfBounds | divideByZero | noToken => none
  | overflow operation => some s!"attempt to {operation.text} with overflow"
  | routedToItself routing router => some s!"{routing} routing from router {router} to itself"
  | turnedBack router going entered inport => some
    s!"XY routing at router {router} going {going.label} entered from {entered.label} by inport {inport}"
  | noCredit channel => some s!"virtual channel {channel} has no credit to consume"
  | creditOfIdle channel => some s!"credit queried on virtual channel {channel} which is Idle"
  | delayTooLong => some "Delay too long"

def orError {α : Type} (value : Option α) (e : Error) : Except Error α :=
  match value with
  | some a => .ok a
  | none => .error e

def orBreach {α : Type} (value : Option α) (b : Breach) : Except Breach α :=
  match value with
  | some a => .ok a
  | none => .error b

instance : MonadLift (Except Error) (Except Failure) := ⟨Except.mapError .error⟩

instance : MonadLift (Except Breach) (Except Failure) := ⟨Except.mapError .breach⟩

def Direction.ofLabel (family : Family) (label : String) : Except Error Direction :=
  orError (ofLabel? family label) (.unknownLabel label)

end Interconnect
