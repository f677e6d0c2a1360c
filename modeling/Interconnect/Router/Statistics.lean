import Interconnect.Router.Basic

namespace Interconnect

open Config (Value)

namespace Config.Value

mutual

def add : Value → Value → Except Error Value
  | number x, number y => .ok (number (x.add y))
  | array items, array items' => (addItems items items').map array
  | _, previous => .error (.illFormed previous .notAddable)

def addItems : List Value → List Value → Except Error (List Value)
  | v :: vs, w :: ws => do
    let sum ← add v w
    return sum :: (← addItems vs ws)
  | [], ws => .ok ws
  | vs, [] => .ok vs

end

def addToField (name : String) (v : Value) : List (String × Value) → Except Error (List (String × Value))
  | [] => .ok []
  | (name', w) :: fields => do
    if name' = name then return (name', ← w.add v) :: fields
    return (name', w) :: (← addToField name v fields)

end Config.Value

namespace Router

def statistic (n : Nat) : Value := .number (Binary64.ofNat n)

def total (counts : List Nat) : Nat := counts.foldr (· + ·) 0

def ownStatistics (r : Router) (cycle : Nat) : List (String × Value) :=
  let forwarded := r.ports.map fun p => p.counts.forwardedFlits
  let credits := r.ports.map fun p => p.counts.receivedCredits
  let freeSignals := r.ports.map fun p => p.counts.freeSignals
  [("routed_packets", statistic r.unit.counts.routed),
    ("local_deliveries", statistic r.unit.counts.delivered),
    ("adaptive_decisions", statistic r.unit.counts.adaptive),
    ("non_minimal_paths", statistic r.unit.counts.nonMinimal),
    ("forwarded_flits", statistic (total forwarded)),
    ("received_credits", statistic (total credits)),
    ("free_signals", statistic (total freeSignals)),
    ("forwarded_flits_per_port", .array (forwarded.map statistic)),
    ("cycles", statistic (cycle - r.countedFrom))]

/-- Adds previous statistics, but for the cycles. Fields that the router does not have are left out. -/
def addPrevious (own previous : List (String × Value)) : Except Error (List (String × Value)) :=
  previous.foldlM (fun own (name, v) => if name = "cycles" then .ok own else Value.addToField name v own) own

def statistics (r : Router) (previous? : Option Value) (cycle : Nat) : Except Error Value := do
  let own := r.ownStatistics cycle
  match previous? with
  | none => return .object "Router" own
  | some (.object name fields) =>
    if name ≠ "Router" then throw (.illFormed (.object name fields) (.foreignStatistics name))
    return .object "Router" (← addPrevious own fields)
  | some previous => throw (.illFormed previous .notStatistics)

end Router

end Interconnect
