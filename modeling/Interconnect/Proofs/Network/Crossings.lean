import Mathlib
import Interconnect.Proofs.Network.Transit

namespace Interconnect

def Algorithm.torus? : Algorithm → Option Grid
  | dimensionOrder torus => some torus
  | adaptive torus _ => some torus
  | _ => none

/-- Leaving a router in a direction takes the link that closes a dimension of its network: backward from the first
place of the dimension, or ahead from the last. -/
inductive Closes : Algorithm → Nat → Direction → Nat → Prop where
  | ring_first {size : Nat} : Closes (.ring size) 0 (.ring .negative) 0
  | ring_last {last : Nat} : Closes (.ring (last + 1)) last (.ring .positive) 0
  | torus_first {a : Algorithm} {torus : Grid} {router d : Nat} (known : a.torus? = some torus)
      (within : d < torus.dimensions) (first : torus.coordinate router d = 0) :
      Closes a router (.torus d .negative) d
  | torus_last {a : Algorithm} {torus : Grid} {router d : Nat} (known : a.torus? = some torus)
      (within : d < torus.dimensions) (last : torus.coordinate router d + 1 = torus.extent d) :
      Closes a router (.torus d .positive) d

section Closes

variable {a : Algorithm} {g : Grid} {router d : Nat} {direction : Direction}

theorem Grid.wraparound?_eq_some_iff :
    g.wraparound? router direction = some d ↔
      ∃ sign, direction = .torus d sign ∧ d < g.dimensions ∧
        closesRing (g.extent d) (g.coordinate router d) sign = true := by
  constructor
  · intro wraps
    cases direction with
    | torus e sign =>
      by_cases within : e < g.dimensions
      · rw [wraparound?_torus within] at wraps
        split at wraps
        · rename_i closes
          cases wraps
          exact ⟨sign, rfl, within, closes⟩
        · cases wraps
      · have beyond : g.sides[e]? = none := List.getElem?_eq_none (Nat.le_of_not_lt within)
        simp [wraparound?, beyond] at wraps
    | _ => cases wraps
  · rintro ⟨sign, rfl, within, closes⟩
    rw [wraparound?_torus within, if_pos closes]

theorem closes_torus_iff (known : a.torus? = some g) :
    Closes a router direction d ↔ g.wraparound? router direction = some d := by
  rw [Grid.wraparound?_eq_some_iff]
  constructor
  · intro closes
    cases closes with
    | ring_first => cases known
    | ring_last => cases known
    | torus_first known' within first =>
      cases known.symm.trans known'
      exact ⟨.negative, rfl, within, beq_iff_eq.mpr first⟩
    | torus_last known' within last =>
      cases known.symm.trans known'
      exact ⟨.positive, rfl, within, beq_iff_eq.mpr last⟩
  · rintro ⟨sign, rfl, within, closes⟩
    cases sign with
    | negative => exact .torus_first known within (beq_iff_eq.mp closes)
    | positive => exact .torus_last known within (beq_iff_eq.mp closes)

theorem closes_ring_iff {size : Nat} :
    Closes (.ring size) router direction d ↔
      ∃ sign, direction = .ring sign ∧ closesRing size router sign = true ∧ d = 0 := by
  constructor
  · intro closes
    cases closes with
    | ring_first => exact ⟨.negative, rfl, rfl, rfl⟩
    | ring_last => exact ⟨.positive, rfl, beq_self_eq_true _, rfl⟩
    | torus_first known => cases known
    | torus_last known => cases known
  · rintro ⟨sign, rfl, closes, rfl⟩
    cases sign with
    | negative =>
      have first : router = 0 := beq_iff_eq.mp closes
      subst first
      exact .ring_first
    | positive =>
      have last : router + 1 = size := beq_iff_eq.mp closes
      subst last
      exact .ring_last

theorem not_closes_table : ¬ Closes .table router direction d := by
  intro closes
  cases closes with
  | torus_first known => cases known
  | torus_last known => cases known

theorem not_closes_mesh {columns : Nat} {rows : Option Nat} : ¬ Closes (.mesh columns rows) router direction d := by
  intro closes
  cases closes with
  | torus_first known => cases known
  | torus_last known => cases known

theorem Algorithm.wraparound?_eq_some_iff : a.wraparound? router direction = some d ↔ Closes a router direction d := by
  cases a with
  | table => simp [wraparound?, not_closes_table]
  | mesh columns rows => simp [wraparound?, not_closes_mesh]
  | ring size =>
    rw [closes_ring_iff]
    cases direction with
    | ring sign =>
      simp only [wraparound?]
      by_cases closes : closesRing size router sign = true
      · simp [closes, eq_comm (a := d)]
      · simp [closes]
    | _ => simp [wraparound?]
  | dimensionOrder torus => exact (closes_torus_iff rfl).symm
  | adaptive torus rule => exact (closes_torus_iff rfl).symm

end Closes

/-- A router that a packet leaves, and the port by which it leaves. -/
structure Exit where
  unit : RoutingUnit
  outport : Nat

namespace Exit

def direction? (e : Exit) : Option Direction := e.unit.outports.direction? e.outport

def overLink (e : Exit) : Bool := e.direction?.any (· != .localPort)

def Crosses (e : Exit) (d : Nat) : Prop :=
  ∃ direction, e.direction? = some direction ∧ Closes e.unit.algorithm e.unit.router direction d

theorem crosses_iff {e : Exit} {d : Nat} :
    e.Crosses d ↔ e.direction?.bind (e.unit.algorithm.wraparound? e.unit.router) = some d := by
  simp only [Crosses, Option.bind_eq_some_iff, Algorithm.wraparound?_eq_some_iff]

variable {e : Exit} {r : Route} {d : Nat}

theorem nextHop_eq (e : Exit) (r : Route) :
    e.unit.nextHop r e.outport =
      { r with
        hops := r.hops + if e.overLink then 1 else 0
        checkpoints := match e.direction?.bind (e.unit.algorithm.wraparound? e.unit.router) with
          | some d => (r.setCheckpoint d).checkpoints
          | none => r.checkpoints } := by
  unfold RoutingUnit.nextHop overLink direction?
  cases e.unit.outports.direction? e.outport with
  | none => rfl
  | some direction =>
    by_cases here : direction = .localPort
    · subst here
      cases wraps : e.unit.algorithm.wraparound? e.unit.router .localPort <;> simp [wraps, Route.setCheckpoint]
    · cases wraps : e.unit.algorithm.wraparound? e.unit.router direction <;>
        simp [wraps, here, Route.setCheckpoint]

theorem checkpoint_nextHop :
    (e.unit.nextHop r e.outport).checkpoint d = true ↔ r.checkpoint d = true ∨ e.Crosses d := by
  rw [crosses_iff, nextHop_eq]
  cases e.direction?.bind (e.unit.algorithm.wraparound? e.unit.router) with
  | none => simp [Route.checkpoint]
  | some dimension =>
    have set := Route.checkpoint_setCheckpoint r dimension d
    change (r.setCheckpoint dimension).checkpoint d = true ↔ _
    rw [set, Bool.or_eq_true, beq_iff_eq, Option.some.injEq, eq_comm (a := d)]

end Exit

namespace Route

variable {r : Route} {exits : List Exit}

end Route

end Interconnect
