import Mathlib
import Interconnect.Proofs.Routing.Decision
import Interconnect.Proofs.Routing.Directions
import Interconnect.Routing.Unit

namespace Interconnect

namespace Algorithm

variable {a : Algorithm} {s : Surroundings} {r : Route} {random : Random} {decision : Decision}

def candidates (a : Algorithm) (router target : Nat) : Nat :=
  match a with
  | adaptive torus _ =>
    ((Finset.range torus.dimensions).filter fun d => torus.coordinate router d ≠ torus.coordinate target d).card
  | _ => 1

theorem length_unresolved (g : Grid) (s : Surroundings) (r : Route) :
    (unresolved g s r).length = ((Finset.range g.dimensions).filter fun d =>
      g.coordinate s.router d ≠ g.coordinate r.router d).card := by
  have distinct : (unresolved g s r).Nodup := (unresolved_sorted g s r).imp Nat.ne_of_lt
  rw [← List.toFinset_card_of_nodup distinct]
  congr 1
  ext d
  rw [List.mem_toFinset, mem_unresolved, Finset.mem_filter, Finset.mem_range]

theorem candidates_self (a : Algorithm) (router : Nat) : a.candidates router router ≤ 1 := by
  cases a with
  | adaptive torus rule => simp [candidates]
  | _ => exact Nat.le_refl 1

theorem compared_direct {x : Except Failure Nat} (decided : (do return ⟨← x, 1⟩) = Except.ok decision) :
    decision.compared = 1 := by
  obtain ⟨outport, -, same⟩ := bind_eq_ok.mp decided
  cases same
  rfl

theorem compared_decideMesh {columns : Nat} (decided : decideMesh columns s r = .ok decision) :
    decision.compared = 1 := by
  obtain ⟨step, -, rest⟩ := bind_eq_ok.mp decided
  cases step with
  | none => cases rest
  | some way => exact compared_direct (refused_or_eq_ok.mp rest).2

theorem compared_decideRing {size : Nat} (decided : decideRing size s r = .ok decision) : decision.compared = 1 := by
  obtain ⟨step, -, rest⟩ := bind_eq_ok.mp decided
  cases step with
  | none => cases rest
  | some sign => exact compared_direct rest

theorem compared_decideDimensionOrder {torus : Grid} (decided : decideDimensionOrder torus s r = .ok decision) :
    decision.compared = 1 := by
  obtain ⟨step, -, rest⟩ := bind_eq_ok.mp decided
  cases step with
  | none => cases rest
  | some way => exact compared_direct rest

theorem compared_decideAdaptive {torus : Grid} (decided : decideAdaptive torus s r = .ok decision) :
    decision.compared = (unresolved torus s r).length := by
  obtain ⟨candidates, listed, rest⟩ := bind_eq_ok.mp decided
  obtain ⟨loads, -, rest⟩ := bind_eq_ok.mp rest
  cases chosen : leastLoaded? loads with
  | none =>
    rw [chosen] at rest
    cases rest
  | some outport =>
    rw [chosen] at rest
    cases rest
    exact (mapM_eq_ok.mp (mapError_eq_ok.mp listed)).length_eq.symm

theorem compared_next (decided : (a.next s r random).decision = .ok decision) :
    decision.compared = a.candidates s.router r.router := by
  cases a with
  | table =>
    obtain ⟨outport, -, same⟩ := map_eq_ok.mp (mapError_eq_ok.mp decided)
    rw [← same]
    rfl
  | mesh columns rows => exact compared_decideMesh decided
  | ring size => exact compared_decideRing decided
  | dimensionOrder torus => exact compared_decideDimensionOrder decided
  | adaptive torus rule =>
    obtain ⟨left, random', fixed, chosen, -⟩ := next_adaptive_eq_ok decided
    rw [compared_decideAdaptive chosen, length_unresolved, (Route.fixedAs_fixDirections fixed).router]
    rfl

end Algorithm

namespace RoutingUnit

structure Query where
  route : Route
  inport : Nat
  entered : Direction
  ports : List Port
  random : Random

def answer (u : RoutingUnit) (q : Query) : Computed × RoutingUnit :=
  u.compute q.route q.inport q.entered q.ports q.random

/-- What may happen to the route computation of a router. -/
inductive Step where
  | compute (query : Query)
  | inport (direction : Direction) (inport : Nat)
  | outport (direction : Direction) (outport : Nat)
  | route (entry : List EndpointSet)
  | weight (weight : Nat)

def perform (u : RoutingUnit) : Step → RoutingUnit
  | .compute query => (u.answer query).2
  | .inport direction inport => u.addInport direction inport
  | .outport direction outport => u.addOutport direction outport
  | .route entry => u.addRoute entry
  | .weight weight => u.addWeight weight

def run (u : RoutingUnit) (steps : List Step) : RoutingUnit := steps.foldl perform u

structure Call where
  unit : RoutingUnit
  query : Query

def calls : RoutingUnit → List Step → List Call
  | _, [] => []
  | u, .compute query :: steps => ⟨u, query⟩ :: calls (u.perform (.compute query)) steps
  | u, step :: steps => calls (u.perform step) steps

namespace Call

def computed (c : Call) : Computed := (c.unit.answer c.query).1

def succeeds (c : Call) : Bool := c.computed.outport.isOk

def isLocal (c : Call) : Bool := c.query.route.router == c.unit.router

def comparesPorts (c : Call) : Bool := decide (1 < c.unit.algorithm.candidates c.unit.router c.query.route.router)

/-- The directions of the packet were fixed here, and lead a longer way. -/
def fixesDetour (c : Call) : Bool :=
  c.query.route.directions.isNone && c.computed.route.directions.isSome && !c.computed.route.minimal

end Call

variable {u : RoutingUnit} {query : Query}

theorem counts_countOutcome {outcome : Outcome} {candidates : Nat}
    (told : ∀ decision, outcome.decision = .ok decision → decision.compared = candidates) (u : RoutingUnit)
    (before : Route) :
    (u.countOutcome before outcome).counts =
      ⟨u.counts.routed, u.counts.delivered,
        u.counts.adaptive + (if outcome.decision.isOk && decide (1 < candidates) then 1 else 0),
        u.counts.nonMinimal + (if outcome.decision.isOk && (before.directions.isNone &&
          outcome.route.directions.isSome && !outcome.route.minimal) then 1 else 0)⟩ := by
  unfold countOutcome
  cases decided : outcome.decision with
  | error e => simp [Except.isOk, Except.toBool]
  | ok decision =>
    simp only [told decision decided, Except.isOk, Except.toBool, Bool.true_and, Bool.toNat, Bool.cond_eq_ite]

theorem answer_here (here : query.route.router = u.router) :
    ∃ outport random, u.answer query = (⟨outport, query.route, random⟩, u.countRouted.countDelivered) :=
  ⟨_, _, if_pos here⟩

def outcome (u : RoutingUnit) (q : Query) : Outcome :=
  u.algorithm.next ⟨u.router, u.table, u.isOrdered q.route.vnet, q.inport, q.entered, u.outports, q.ports⟩ q.route
    q.random

theorem answer_away (away : query.route.router ≠ u.router) :
    u.answer query =
      (⟨(u.outcome query).decision.map Decision.outport, (u.outcome query).route, (u.outcome query).random⟩,
        u.countRouted.countOutcome query.route (u.outcome query)) :=
  if_neg away

theorem counts_answer (u : RoutingUnit) (query : Query) :
    let c : Call := ⟨u, query⟩
    (u.answer query).2.counts =
      ⟨u.counts.routed + 1, u.counts.delivered + (if c.isLocal then 1 else 0),
        u.counts.adaptive + (if c.succeeds && c.comparesPorts then 1 else 0),
        u.counts.nonMinimal + (if c.succeeds && c.fixesDetour then 1 else 0)⟩ := by
  intro c
  by_cases here : query.route.router = u.router
  · obtain ⟨outport, random, answered⟩ := u.answer_here here
    have known : c.isLocal = true := beq_iff_eq.mpr here
    have single : c.comparesPorts = false := by
      have few := u.algorithm.candidates_self u.router
      simp only [Call.comparesPorts, c, here, decide_eq_false_iff_not]
      omega
    -- the table fixes no directions
    have unchanged : c.fixesDetour = false := by
      simp only [Call.fixesDetour, Call.computed, c, answered]
      cases query.route.directions <;> rfl
    rw [answered, known, single, unchanged, Bool.and_false]
    rfl
  · have answered := answer_away here
    have foreign : c.isLocal = false := beq_false_of_ne here
    have found : c.succeeds = (u.outcome query).decision.isOk := by
      simp only [Call.succeeds, Call.computed, c, answered]
      cases (u.outcome query).decision <;> rfl
    have fixed : c.fixesDetour = (query.route.directions.isNone && (u.outcome query).route.directions.isSome &&
        !(u.outcome query).route.minimal) := by
      simp only [Call.fixesDetour, Call.computed, c, answered]
    have told : ∀ decision, (u.outcome query).decision = .ok decision →
        decision.compared = u.algorithm.candidates u.router query.route.router :=
      fun decision decided => Algorithm.compared_next decided
    rw [answered, counts_countOutcome told, foreign, found, fixed]
    rfl

theorem counts_run (u : RoutingUnit) (steps : List Step) :
    (u.run steps).counts =
      ⟨u.counts.routed + (u.calls steps).length, u.counts.delivered + (u.calls steps).countP Call.isLocal,
        u.counts.adaptive + (u.calls steps).countP fun c => c.succeeds && c.comparesPorts,
        u.counts.nonMinimal + (u.calls steps).countP fun c => c.succeeds && c.fixesDetour⟩ := by
  induction steps generalizing u with
  | nil => rfl
  | cons step steps ih =>
    have later := ih (u.perform step)
    cases step with
    | compute query =>
      have ran : u.run (.compute query :: steps) = (u.answer query).2.run steps := rfl
      have called : u.calls (.compute query :: steps) = ⟨u, query⟩ :: (u.answer query).2.calls steps := rfl
      rw [perform, counts_answer] at later
      rw [ran, called, later]
      simp only [List.length_cons, List.countP_cons, RoutingCounts.mk.injEq]
      omega
    -- what is registered or added to the table leaves the counts as they are
    | inport direction inport => exact later
    | outport direction outport => exact later
    | route entry => exact later
    | weight weight => exact later

theorem countP_and_eq_iff {α : Type} {p q : α → Bool} {as : List α} :
    as.countP (fun a => p a && q a) = as.countP q ↔ ∀ a ∈ as, q a = true → p a = true := by
  rw [← List.countP_filter, List.countP_eq_length_filter (p := q), List.countP_eq_length]
  simp only [List.mem_filter, and_imp]

/-- Since the last reset, the counts are those of the calls, of the local ones, of the choices by load and of the
detours fixed with a port found. These are all detours exactly if a port was found wherever one was fixed. -/
theorem counts_describe_calls (u : RoutingUnit) (steps : List Step) :
    (u.resetCounts.run steps).counts.routed = (u.resetCounts.calls steps).length ∧
    (u.resetCounts.run steps).counts.delivered = (u.resetCounts.calls steps).countP Call.isLocal ∧
    (u.resetCounts.run steps).counts.adaptive =
      (u.resetCounts.calls steps).countP (fun c => c.succeeds && c.comparesPorts) ∧
    (u.resetCounts.run steps).counts.nonMinimal =
      (u.resetCounts.calls steps).countP (fun c => c.succeeds && c.fixesDetour) ∧
    ((u.resetCounts.run steps).counts.nonMinimal = (u.resetCounts.calls steps).countP Call.fixesDetour ↔
      ∀ c ∈ u.resetCounts.calls steps, c.fixesDetour = true → c.succeeds = true) := by
  have counted := counts_run u.resetCounts steps
  have none : u.resetCounts.counts = .zero := rfl
  rw [none] at counted
  simp only [RoutingCounts.zero, Nat.zero_add] at counted
  rw [counted]
  exact ⟨rfl, rfl, rfl, rfl, countP_and_eq_iff⟩

def ringOfThreeDrawn : RoutingUnit := .empty 0 (.adaptive ⟨[3]⟩ .drawn) []

/-- A detour is fixed before the port of its direction is registered, and the packet sent again is not counted. -/
theorem detour_without_port_uncounted :
    let fresh : Route := .toward 1 (.single 1) 0
    let fixed : Route := { fresh with directions := some [some .negative] }
    let ports : List Port := [.idle 0 (.torus 0 .negative) 1 3 1]
    let steps : List Step := [.compute ⟨fresh, 0, .localPort, ports, .ofWords [13888656601109899510]⟩,
      .outport (.torus 0 .negative) 0, .compute ⟨fixed, 0, .localPort, ports, .ofWords []⟩]
    (ringOfThreeDrawn.calls steps).map (fun c => c.computed.route) = [fixed, fixed] ∧
      (ringOfThreeDrawn.calls steps).map Call.succeeds = [false, true] ∧
      (ringOfThreeDrawn.calls steps).countP Call.fixesDetour = 1 ∧
      (ringOfThreeDrawn.run steps).counts = ⟨2, 0, 0, 0⟩ := by
  decide +kernel

end RoutingUnit

end Interconnect
