import Mathlib
import Interconnect.Proofs.Network.SinglePath

namespace Interconnect

namespace Router

/-- A dimension in which a route has some way to go, the port in its direction there, and how many channels are free to
it at the port. -/
structure Productive (r : Router) (torus : Grid) (route : Route) (dimension outport free : Nat) : Prop where
  within : dimension < torus.dimensions
  apart : torus.coordinate r.index dimension ≠ torus.coordinate route.router dimension
  leads : ∃ sign, route.direction? dimension = some sign ∧
    r.unit.outports.index? (.torus dimension sign) = some outport
  counted : r.countFree outport route = .ok free

variable {r : Router} {place inport outport dimension free : Nat} {torus : Grid} {rule : DirectionRule}
  {route : Route} {random : Random}

def surroundings (r : Router) (vnet inport : Nat) (entered : Direction) : Surroundings :=
  ⟨r.unit.router, r.unit.table, r.unit.isOrdered vnet, inport, entered, r.unit.outports, r.ports⟩

theorem Wired.selection_eq (wired : r.Wired place (.adaptive torus rule)) (route : Route) :
    r.unit.selection route = ⟨.thirds, route.checkpoints⟩ := by
  rw [RoutingUnit.selection, wired.algorithm]
  rfl

theorem Wired.poll_iff (wired : r.Wired place (.adaptive torus rule)) (vnet inport : Nat) (entered : Direction) :
    Algorithm.poll (r.surroundings vnet inport entered) route ⟨.thirds, route.checkpoints⟩ outport =
        .ok (outport, free) ↔ r.countFree outport route = .ok free := by
  simp only [Algorithm.poll, countFree, port, surroundings, wired.selection_eq, bind_eq_ok, mapError_eq_ok,
    orError_eq_ok, orBreach_eq_ok]
  constructor
  · intro ⟨p, present, count, counted, same⟩
    cases same
    exact ⟨p, present, counted⟩
  · intro ⟨p, present, counted⟩
    exact ⟨p, present, free, counted, rfl⟩

theorem Wired.productive_iff (wired : r.Wired place (.adaptive torus rule)) (vnet inport : Nat)
    (entered : Direction) :
    r.Productive torus route dimension outport free ↔
      ∃ sign, Algorithm.Candidate torus (r.surroundings vnet inport entered) route dimension sign outport free := by
  constructor
  · intro productive
    obtain ⟨sign, way, leads⟩ := productive.leads
    exact ⟨sign, productive.within, productive.apart, way, leads,
      (wired.poll_iff vnet inport entered).mpr productive.counted⟩
  · intro ⟨sign, candidate⟩
    exact ⟨candidate.within, candidate.apart, ⟨sign, candidate.way, candidate.leads⟩,
      (wired.poll_iff vnet inport entered).mp candidate.polled⟩

theorem Productive.unique {outport' free' : Nat} (first : r.Productive torus route dimension outport free)
    (second : r.Productive torus route dimension outport' free') : outport = outport' ∧ free = free' := by
  obtain ⟨sign, way, leads⟩ := first.leads
  obtain ⟨sign', way', leads'⟩ := second.leads
  rw [way] at way'
  cases way'
  rw [leads] at leads'
  cases leads'
  have counted := first.counted.symm.trans second.counted
  cases counted
  exact ⟨rfl, rfl⟩

theorem Productive.faces (productive : r.Productive torus route dimension outport free)
    (wired : r.Wired place (.adaptive torus rule)) {p : Port} (present : r.ports[outport]? = some p) :
    p.direction.dimension? = some dimension := by
  obtain ⟨sign, -, leads⟩ := productive.leads
  obtain ⟨p', present', faces⟩ := wired.leads _ _ leads
  rw [present] at present'
  cases present'
  rw [faces]
  rfl

theorem compute_adaptive (wired : r.Wired place (.adaptive torus rule)) (away : route.router ≠ place)
    {entered : Direction} (faces : r.unit.inports.direction? inport = some entered)
    (chosen : (r.compute route inport random).1.outport = .ok outport) :
    ∃ decision random',
      (route.fixDirections torus rule place).run.run random = (.ok (r.compute route inport random).1.route, random') ∧
        Algorithm.decideAdaptive torus (r.surroundings route.vnet inport entered)
          (r.compute route inport random).1.route = .ok decision ∧
        decision.outport = outport := by
  have here := wired.router
  subst here
  unfold compute at chosen ⊢
  rw [faces] at chosen ⊢
  dsimp only at chosen ⊢
  rw [RoutingUnit.computed_away away, wired.algorithm] at chosen ⊢
  obtain ⟨decision, decided, same⟩ := map_eq_ok.mp chosen
  obtain ⟨left, random', fixed, first, whole⟩ := Algorithm.next_adaptive_eq_ok decided
  dsimp only
  rw [whole]
  exact ⟨decision, random', fixed, first, same⟩

theorem exists_selectFree_of_countFree (counted : r.countFree outport route = .ok free) (some_free : 0 < free) :
    ∃ channel s, r.selectFree outport route = .ok (some channel, s) := by
  obtain ⟨p, present, counted⟩ := bind_eq_ok.mp counted
  obtain ⟨_, offered⟩ := (Port.countFree_pos_iff counted).mp some_free
  obtain ⟨channel, q, selected, -⟩ := Port.exists_selectFree_of_offers counted offered
  exact ⟨channel, r.setPort outport q, bind_eq_ok.mpr ⟨p, present, bind_eq_ok.mpr ⟨_, selected, rfl⟩⟩⟩

theorem countFree_compute (r : Router) (route left : Route) (inport outport : Nat) (random : Random) :
    (r.compute route inport random).2.countFree outport left = r.countFree outport left := by
  unfold compute
  cases r.unit.inports.direction? inport with
  | none => rfl
  | some entered =>
    obtain ⟨counts, unit⟩ := r.unit.compute_unit route inport entered r.ports random
    dsimp only
    rw [unit]
    rfl

/-- The port taken is the first least loaded of the productive ports. No dimension without an offset is gone along, and
where any productive port has a free channel, a selection at the port taken gives one. -/
theorem adaptive_port_is_least_loaded (installed : r.Installed place (.adaptive torus rule))
    (away : route.router ≠ place) (chosen : (r.compute route inport random).1.outport = .ok outport) :
    let left := (r.compute route inport random).1.route
    let after := (r.compute route inport random).2
    route.FixedAs left ∧
    (∃ d free, r.Productive torus left d outport free ∧
      (∀ e < torus.dimensions, torus.coordinate place e ≠ torus.coordinate route.router e →
        ∃ outport' free', r.Productive torus left e outport' free' ∧ free' ≤ free ∧ (e < d → free' < free))) ∧
    (∀ p, r.ports[outport]? = some p →
      ∃ d, p.direction.dimension? = some d ∧ torus.coordinate place d ≠ torus.coordinate route.router d) ∧
    (∀ e outport' free', r.Productive torus left e outport' free' → 0 < free' →
      ∃ channel s, after.selectFree outport left = .ok (some channel, s)) := by
  intro left after
  have wired := installed.wired
  obtain ⟨entered, faces⟩ := exists_entered chosen
  obtain ⟨decision, random', settled, decided, rfl⟩ := compute_adaptive wired away faces chosen
  have fixed : route.FixedAs left := Route.fixedAs_fixDirections settled
  obtain ⟨d, sign, free, first, others⟩ := Algorithm.decideAdaptive_first decided
  have productive : r.Productive torus left d decision.outport free :=
    (wired.productive_iff route.vnet inport entered).mpr ⟨sign, first⟩
  have here : r.index = place := wired.router
  have least : ∀ e < torus.dimensions, torus.coordinate place e ≠ torus.coordinate route.router e →
      ∃ outport' free', r.Productive torus left e outport' free' ∧ free' ≤ free ∧ (e < d → free' < free) := by
    intro e within apart
    rw [← here, ← fixed.router] at apart
    obtain ⟨sign', outport', free', other, bound, strict⟩ := others e within apart
    exact ⟨outport', free', (wired.productive_iff route.vnet inport entered).mpr ⟨sign', other⟩, bound, strict⟩
  refine ⟨fixed, ⟨d, free, productive, least⟩, fun p present => ?_, fun e outport' free' other some_free => ?_⟩
  · refine ⟨d, productive.faces wired present, ?_⟩
    rw [← here, ← fixed.router]
    exact productive.apart
  · have apart := other.apart
    rw [here, fixed.router] at apart
    obtain ⟨outport'', free'', again, bound, -⟩ := least e other.within apart
    obtain ⟨-, rfl⟩ := other.unique again
    apply exists_selectFree_of_countFree _ (Nat.lt_of_lt_of_le some_free bound)
    exact (r.countFree_compute route left inport decision.outport random).trans productive.counted

def heldSquare : Router :=
  (planarRouter 2 2 0).loaded fun p => if p.direction.dimension? = some 0 then .empty else ⟨0, 3⟩

theorem held_dimension_is_passed_over :
    heldSquare.Installed 0 (.adaptive ⟨[2, 2]⟩ .shortest) ∧
      let computed := heldSquare.compute (.toward 3 .empty 0) 0 (.ofWords [])
      computed.1.outport = .ok 3 ∧
        ∃ channel s, computed.2.selectFree 3 computed.1.route = .ok (some channel, s) := by
  have built := square_built (by decide : 0 < 4)
  have installed : heldSquare.Installed 0 (.adaptive ⟨[2, 2]⟩ .shortest) :=
    (planarRouter_equipped built).installed.loaded _
  have chosen : (heldSquare.compute (.toward 3 .empty 0) 0 (.ofWords [])).1.outport = .ok 3 := by rfl
  obtain ⟨-, -, -, usable⟩ := adaptive_port_is_least_loaded installed (by decide) chosen
  have productive : heldSquare.Productive ⟨[2, 2]⟩
      (heldSquare.compute (.toward 3 .empty 0) 0 (.ofWords [])).1.route 1 3 2 :=
    ⟨by decide, by decide, ⟨.negative, rfl, rfl⟩, by rfl⟩
  exact ⟨installed, chosen, usable 1 3 2 productive (by decide)⟩

end Router

end Interconnect
