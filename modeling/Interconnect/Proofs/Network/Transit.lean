import Mathlib
import Interconnect.Proofs.Geometry.Grid
import Interconnect.Proofs.Router.Wiring
import Interconnect.Proofs.Routing.Decision

namespace Interconnect

namespace Route

def advance (r : Route) (dimension : Nat) (closes : Bool) : Route :=
  let moved := { r with hops := r.hops + 1 }
  if closes then moved.setCheckpoint dimension else moved

variable (r : Route) (dimension other : Nat) (closes : Bool)

theorem checkpoint_setCheckpoint :
    (r.setCheckpoint dimension).checkpoint other = (r.checkpoint other || other == dimension) := by
  unfold setCheckpoint checkpoint
  have padded :
      dimension < (r.checkpoints ++ List.replicate (dimension + 1 - r.checkpoints.length) false).length := by
    rw [List.length_append, List.length_replicate]
    omega
  rw [List.getElem?_set]
  by_cases same : dimension = other
  · subst same
    rw [if_pos rfl, if_pos padded, Option.getD_some, beq_self_eq_true, Bool.or_true]
  · rw [if_neg same, beq_false_of_ne (Ne.symm same), Bool.or_false, List.getElem?_append]
    split
    · rfl
    · rename_i beyond
      rw [List.getElem?_eq_none (Nat.le_of_not_lt beyond), List.getElem?_replicate]
      split <;> rfl

theorem checkpoint_advance :
    (r.advance dimension closes).checkpoint other = (r.checkpoint other || other == dimension && closes) := by
  cases closes with
  | true => rw [Bool.and_true]; exact checkpoint_setCheckpoint _ dimension other
  | false => rw [Bool.and_false, Bool.or_false]; rfl

@[simp] theorem advance_router : (r.advance dimension closes).router = r.router := by cases closes <;> rfl

@[simp] theorem advance_vnet : (r.advance dimension closes).vnet = r.vnet := by cases closes <;> rfl

@[simp] theorem advance_directions : (r.advance dimension closes).directions = r.directions := by
  cases closes <;> rfl

@[simp] theorem advance_minimal : (r.advance dimension closes).minimal = r.minimal := by cases closes <;> rfl

@[simp] theorem advance_hops : (r.advance dimension closes).hops = r.hops + 1 := by cases closes <;> rfl

end Route

def Grid.behind (g : Grid) (router : Nat) (direction : Direction) : Except Breach Nat :=
  match direction.link? with
  | none => .ok router
  | some (dimension, sign) => g.neighbour router dimension sign

structure Transit where
  place : Nat
  route : Route
  random : Random

structure Move where
  port : Port
  spans : Span × Span
  onward : Transit

namespace Transit

def injected (source target : Nat) (destination : EndpointSet) (vnet : Nat) (random : Random) : Transit :=
  ⟨source, .toward target destination vnet, random⟩

def computed (t : Transit) (r : Router) (inport : Nat) (entered : Direction) : Computed :=
  (r.unit.compute t.route inport entered r.ports t.random).1

def move (t : Transit) (g : Grid) (r : Router) (inport : Nat) (entered : Direction) : Except Failure Move := do
  let computed := t.computed r inport entered
  let outport ← computed.outport
  let port ← (r.port outport).mapError .breach
  let place ← (g.behind t.place port.direction).mapError .breach
  let spans := (r.unit.selection computed.route).spans port.direction.dimension? computed.route.vnet port.poolSize
  return ⟨port, spans, ⟨place, r.nextHop computed.route outport, computed.random⟩⟩

variable {t : Transit} {g : Grid} {r : Router} {a : Algorithm} {inport outport : Nat} {entered : Direction}
  {dimension : Nat} {sign : Sign}

theorem behind_toward (grid : a.grid? = some g) (inside : t.place < g.size) (within : dimension < g.dimensions)
    (sign : Sign) :
    ∃ next, g.behind t.place (a.toward dimension sign) = .ok next ∧ next < g.size ∧
      ∀ d, g.coordinate next d = if d = dimension
        then nextPlace (g.extent dimension) (g.coordinate t.place dimension) sign
        else g.coordinate t.place d := by
  obtain ⟨next, found, beyond⟩ := Grid.neighbour_eq inside within sign
  refine ⟨next, ?_, beyond⟩
  unfold Grid.behind
  rw [Algorithm.link?_toward grid within sign]
  exact found

theorem wraparound?_toward (grid : a.grid? = some g) (inside : t.place < g.size) (within : dimension < g.dimensions)
    (sign : Sign) :
    a.wraparound? t.place (a.toward dimension sign) =
      if closesRing (g.extent dimension) (g.coordinate t.place dimension) sign then some dimension else none := by
  cases a with
  | ring size =>
    cases grid
    have first : dimension = 0 := Nat.lt_one_iff.mp within
    have bound : t.place < size := by simpa [Grid.size] using inside
    have place : Grid.coordinate ⟨[size]⟩ t.place 0 = t.place := Nat.mod_eq_of_lt bound
    rw [first, place]
    rfl
  | dimensionOrder torus => cases grid; exact Grid.wraparound?_torus within sign
  | adaptive torus rule => cases grid; exact Grid.wraparound?_torus within sign
  | table => cases grid
  | mesh columns rows => cases grid

theorem nextHop_toward (wired : r.Wired t.place a) (grid : a.grid? = some g) (inside : t.place < g.size)
    (within : dimension < g.dimensions) {port : Port} (present : r.ports[outport]? = some port)
    (faces : port.direction = a.toward dimension sign) (route : Route) :
    r.nextHop route outport =
      route.advance dimension (closesRing (g.extent dimension) (g.coordinate t.place dimension) sign) := by
  have linked : a.toward dimension sign ≠ .localPort := by cases a <;> exact nofun
  rw [Router.nextHop, RoutingUnit.nextHop, wired.faces outport port present, faces, wired.algorithm, wired.router]
  simp only [if_neg linked]
  rw [wraparound?_toward grid inside within sign]
  cases closesRing (g.extent dimension) (g.coordinate t.place dimension) sign <;> rfl

/-- A hop along a dimension, with the route that was computed for it. -/
structure Advances (t : Transit) (g : Grid) (route : Route) (dimension : Nat) (sign : Sign) (u : Transit) : Prop where
  inside : u.place < g.size
  coordinate : ∀ d, g.coordinate u.place d = if d = dimension
    then nextPlace (g.extent dimension) (g.coordinate t.place dimension) sign else g.coordinate t.place d
  route : u.route =
    route.advance dimension (closesRing (g.extent dimension) (g.coordinate t.place dimension) sign)

def around (t : Transit) (r : Router) (inport : Nat) (entered : Direction) : Surroundings :=
  ⟨t.place, r.unit.table, r.unit.isOrdered t.route.vnet, inport, entered, r.unit.outports, r.ports⟩

theorem computed_of_away (wired : r.Wired t.place a) (away : t.place ≠ t.route.router) :
    t.computed r inport entered =
      ⟨(a.next (t.around r inport entered) t.route t.random).decision.map Decision.outport,
        (a.next (t.around r inport entered) t.route t.random).route,
        (a.next (t.around r inport entered) t.route t.random).random⟩ := by
  have other : ¬ t.route.router = r.unit.router := by
    rw [wired.router]
    exact Ne.symm away
  unfold computed RoutingUnit.compute
  rw [← wired.algorithm]
  simp only [around, ← wired.router]
  exact congrArg Prod.fst (if_neg other)

theorem outport_of_move {m : Move} (moved : t.move g r inport entered = .ok m) :
    ∃ outport, (t.computed r inport entered).outport = .ok outport := by
  obtain ⟨outport, computed, _⟩ := bind_eq_ok.mp moved
  exact ⟨outport, computed⟩

theorem ranges_of_move {m : Move} (wired : r.Wired t.place a) (moved : t.move g r inport entered = .ok m)
    (served : (t.computed r inport entered).route.vnet < r.vnets) :
    (r.unit.selection (t.computed r inport entered).route).ranges m.port.direction.dimension?
      (t.computed r inport entered).route.vnet m.port.poolSize = .ok m.spans := by
  obtain ⟨outport, -, rest⟩ := bind_eq_ok.mp moved
  obtain ⟨port, present, rest⟩ := bind_eq_ok.mp rest
  obtain ⟨place, -, same⟩ := bind_eq_ok.mp rest
  cases same
  have present := orBreach_eq_ok.mp (mapError_eq_ok.mp present)
  obtain ⟨-, pools⟩ := wired.pools port (List.mem_of_getElem? present)
  obtain ⟨bounded, -⟩ := Word.mul_eq_ok.mp pools
  apply Selection.ranges_eq
  rw [← Nat.succ_mul]
  exact Nat.lt_of_le_of_lt (Nat.mul_le_mul_right _ served) bounded

theorem move_toward (wired : r.Wired t.place a) (grid : a.grid? = some g) (inside : t.place < g.size)
    (within : dimension < g.dimensions) (found : (t.computed r inport entered).outport = .ok outport)
    (leads : r.unit.outports.index? (a.toward dimension sign) = some outport) :
    ∃ m, t.move g r inport entered = .ok m ∧ r.ports[outport]? = some m.port ∧
      m.port.direction = a.toward dimension sign ∧
      m.spans = Selection.spans ⟨a.partition, (t.computed r inport entered).route.checkpoints⟩
        (a.toward dimension sign).dimension? (t.computed r inport entered).route.vnet m.port.poolSize ∧
      m.onward.random = (t.computed r inport entered).random ∧
      t.Advances g (t.computed r inport entered).route dimension sign m.onward := by
  obtain ⟨port, present, faces⟩ := wired.leads _ _ leads
  obtain ⟨next, behind, inside', coordinate⟩ := behind_toward grid inside within sign
  let computed := t.computed r inport entered
  have hop := nextHop_toward wired grid inside within present faces computed.route
  have moved : t.move g r inport entered = .ok ⟨port,
      (r.unit.selection computed.route).spans port.direction.dimension? computed.route.vnet port.poolSize,
      next, r.nextHop computed.route outport, computed.random⟩ := by
    refine bind_eq_ok.mpr ⟨outport, found, ?_⟩
    refine bind_eq_ok.mpr ⟨port, mapError_eq_ok.mpr (orBreach_eq_ok.mpr present), ?_⟩
    exact bind_eq_ok.mpr ⟨next, mapError_eq_ok.mpr (faces ▸ behind), rfl⟩
  refine ⟨_, moved, present, faces, ?_, rfl, inside', coordinate, hop⟩
  rw [← faces, RoutingUnit.selection, wired.algorithm]

/-- A packet that goes one way in each dimension: the target lies onward where the wraparound link was taken. -/
structure Steered (t : Transit) (g : Grid) (signs : Nat → Sign) : Prop where
  inside : t.place < g.size
  target : t.route.router < g.size
  onward : ∀ d < g.dimensions, t.route.checkpoint d = true →
    Onward (g.coordinate t.place d) (g.coordinate t.route.router d) (signs d)

/-- How far the packet has come around a dimension. The closing link counts for a whole round. -/
def stage (t : Transit) (g : Grid) (signs : Nat → Sign) (dimension : Nat) : Nat :=
  (if t.route.checkpoint dimension then g.extent dimension else 0) +
    progress (g.extent dimension) (g.coordinate t.place dimension) (signs dimension)

def remaining (t : Transit) (g : Grid) (signs : Nat → Sign) : Nat :=
  ∑ d ∈ Finset.range g.dimensions,
    hopsToward (g.extent d) (g.coordinate t.place d) (g.coordinate t.route.router d) (signs d)

/-- A hop of a steered packet along a dimension in which it is not at its target yet. -/
structure Approaches (t : Transit) (g : Grid) (a : Algorithm) (signs : Nat → Sign) (m : Move) (dimension : Nat) :
    Prop where
  within : dimension < g.dimensions
  apart : g.coordinate t.place dimension ≠ g.coordinate t.route.router dimension
  direction : m.port.direction = a.toward dimension (signs dimension)
  advances : t.Advances g t.route dimension (signs dimension) m.onward

section Steered

variable {signs : Nat → Sign} {m : Move}

theorem Steered.not_closes (steered : t.Steered g signs) (within : dimension < g.dimensions)
    (apart : g.coordinate t.place dimension ≠ g.coordinate t.route.router dimension)
    (crossed : t.route.checkpoint dimension = true) :
    closesRing (g.extent dimension) (g.coordinate t.place dimension) (signs dimension) = false :=
  ((steered.onward dimension within crossed).next (Grid.coordinate_lt steered.inside within)
    (Grid.coordinate_lt steered.target within) apart).1

namespace Approaches

theorem router (hop : t.Approaches g a signs m dimension) : m.onward.route.router = t.route.router := by
  rw [hop.advances.route, Route.advance_router]

theorem checkpoint (hop : t.Approaches g a signs m dimension) (d : Nat) :
    m.onward.route.checkpoint d = (t.route.checkpoint d ||
      d == dimension && closesRing (g.extent dimension) (g.coordinate t.place dimension) (signs dimension)) := by
  rw [hop.advances.route, Route.checkpoint_advance]

theorem steered (hop : t.Approaches g a signs m dimension) (steered : t.Steered g signs) :
    m.onward.Steered g signs := by
  refine ⟨hop.advances.inside, hop.router ▸ steered.target, fun d within crossed => ?_⟩
  rw [hop.checkpoint] at crossed
  rw [hop.router, hop.advances.coordinate]
  by_cases here : d = dimension
  · subst here
    have source := Grid.coordinate_lt steered.inside within
    have target := Grid.coordinate_lt steered.target within
    rw [if_pos rfl]
    rw [beq_self_eq_true, Bool.true_and, Bool.or_eq_true] at crossed
    rcases crossed with old | closes
    · exact ((steered.onward d within old).next source target hop.apart).2
    · exact onward_of_closesRing closes source target
  · rw [if_neg here]
    rw [beq_false_of_ne here, Bool.false_and, Bool.or_false] at crossed
    exact steered.onward d within crossed

theorem stage_lt (hop : t.Approaches g a signs m dimension) (steered : t.Steered g signs) :
    t.stage g signs dimension < m.onward.stage g signs dimension := by
  have inside := Grid.coordinate_lt steered.inside hop.within
  simp only [stage, hop.checkpoint, hop.advances.coordinate, if_pos, beq_self_eq_true, Bool.true_and]
  cases closes : closesRing (g.extent dimension) (g.coordinate t.place dimension) (signs dimension) with
  | false =>
    rw [progress_nextPlace inside closes, Bool.or_false]
    omega
  | true =>
    -- the closing link is taken once, so the checkpoint is set here for the first time
    have fresh : t.route.checkpoint dimension = false := by
      by_contra crossed
      have closed := steered.not_closes hop.within hop.apart (Bool.eq_true_of_not_eq_false crossed)
      exact absurd (closes.symm.trans closed) nofun
    have before := progress_lt inside (signs dimension)
    rw [fresh, Bool.or_true, if_pos rfl, if_neg nofun]
    omega

theorem remaining (hop : t.Approaches g a signs m dimension) (steered : t.Steered g signs) :
    m.onward.remaining g signs + 1 = t.remaining g signs := by
  have member : dimension ∈ Finset.range g.dimensions := Finset.mem_range.mpr hop.within
  have nearer := hopsToward_nextPlace (Grid.coordinate_lt steered.inside hop.within)
    (Grid.coordinate_lt steered.target hop.within) hop.apart (signs dimension)
  simp only [Transit.remaining]
  rw [← Finset.add_sum_erase _ _ member, ← Finset.add_sum_erase _ _ member, hop.router, hop.advances.coordinate,
    if_pos rfl, ← nearer]
  have others : ∀ d ∈ (Finset.range g.dimensions).erase dimension,
      hopsToward (g.extent d) (g.coordinate m.onward.place d) (g.coordinate t.route.router d) (signs d) =
        hopsToward (g.extent d) (g.coordinate t.place d) (g.coordinate t.route.router d) (signs d) := by
    intro d other
    rw [hop.advances.coordinate, if_neg (Finset.ne_of_mem_erase other)]
  rw [Finset.sum_congr rfl others]
  omega

end Approaches

theorem Steered.remaining_eq_zero_iff (steered : t.Steered g signs) :
    t.remaining g signs = 0 ↔ t.place = t.route.router := by
  simp only [remaining, Finset.sum_eq_zero_iff, Finset.mem_range]
  constructor
  · intro none
    apply Grid.eq_of_coordinate_eq steered.inside steered.target
    intro d within
    exact (hopsToward_eq_zero_iff (Grid.coordinate_lt steered.inside within)
      (Grid.coordinate_lt steered.target within)).mp (none d within)
  · intro arrived d within
    rw [arrived]
    exact (hopsToward_eq_zero_iff (Grid.coordinate_lt steered.target within)
      (Grid.coordinate_lt steered.target within)).mpr rfl

end Steered

end Transit

end Interconnect
