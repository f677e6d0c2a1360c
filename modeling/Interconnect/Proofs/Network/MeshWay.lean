import Mathlib
import Interconnect.Proofs.Geometry.Mesh
import Interconnect.Proofs.Router.Safety

namespace Interconnect

def Direction.back : Direction → Direction
  | mesh axis sign => mesh axis sign.opposite
  | direction => direction

def Direction.beyond (columns router : Nat) : Direction → Nat
  | mesh axis sign => axis.beyond columns router sign
  | _ => router

/-- A router of a mesh with a port and an input port for each link. -/
structure Router.Meshed (r : Router) (place columns : Nat) (rows : Option Nat) (inport : Direction → Nat) : Prop where
  wired : r.Wired place (.mesh columns rows)
  outports : ∀ axis sign, ∃ port ∈ r.ports, port.direction = .mesh axis sign
  inports : ∀ axis sign, r.unit.inports.direction? (inport (.mesh axis sign)) = some (.mesh axis sign)

/-- A packet at a router that it came into by a port facing some direction. -/
structure Visit where
  place : Nat
  entered : Direction
  route : Route
  random : Random

namespace Visit

def injected (source target : Nat) (destination : EndpointSet) (vnet : Nat) (random : Random) : Visit :=
  ⟨source, .localPort, .toward target destination vnet, random⟩

def move (v : Visit) (columns : Nat) (r : Router) (inport : Nat) : Except Failure (Direction × Visit) := do
  let computed := (r.compute v.route inport v.random).1
  let outport ← computed.outport
  let port ← (r.port outport).mapError .breach
  return (port.direction, ⟨port.direction.beyond columns v.place, port.direction.back,
    r.nextHop computed.route outport, computed.random⟩)

variable {v : Visit} {r : Router} {columns : Nat} {rows : Option Nat} {inport : Direction → Nat} {axis : Axis}
  {sign : Sign}

theorem exists_move (meshed : r.Meshed v.place columns rows inport)
    (entry : r.unit.inports.direction? (inport v.entered) = some v.entered)
    (step : meshStep columns v.place v.route.router = .ok (some (axis, sign))) (admits : axis.Admits sign v.entered)
    (away : v.route.router ≠ v.place) :
    ∃ next, v.move columns r (inport v.entered) = .ok (.mesh axis sign, next) ∧
      next.place = axis.beyond columns v.place sign ∧ next.entered = .mesh axis sign.opposite ∧
      next.route = { v.route with hops := v.route.hops + 1 } := by
  have wired := meshed.wired
  rcases meshed.outports axis sign with ⟨port, member, faces⟩
  rcases wired.found port member with ⟨outport, found⟩
  rw [faces] at found
  rcases wired.leads _ _ found with ⟨port, present, direction⟩
  have computed : (r.compute v.route (inport v.entered) v.random).1 = ⟨.ok outport, v.route, v.random⟩ := by
    unfold Router.compute
    rw [entry]
    change (r.unit.compute v.route _ v.entered r.ports v.random).1 = _
    rw [RoutingUnit.computed_away (wired.router ▸ away), wired.algorithm, wired.router]
    simp only [Algorithm.next]
    rw [Algorithm.decideMesh_eq step admits, Algorithm.map_outport, Surroundings.outport, found]
    rfl
  have hop : r.nextHop v.route outport = { v.route with hops := v.route.hops + 1 } := by
    rw [Router.nextHop, RoutingUnit.nextHop, wired.faces outport port present, direction, wired.algorithm]
    rfl
  refine ⟨⟨axis.beyond columns v.place sign, .mesh axis sign.opposite, r.nextHop v.route outport, v.random⟩, ?_, rfl,
    rfl, hop⟩
  unfold move
  rw [computed]
  apply bind_eq_ok.mpr ⟨outport, rfl, ?_⟩
  apply bind_eq_ok.mpr ⟨port, mapError_eq_ok.mpr (orBreach_eq_ok.mpr present), ?_⟩
  rw [direction]
  rfl

end Visit

structure Tour where
  met : Nat → Nat → Router
  inport : Nat → Nat → Direction → Nat

namespace Tour

def move (c : Tour) (columns hop : Nat) (v : Visit) : Except Failure (Direction × Visit) :=
  v.move columns (c.met hop v.place) (c.inport hop v.place v.entered)

def after (c : Tour) (columns : Nat) (start : Visit) : Nat → Except Failure Visit
  | 0 => .ok start
  | hop + 1 => do return (← c.move columns hop (← c.after columns start hop)).2

end Tour

def Visit.remaining (v : Visit) (columns : Nat) : Nat :=
  Axis.x.distance columns v.place v.route.router + Axis.y.distance columns v.place v.route.router

/-- A packet between source and target that stays in the row of its source until it is in the column of its target,
and came in by the local port or over a link toward the target. -/
structure Visit.Between (v : Visit) (columns source target : Nat) : Prop where
  router : v.route.router = target
  within : InRectangle columns source target v.place
  row : Axis.x.coordinate columns v.place ≠ Axis.x.coordinate columns target →
    Axis.y.coordinate columns v.place = Axis.y.coordinate columns source
  entered : v.entered = .localPort ∨ ∃ axis : Axis,
    v.entered = .mesh axis (axis.sense columns source target).opposite ∧
      (axis = .y → Axis.x.coordinate columns v.place = Axis.x.coordinate columns target)

structure Visit.Turns (v : Visit) (columns target : Nat) (axis : Axis) : Prop where
  apart : axis.coordinate columns v.place ≠ axis.coordinate columns target
  column : axis = .y → Axis.x.coordinate columns v.place = Axis.x.coordinate columns target
  step : meshStep columns v.place target = .ok (some (axis, axis.sense columns v.place target))

namespace Visit

variable {v : Visit} {columns source target : Nat} {axis : Axis}

theorem exists_turns (positive : 0 < columns) (away : v.place ≠ target) : ∃ axis, v.Turns columns target axis := by
  have step := meshStep_eq (Nat.ne_of_gt positive) v.place target
  by_cases across : Axis.x.coordinate columns v.place = Axis.x.coordinate columns target
  · have along : Axis.y.coordinate columns v.place ≠ Axis.y.coordinate columns target := by
      intro same
      apply away
      apply eq_of_coordinate_eq columns
      intro axis
      cases axis <;> assumption
    rw [if_neg (not_not.mpr across), if_pos along] at step
    exact ⟨.y, along, fun _ => across, step⟩
  · rw [if_pos across] at step
    exact ⟨.x, across, nofun, step⟩

namespace Between

theorem injected (vnet : Nat) (destination : EndpointSet) (random : Random) :
    (Visit.injected source target destination vnet random).Between columns source target :=
  ⟨rfl, inRectangle_source columns source target, fun _ => rfl, .inl rfl⟩

theorem admits (between : v.Between columns source target) (turns : v.Turns columns target axis) :
    axis.Admits (axis.sense columns v.place target) v.entered := by
  rw [between.within.sense_eq turns.apart]
  rcases between.entered with here | ⟨other, entered, column⟩
  · rw [here]
    cases axis with
    | x => exact .inl rfl
    | y => exact nofun
  · rw [entered]
    cases axis with
    | x =>
      cases other with
      | x => exact .inr rfl
      | y => exact absurd (column rfl) turns.apart
    | y =>
      cases other with
      | x => exact nofun
      | y => cases Axis.y.sense columns source target <;> exact nofun

theorem next (between : v.Between columns source target) (turns : v.Turns columns target axis) (positive : 0 < columns)
    {u : Visit} (place : u.place = axis.beyond columns v.place (axis.sense columns v.place target))
    (entered : u.entered = .mesh axis (axis.sense columns v.place target).opposite)
    (router : u.route.router = v.route.router) : u.Between columns source target := by
  have leads := leads_beyond positive turns.apart
  rw [← place] at leads
  have across : axis = .y → Axis.x.coordinate columns u.place = Axis.x.coordinate columns target := by
    rintro rfl
    rw [leads.across .x nofun, turns.column rfl]
  refine ⟨router.trans between.router, between.within.next turns.apart leads, fun apart => ?_, .inr ⟨axis, ?_, across⟩⟩
  · cases axis with
    | x =>
      rw [leads.across .y nofun]
      exact between.row turns.apart
    | y => exact absurd (across rfl) apart
  · rw [entered, between.within.sense_eq turns.apart]

theorem remaining_next (between : v.Between columns source target) (turns : v.Turns columns target axis)
    (positive : 0 < columns) {u : Visit}
    (place : u.place = axis.beyond columns v.place (axis.sense columns v.place target))
    (router : u.route.router = v.route.router) : u.remaining columns + 1 = v.remaining columns := by
  have nearer := distance_beyond positive turns.apart
  have across := (leads_beyond positive turns.apart).across
  rw [← place] at nearer across
  unfold remaining
  rw [router, between.router]
  cases axis with
  | x =>
    have same : Axis.y.distance columns u.place target = Axis.y.distance columns v.place target := by
      rw [Axis.distance, across .y (by decide), Axis.distance]
    omega
  | y =>
    have same : Axis.x.distance columns u.place target = Axis.x.distance columns v.place target := by
      rw [Axis.distance, across .x (by decide), Axis.distance]
    omega

theorem remaining_eq_zero_iff (between : v.Between columns source target) :
    v.remaining columns = 0 ↔ v.place = target := by
  rw [remaining, between.router, Nat.add_eq_zero_iff, distance_eq_zero_iff, distance_eq_zero_iff]
  constructor
  · rintro ⟨across, along⟩
    apply eq_of_coordinate_eq columns
    intro axis
    cases axis <;> assumption
  · rintro rfl
    exact ⟨rfl, rfl⟩

end Between

theorem Between.axis_eq_x_iff (between : v.Between columns source target) (turns : v.Turns columns target axis)
    {k : Nat} (left : v.remaining columns + k =
      Axis.x.distance columns source target + Axis.y.distance columns source target) :
    axis = .x ↔ k < Axis.x.distance columns source target := by
  rw [remaining, between.router] at left
  cases axis with
  | x =>
    have row : Axis.y.distance columns v.place target = Axis.y.distance columns source target := by
      rw [Axis.distance, between.row turns.apart, Axis.distance]
    have offset : Axis.x.distance columns v.place target ≠ 0 := mt distance_eq_zero_iff.mp turns.apart
    simp only [true_iff]
    omega
  | y =>
    have column := distance_eq_zero_iff.mpr (turns.column rfl)
    have bound := between.within.distance_le .y
    simp only [reduceCtorEq, false_iff]
    omega

end Visit

section Delivery

variable {c : Tour} {v : Visit} {columns source target hop k : Nat} {rows : Option Nat}

def Tour.Lets (c : Tour) (hop : Nat) (v : Visit) : Prop :=
  (c.met hop v.place).unit.inports.direction? (c.inport hop v.place v.entered) = some v.entered

structure Visit.Nears (v next : Visit) (columns source target : Nat) (axis : Axis) (sign : Sign) : Prop where
  turns : v.Turns columns target axis
  leads : axis.Leads columns v.place next.place sign
  entered : next.entered = .mesh axis sign.opposite
  between : next.Between columns source target
  nearer : next.remaining columns + 1 = v.remaining columns
  hops : next.route.hops = v.route.hops + 1

theorem Visit.Between.exists_nears (between : v.Between columns source target) (positive : 0 < columns)
    (meshed : (c.met hop v.place).Meshed v.place columns rows (c.inport hop v.place)) (lets : c.Lets hop v)
    (away : v.place ≠ target) :
    ∃ axis sign next, c.move columns hop v = .ok (.mesh axis sign, next) ∧
      v.Nears next columns source target axis sign := by
  rcases exists_turns positive away with ⟨axis, turns⟩
  have step := between.router.symm ▸ turns.step
  have off : v.route.router ≠ v.place := between.router.symm ▸ Ne.symm away
  rcases v.exists_move meshed lets step (between.router.symm ▸ between.admits turns) off with
    ⟨next, moved, place, entered, route⟩
  rw [between.router] at moved place entered
  have router : next.route.router = v.route.router := by rw [route]
  refine ⟨axis, _, next, moved, turns, place ▸ leads_beyond positive turns.apart, entered, ?_, ?_, by rw [route]⟩
  · exact between.next turns positive place entered router
  · exact between.remaining_next turns positive place router

theorem Tour.exists_after (positive : 0 < columns) (between : v.Between columns source target) (lets : c.Lets 0 v)
    (meshed : ∀ hop place, InRectangle columns source target place →
      (c.met hop place).Meshed place columns rows (c.inport hop place))
    (bound : k ≤ v.remaining columns) :
    ∃ u, c.after columns v k = .ok u ∧ u.Between columns source target ∧ c.Lets k u ∧
      u.remaining columns + k = v.remaining columns ∧ u.route.hops = v.route.hops + k := by
  induction k with
  | zero => exact ⟨v, rfl, between, lets, rfl, rfl⟩
  | succ k ih =>
    rcases ih (Nat.le_of_succ_le bound) with ⟨u, before, has, admitted, left, hops⟩
    have away : u.place ≠ target := by
      rw [Ne, ← has.remaining_eq_zero_iff]
      omega
    rcases has.exists_nears positive (meshed k u.place has.within) admitted away with ⟨axis, sign, next, moved, nears⟩
    have after : c.after columns v (k + 1) = .ok next :=
      bind_eq_ok.mpr ⟨u, before, bind_eq_ok.mpr ⟨_, moved, rfl⟩⟩
    refine ⟨next, after, nears.between, ?_, by have nearer := nears.nearer; omega, by rw [nears.hops, hops]; rfl⟩
    unfold Tour.Lets
    rw [nears.entered]
    exact (meshed (k + 1) next.place nears.between.within).inports axis _

/-- In a mesh a packet arrives over the distance, all hops along its row before those along the column of its target,
without leaving the rectangle between them. -/
theorem mesh_routing_delivers (vnet : Nat) (destination : EndpointSet) (random : Random) (positive : 0 < columns)
    (meshed : ∀ hop place, InRectangle columns source target place →
      (c.met hop place).Meshed place columns rows (c.inport hop place))
    (entry : (c.met 0 source).unit.inports.direction? (c.inport 0 source .localPort) = some .localPort) :
    let start : Visit := .injected source target destination vnet random
    let across := Axis.x.distance columns source target
    let hops := across + Axis.y.distance columns source target
    (∀ k ≤ hops, ∃ v, c.after columns start k = .ok v ∧ v.route.hops = k ∧ (v.place = target ↔ k = hops) ∧
      InRectangle columns source target v.place ∧
      (k < hops → ∃ axis sign next, c.move columns k v = .ok (.mesh axis sign, next) ∧
        sign.Steps (axis.stride columns) v.place next.place ∧ next.entered = .mesh axis sign.opposite ∧
        (axis = .x ↔ k < across))) ∧
    ∀ height place, InRectangle columns source target place → source < height * columns →
      target < height * columns → place < height * columns := by
  intro start across hops
  have between : start.Between columns source target := .injected vnet destination random
  have total : start.remaining columns = hops := rfl
  refine ⟨fun k bound => ?_, fun height place within inside reachable => within.inside inside reachable⟩
  rcases c.exists_after positive between entry meshed (total ▸ bound) with ⟨v, after, has, lets, left, count⟩
  have arrived : v.place = target ↔ k = hops := by
    rw [← has.remaining_eq_zero_iff]
    omega
  refine ⟨v, after, count.trans (Nat.zero_add k), arrived, has.within, fun going => ?_⟩
  have away : v.place ≠ target := mt arrived.mp (Nat.ne_of_lt going)
  rcases has.exists_nears positive (meshed k v.place has.within) lets away with ⟨axis, sign, next, moved, nears⟩
  exact ⟨axis, sign, next, moved, nears.leads.number, nears.entered, has.axis_eq_x_iff nears.turns (left.trans total)⟩

end Delivery

def meshPorts : List Direction :=
  [.localPort, .mesh .x .positive, .mesh .x .negative, .mesh .y .positive, .mesh .y .negative]

def meshOfSix (place : Nat) : Router :=
  let wiring : DirectionMap := ⟨meshPorts.zipIdx.reverse⟩
  ⟨1, ⟨place, .mesh 3 (some 2), .empty, [], wiring, wiring, .zero⟩,
    meshPorts.zipIdx.map fun (direction, i) => .idle i direction 1 1 1, 0⟩

def acrossSix : Tour := ⟨fun _ place => meshOfSix place, fun _ _ direction => meshPorts.idxOf direction⟩

set_option maxRecDepth 4000 in
theorem meshOfSix_meshed {place : Nat} (inside : place < 2 * 3) :
    (meshOfSix place).Meshed place 3 (some 2) fun direction => meshPorts.idxOf direction := by
  have installed : (meshOfSix place).Installed place (.mesh 3 (some 2)) := by
    refine ⟨.object "Router" [("virtual_networks", .number .one), ("virtual_channels_per_vnet", .number .one),
      ("buffer_depth", .number .one), ("mesh_columns", .number (.ofNat 3)), ("mesh_rows", .number (.ofNat 2)),
      ("routing", .object "XY" []), ("ports", .array [.literal "Local", .literal "East", .literal "West",
        .literal "North", .literal "South"])], meshOfSix place, ?_, rfl, .refl _⟩
    interval_cases place <;> rfl
  refine ⟨installed.wired, fun axis sign => ?_, fun axis sign => ?_⟩
  · cases axis <;> cases sign <;> simp [meshOfSix, meshPorts, Port.idle]
  · cases axis <;> cases sign <;> rfl

theorem mesh_routing_delivers_across_six :
    (∀ hop place, InRectangle 3 5 0 place →
      (acrossSix.met hop place).Meshed place 3 (some 2) (acrossSix.inport hop place)) ∧
      (acrossSix.met 0 5).unit.inports.direction? (acrossSix.inport 0 5 .localPort) = some .localPort ∧
      ∃ v, acrossSix.after 3 (.injected 5 0 .empty 0 (.ofWords [])) 3 = .ok v ∧ v.place = 0 := by
  have meshed : ∀ hop place, InRectangle 3 5 0 place →
      (acrossSix.met hop place).Meshed place 3 (some 2) (acrossSix.inport hop place) := fun _ _ within =>
    meshOfSix_meshed (within.inside (by decide) (by decide))
  have delivered := (mesh_routing_delivers 0 .empty (.ofWords []) (by decide) meshed rfl).1
  rcases delivered 3 (by decide) with ⟨v, after, -, arrived, -⟩
  exact ⟨meshed, rfl, v, after, arrived.mpr (by decide)⟩

end Interconnect
