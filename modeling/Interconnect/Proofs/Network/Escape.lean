import Mathlib
import Interconnect.Proofs.Network.Deadlock
import Interconnect.Proofs.Network.Steering

namespace Interconnect

/-- A part of the pool that is open before or behind a wraparound link only. -/
inductive Third where
  | second
  | last
deriving DecidableEq

def Third.span (vnet size : Nat) : Third → Span
  | second => ⟨vnet * size + size / 3, vnet * size + 2 * (size / 3)⟩
  | last => ⟨vnet * size + 2 * (size / 3), vnet * size + size⟩

structure EscapeLane where
  place : Nat
  direction : Direction
  third : Third

structure Transit.Holds (t : Transit) (m : Move) (lane : EscapeLane) : Prop where
  place : t.place = lane.place
  direction : m.port.direction = lane.direction
  given : ∃ channel q, m.port.selectFree t.route.vnet ⟨.thirds, t.route.checkpoints⟩ = .ok (some channel, q) ∧
    channel ∈ lane.third.span t.route.vnet m.port.poolSize

/-- Some packet may hold a channel of one lane on a hop, and on its next hop a channel of another. -/
def EscapeDepends (g : Grid) (rule : DirectionRule) (first second : EscapeLane) : Prop :=
  ∃ t m n, Carried g (.adaptive g rule) t ∧ t.Hops g (.adaptive g rule) m ∧
    m.onward.Hops g (.adaptive g rule) n ∧ t.Holds m first ∧ m.onward.Holds n second

/-- How far around its dimension a lane lies. The third behind the closing link comes a whole round later. -/
def EscapeLane.stage (g : Grid) (lane : EscapeLane) : Nat :=
  match lane.direction.link? with
  | none => 0
  | some (dimension, sign) =>
    let crossed := match lane.third with
      | .second => g.extent dimension
      | .last => 0
    crossed + progress (g.extent dimension) (g.coordinate lane.place dimension) sign

variable {g : Grid} {rule : DirectionRule} {signs : List (Option Sign)} {t u p : Transit} {m : Move}
  {lane first second : EscapeLane} {dimension : Nat}

theorem Third.eq_of_mem {third : Third} {checkpoints : List Bool} {vnet size channel : Nat}
    (among : channel ∈ third.span vnet size)
    (offered : channel ∈ (Selection.spans ⟨.thirds, checkpoints⟩ (some dimension) vnet size).1 ∨
      channel ∈ (Selection.spans ⟨.thirds, checkpoints⟩ (some dimension) vnet size).2) :
    third = if Selection.checkpoint ⟨.thirds, checkpoints⟩ dimension then .second else .last := by
  have within : 3 * (size / 3) ≤ size := Nat.mul_div_le size 3
  simp only [Selection.spans] at offered
  cases third <;> split at offered <;> rename_i crossed <;>
    simp only [crossed, if_true, if_false, Third.span, Span.mem_mk, reduceCtorEq] at * <;> omega

theorem Transit.Holds.third_eq (holds : t.Holds m lane) (faces : m.port.direction.dimension? = some dimension) :
    lane.third = if t.route.checkpoint dimension then .second else .last := by
  obtain ⟨channel, q, given, among⟩ := holds.given
  obtain ⟨-, -, -, offered⟩ := Port.offers_iff.mp (Port.offers_of_selectFree given)
  rw [faces] at offered
  exact Third.eq_of_mem among offered

theorem Transit.Approaches.stage_eq {steering : Nat → Sign}
    (hop : t.Approaches g (.adaptive g rule) steering m dimension) (holds : t.Holds m lane) :
    lane.direction = .torus dimension (steering dimension) ∧ lane.stage g = t.stage g steering dimension := by
  have direction := hop.direction
  have faces : m.port.direction.dimension? = some dimension := by rw [direction]; rfl
  have third := holds.third_eq faces
  rw [holds.direction] at direction
  refine ⟨direction, ?_⟩
  rw [EscapeLane.stage, direction, third, ← holds.place, Transit.stage]
  by_cases crossed : t.route.checkpoint dimension = true <;> simp only [crossed] <;> rfl

/-- A packet makes the hops of another that has been through the same. -/
structure Transit.Mirrors (u t : Transit) (g : Grid) (rule : DirectionRule) : Prop where
  place : t.place = u.place
  router : t.route.router = u.route.router
  vnet : t.route.vnet = u.route.vnet
  checkpoints : t.route.checkpoints = u.route.checkpoints
  move : ∀ r inport entered, r.Wired t.place (.adaptive g rule) → t.place ≠ t.route.router →
    t.move g r inport entered = u.move g r inport entered

namespace Transit.Mirrors

theorem refl (t : Transit) : t.Mirrors t g rule := ⟨rfl, rfl, rfl, rfl, fun _ _ _ _ _ => rfl⟩

theorem holds_iff (mirrors : u.Mirrors t g rule) : u.Holds m lane ↔ t.Holds m lane := by
  constructor
  · rintro ⟨place, direction, given⟩
    rw [← mirrors.vnet, ← mirrors.checkpoints] at given
    exact ⟨mirrors.place.trans place, direction, given⟩
  · rintro ⟨place, direction, given⟩
    rw [mirrors.vnet, mirrors.checkpoints] at given
    exact ⟨mirrors.place.symm.trans place, direction, given⟩

theorem hops_iff (mirrors : u.Mirrors t g rule) :
    u.Hops g (.adaptive g rule) m ↔ t.Hops g (.adaptive g rule) m := by
  unfold Transit.Hops
  rw [← mirrors.place, ← mirrors.router]
  apply and_congr_right
  intro away
  constructor
  · rintro ⟨r, inport, entered, installed, moved⟩
    rw [← mirrors.move r inport entered installed.wired away] at moved
    exact ⟨r, inport, entered, installed, moved⟩
  · rintro ⟨r, inport, entered, installed, moved⟩
    rw [mirrors.move r inport entered installed.wired away] at moved
    exact ⟨r, inport, entered, installed, moved⟩

end Transit.Mirrors

theorem injected_mirrored {source target vnet : Nat} {destination : EndpointSet} {random random' : Random}
    {minimal : Bool} (inside : source < g.size) (reachable : target < g.size)
    (drawn : (rule.signs (g.arcs source target)).run.run random = (.ok (signs, minimal), random')) :
    ∃ u : Transit, u.Mirrors (.injected source target destination vnet random) g rule ∧ u.Follows u g signs := by
  let start : Transit := .injected source target destination vnet random
  let u : Transit := ⟨source, { start.route with directions := some signs, minimal }, random'⟩
  have settles : start.Settles u g rule := Transit.settles_of_signs rfl drawn
  obtain ⟨directs, -⟩ := DirectionRule.directs_of_signs inside drawn
  exact ⟨u, ⟨rfl, rfl, rfl, rfl, fun _ _ _ wired away => Transit.move_settled settles rfl wired away⟩,
    Transit.settled_follows settles rfl inside reachable rfl directs⟩

theorem Transit.Hops.follows (hop : t.Hops g (.adaptive g rule) m) (follows : t.Follows p g signs) :
    ∃ d, t.Approaches g (.adaptive g rule) (signOf signs) m d ∧ m.onward.Follows p g signs := by
  obtain ⟨away, r, inport, entered, installed, moved⟩ := hop
  exact follows.of_move installed.wired away moved

theorem Carried.follows (carried : Carried g (.adaptive g rule) t) (hop : t.Hops g (.adaptive g rule) m) :
    ∃ (u p : Transit) (signs : _), u.Mirrors t g rule ∧ u.Follows p g signs := by
  induction carried generalizing m with
  | injected inside reachable apart =>
    obtain ⟨away, r, inport, entered, installed, moved⟩ := hop
    obtain ⟨outport, found⟩ := Transit.outport_of_move moved
    obtain ⟨signs, minimal, random', drawn⟩ := Transit.exists_signs_of_outport rfl installed.wired away found
    obtain ⟨u, mirrors, follows⟩ := injected_mirrored inside reachable drawn
    exact ⟨u, u, signs, mirrors, follows⟩
  | forwarded carried earlier ih =>
    obtain ⟨u, p, signs, mirrors, follows⟩ := ih earlier
    obtain ⟨d, -, follows⟩ := (mirrors.hops_iff.mpr earlier).follows follows
    exact ⟨_, p, signs, .refl _, follows⟩

theorem EscapeDepends.exists_approaches (depends : EscapeDepends g rule first second) :
    ∃ (t : Transit) (m n : Move) (steering : Nat → Sign) (d e : Nat),
      t.Steered g steering ∧ t.Approaches g (.adaptive g rule) steering m d ∧
        m.onward.Approaches g (.adaptive g rule) steering n e ∧ t.Holds m first ∧ m.onward.Holds n second := by
  obtain ⟨t, m, n, carried, hop, hop', holds, holds'⟩ := depends
  obtain ⟨u, p, signs, mirrors, follows⟩ := carried.follows hop
  obtain ⟨d, approaches, onward⟩ := (mirrors.hops_iff.mpr hop).follows follows
  obtain ⟨e, approaches', -⟩ := hop'.follows onward
  exact ⟨u, m, n, _, d, e, follows.toSteered, approaches, approaches', mirrors.holds_iff.mpr holds, holds'⟩

theorem EscapeDepends.stage_lt (depends : EscapeDepends g rule first second)
    (along : first.direction.dimension? = second.direction.dimension?) : first.stage g < second.stage g := by
  obtain ⟨t, m, n, steering, d, e, steered, hop, hop', holds, holds'⟩ := depends.exists_approaches
  obtain ⟨direction, stage⟩ := hop.stage_eq holds
  obtain ⟨direction', stage'⟩ := hop'.stage_eq holds'
  rw [direction, direction'] at along
  cases along
  rw [stage, stage']
  exact hop.stage_lt steered

theorem Transit.Approaches.two_le_extent {a : Algorithm} {steering : Nat → Sign}
    (hop : t.Approaches g a steering m dimension) (steered : t.Steered g steering) : 2 ≤ g.extent dimension := by
  have here := Grid.coordinate_lt steered.inside hop.within
  have there := Grid.coordinate_lt steered.target hop.within
  have apart := hop.apart
  omega

theorem EscapeDepends.exists_dimensions (depends : EscapeDepends g rule first second) :
    ∃ d e, first.direction.dimension? = some d ∧ second.direction.dimension? = some e ∧
      d < g.dimensions ∧ e < g.dimensions ∧ 2 ≤ g.extent d ∧ 2 ≤ g.extent e := by
  obtain ⟨t, m, n, steering, d, e, steered, hop, hop', holds, holds'⟩ := depends.exists_approaches
  refine ⟨d, e, ?_, ?_, hop.within, hop'.within, hop.two_le_extent steered,
    hop'.two_le_extent (hop.steered steered)⟩
  · rw [(hop.stage_eq holds).1]
    rfl
  · rw [(hop'.stage_eq holds').1]
    rfl

theorem Route.escape_eq (r : Route) (dimension size : Nat) :
    r.escape dimension size = (if r.checkpoint dimension then Third.second else .last).span r.vnet size := by
  unfold escape Selection.spans
  by_cases crossed : r.checkpoint dimension = true
  · rw [if_pos crossed]
    exact if_pos crossed
  · rw [if_neg crossed]
    exact if_neg crossed

/-- For each dimension with an offset there is a load that has a packet hop along it, with a channel that depends on
its checkpoint. -/
theorem Transit.Follows.exists_holds (follows : t.Follows p g signs) {r : Router}
    (equipped : r.Equipped t.place p.route.vnet g rule) (within : dimension < g.dimensions)
    (apart : g.coordinate t.place dimension ≠ g.coordinate t.route.router dimension) :
    ∃ m, t.Hops g (.adaptive g rule) m ∧ t.Approaches g (.adaptive g rule) (signOf signs) m dimension ∧
      m.onward.Follows p g signs ∧
      t.Holds m ⟨t.place, .torus dimension (signOf signs dimension),
        if t.route.checkpoint dimension then .second else .last⟩ := by
  have installed := equipped.installed
  have away : t.place ≠ t.route.router := fun there => apart (by rw [there])
  have way : t.route.direction? dimension = some (signOf signs dimension) :=
    (Route.direction?_eq follows.directions dimension).trans (follows.directed dimension within apart)
  obtain ⟨outport, free, candidate, found⟩ := (follows.ready equipped).exists_outport_opening installed away
    follows.directions within apart way 0 .localPort
  have opened := installed.opening dimension (signOf signs dimension) t.route
  obtain ⟨m, moved, present, -, hop, keeps⟩ := follows.of_outport opened.wired away found candidate
  obtain ⟨q, -, faces, present', counted⟩ := exists_port_of_candidate installed candidate
  rw [present, if_pos faces] at present'
  rw [if_pos faces] at counted
  have some_free := free_pos_of_candidate installed (follows.vnet ▸ equipped.serves) candidate
  obtain ⟨channel, offered⟩ := (Port.countFree_pos_iff counted).mp some_free
  obtain ⟨given, rest, selected, offered⟩ := Port.exists_selectFree_of_offers counted offered
  refine ⟨m, ⟨away, _, 0, .localPort, opened, moved⟩, hop, keeps, rfl, hop.direction, ?_⟩
  rw [Option.some.inj present', ← t.route.escape_eq]
  exact ⟨given, rest, selected, (Port.idleIn_offers.mp offered).2.1⟩

theorem exists_turn {source target vnet d e : Nat} (random : Random) (short : g.Short) (inside : source < g.size)
    (reachable : target < g.size) (equipped : ∀ place < g.size, ∃ r : Router, r.Equipped place vnet g rule)
    (within : d < g.dimensions) (within' : e < g.dimensions) (turns : d ≠ e)
    (apart : g.coordinate source d ≠ g.coordinate target d)
    (apart' : g.coordinate source e ≠ g.coordinate target e) :
    let signs := (rule.chosen (g.offsets source target) random).1
    ∃ next < g.size, EscapeDepends g rule ⟨source, .torus d (signOf signs d), .last⟩
      ⟨next, .torus e (signOf signs e), .last⟩ := by
  intro signs
  obtain ⟨⟨fixed, minimal⟩, random', drawn⟩ := rule.exists_signs_of_short short inside target random
  have same : signs = fixed := congrArg Prod.fst (DirectionRule.signs_eq_ok drawn).1
  rw [← same] at drawn
  obtain ⟨u, mirrors, follows⟩ : ∃ u : Transit,
      u.Mirrors (.injected source target .empty vnet random) g rule ∧ u.Follows u g signs :=
    injected_mirrored inside reachable drawn
  have place : u.place = source := mirrors.place.symm
  have router : u.route.router = target := mirrors.router.symm
  have served : u.route.vnet = vnet := mirrors.vnet.symm
  have fresh (k : Nat) : u.route.checkpoint k = false := by
    rw [Route.checkpoint, ← mirrors.checkpoints]
    rfl
  have away : source ≠ target := fun there => apart (by rw [there])
  obtain ⟨r, here⟩ := equipped source inside
  rw [← place, ← served] at here
  rw [← place, ← router] at apart apart'
  obtain ⟨m, hop, approaches, onward, holds⟩ := follows.exists_holds here within apart
  -- the hop leaves the offset of the other dimension and its checkpoint as they are
  have apart_onward : g.coordinate m.onward.place e ≠ g.coordinate m.onward.route.router e := by
    rw [approaches.advances.coordinate, if_neg turns.symm, approaches.router]
    exact apart'
  have fresh_onward : m.onward.route.checkpoint e = false := by
    rw [approaches.checkpoint, fresh, beq_false_of_ne turns.symm]
    rfl
  obtain ⟨r', there⟩ := equipped m.onward.place approaches.advances.inside
  rw [← served] at there
  obtain ⟨n, hop', -, -, holds'⟩ := onward.exists_holds there within' apart_onward
  rw [fresh, place] at holds
  rw [fresh_onward] at holds'
  refine ⟨m.onward.place, approaches.advances.inside, _, m, n, .injected inside reachable away,
    mirrors.hops_iff.mp hop, hop', mirrors.holds_iff.mp holds, holds'⟩

def Grid.diagonal (g : Grid) (d e : Nat) : List (Nat × Nat) :=
  (List.range g.dimensions).map fun k => (if k = d ∨ k = e then 1 else 0, g.extent k)

theorem aheadBy_nextPlace {side c : Nat} (inside : c < side) (long : 2 ≤ side) :
    aheadBy side c (nextPlace side c .positive) = 1 := by
  rw [aheadBy_eq inside (nextPlace_lt inside .positive), nextPlace_positive inside]
  split <;> split <;> omega

theorem exists_diagonal {source d e : Nat} (inside : source < g.size) (within : d < g.dimensions)
    (within' : e < g.dimensions) (turns : d ≠ e) (long : 2 ≤ g.extent d) (long' : 2 ≤ g.extent e) :
    ∃ target < g.size, g.offsets source target = g.diagonal d e := by
  obtain ⟨beside, _, inside', coordinate⟩ := Grid.neighbour_eq inside within .positive
  obtain ⟨target, _, reachable, coordinate'⟩ := Grid.neighbour_eq inside' within' .positive
  refine ⟨target, reachable, ?_⟩
  apply List.ext_getElem?
  intro k
  by_cases known : k < g.dimensions
  · have here := Grid.coordinate_lt inside known
    have ahead : g.ahead source target k = if k = d ∨ k = e then 1 else 0 := by
      unfold Grid.ahead
      rw [coordinate', coordinate, coordinate]
      by_cases first : k = d
      · subst first
        rw [if_neg turns, if_pos rfl, if_pos (.inl rfl)]
        exact aheadBy_nextPlace here long
      · by_cases second : k = e
        · subst second
          rw [if_pos rfl, if_neg first, if_pos (.inr rfl)]
          exact aheadBy_nextPlace here long'
        · rw [if_neg second, if_neg first, if_neg (by tauto)]
          exact (aheadBy_eq_zero_iff here here).mpr rfl
    rw [Grid.offsets_getElem? known, ahead, Grid.diagonal, List.getElem?_map, List.getElem?_range known]
    rfl
  · rw [List.getElem?_eq_none, List.getElem?_eq_none]
    · rw [Grid.diagonal, List.length_map, List.length_range]
      omega
    · rw [Grid.length_offsets]
      omega

theorem apart_of_diagonal {source target d e k : Nat} (inside : source < g.size) (reachable : target < g.size)
    (within : k < g.dimensions) (diagonal : g.offsets source target = g.diagonal d e) (along : k = d ∨ k = e) :
    g.coordinate source k ≠ g.coordinate target k := by
  have listed : (g.offsets source target)[k]? = _ := Grid.offsets_getElem? within
  rw [diagonal, Grid.diagonal, List.getElem?_map, List.getElem?_range within] at listed
  simp only [Option.map_some, if_pos along, Option.some.injEq, Prod.mk.injEq] at listed
  rw [Ne, ← Grid.ahead_eq_zero_iff inside reachable within]
  omega

theorem exists_transGen_self {size : Nat} {R : Nat → Nat → Prop} (some_place : 0 < size)
    (leads : ∀ a < size, ∃ b < size, R a b) : ∃ a, Relation.TransGen R a a := by
  by_contra none
  let Before (a b : Fin size) : Prop := Relation.TransGen R b a
  have : IsTrans (Fin size) Before := ⟨fun _ _ _ first second => second.trans first⟩
  have : Std.Irrefl Before := ⟨fun a cycle => none ⟨a, cycle⟩⟩
  have founded := Finite.wellFounded_of_trans_of_irrefl Before
  obtain ⟨last, -, least⟩ := founded.has_min Set.univ ⟨⟨0, some_place⟩, trivial⟩
  obtain ⟨b, below, edge⟩ := leads last last.isLt
  exact least ⟨b, below⟩ trivial (.single edge)

theorem exists_escape_cycle {vnet d e : Nat} (some_place : 0 < g.size)
    (equipped : ∀ place < g.size, ∃ r : Router, r.Equipped place vnet g rule) (within : d < g.dimensions)
    (within' : e < g.dimensions) (turns : d ≠ e) (long : 2 ≤ g.extent d) (long' : 2 ≤ g.extent e) :
    ∃ lane, Relation.TransGen (EscapeDepends g rule) lane lane := by
  let signs := (rule.chosen (g.diagonal d e) (.ofWords [])).1
  have short : g.Short := by
    obtain ⟨r, here⟩ := equipped 0 some_place
    exact g.short_of_turn here.installed.bounded (Grid.zero_notMem_of_lt_size some_place) within within' turns long
      long'
  let lane (k place : Nat) : EscapeLane := ⟨place, .torus k (signOf signs k), .last⟩
  -- every packet goes to the place diagonally next to it, so all have the same signs and pass the turns on
  have turns_from : ∀ place < g.size,
      (∃ next < g.size, EscapeDepends g rule (lane d place) (lane e next)) ∧
        ∃ next < g.size, EscapeDepends g rule (lane e place) (lane d next) := by
    intro place inside
    obtain ⟨target, reachable, diagonal⟩ := exists_diagonal inside within within' turns long long'
    have apart := apart_of_diagonal inside reachable within diagonal (.inl rfl)
    have apart' := apart_of_diagonal inside reachable within' diagonal (.inr rfl)
    have turn := exists_turn (.ofWords []) short inside reachable equipped within within' turns apart apart'
    have turn' := exists_turn (.ofWords []) short inside reachable equipped within' within turns.symm apart' apart
    rw [diagonal] at turn turn'
    exact ⟨turn, turn'⟩
  have leads : ∀ place < g.size, ∃ next < g.size,
      Relation.TransGen (EscapeDepends g rule) (lane d place) (lane d next) := by
    intro place inside
    obtain ⟨beside, inside', turn⟩ := (turns_from place inside).1
    obtain ⟨next, inside'', turn'⟩ := (turns_from beside inside').2
    exact ⟨next, inside'', .head turn (.single turn')⟩
  obtain ⟨place, cycle⟩ := exists_transGen_self some_place leads
  exact ⟨lane d place, cycle.lift' (lane d) fun _ _ path => path⟩

theorem not_escape_cycle_within (dimension : Nat) (lane : EscapeLane) :
    ¬ Relation.TransGen (fun first second => EscapeDepends g rule first second ∧
      first.direction.dimension? = some dimension ∧ second.direction.dimension? = some dimension) lane lane :=
  not_transGen_self (EscapeLane.stage g)
    (fun _ _ ⟨depends, along, along'⟩ => depends.stage_lt (along.trans along'.symm)) lane

theorem not_escape_cycle (single : ∀ d < g.dimensions, ∀ e < g.dimensions, 2 ≤ g.extent d → 2 ≤ g.extent e → d = e)
    (lane : EscapeLane) : ¬ Relation.TransGen (EscapeDepends g rule) lane lane := by
  apply not_transGen_self (EscapeLane.stage g)
  intro first second depends
  obtain ⟨d, e, along, along', within, within', long, long'⟩ := depends.exists_dimensions
  rw [single d within e within' long long', ← along'] at along
  exact depends.stage_lt along

/-- The thirds keep packets from waiting for each other in a circle along each dimension, and in the whole of a
torus exactly if it has not two dimensions to turn between. -/
theorem escape_cycle_iff_turns {vnet : Nat} (some_place : 0 < g.size)
    (equipped : ∀ place < g.size, ∃ r : Router, r.Equipped place vnet g rule) :
    (∀ dimension lane, ¬ Relation.TransGen (fun first second => EscapeDepends g rule first second ∧
        first.direction.dimension? = some dimension ∧ second.direction.dimension? = some dimension) lane lane) ∧
      ((∃ lane, Relation.TransGen (EscapeDepends g rule) lane lane) ↔
        ∃ d < g.dimensions, ∃ e < g.dimensions, d ≠ e ∧ 2 ≤ g.extent d ∧ 2 ≤ g.extent e) := by
  refine ⟨not_escape_cycle_within, ?_, ?_⟩
  · rintro ⟨lane, cycle⟩
    by_contra none
    refine not_escape_cycle (fun d within e within' long long' => ?_) lane cycle
    by_contra turns
    exact none ⟨d, within, e, within', turns, long, long'⟩
  · rintro ⟨d, within, e, within', turns, long, long'⟩
    exact exists_escape_cycle some_place equipped within within' turns long long'

/-- In a torus of two by two routers such channels wait for each other in a circle. -/
theorem square_closes_escape_cycle :
    ∃ lane, Relation.TransGen (EscapeDepends ⟨[2, 2]⟩ .shortest) lane lane := by
  have equipped : ∀ place < Grid.size ⟨[2, 2]⟩, ∃ r : Router, r.Equipped place 0 ⟨[2, 2]⟩ .shortest :=
    fun place inside => ⟨planarRouter 2 2 place, planarRouter_equipped (square_built inside)⟩
  have first : 0 < Grid.dimensions ⟨[2, 2]⟩ := by decide
  have second : 1 < Grid.dimensions ⟨[2, 2]⟩ := by decide
  exact exists_escape_cycle (by decide) equipped first second (by decide) (by decide) (by decide)

set_option maxRecDepth 4000 in
theorem pair_closes_no_escape_cycle :
    ¬ ∃ lane, Relation.TransGen (EscapeDepends ⟨[2, 1]⟩ .shortest) lane lane := by
  have equipped : ∀ place < Grid.size ⟨[2, 1]⟩, ∃ r : Router, r.Equipped place 0 ⟨[2, 1]⟩ .shortest := by
    intro place inside
    have two : place < 2 := inside
    refine ⟨planarRouter 2 1 place, planarRouter_equipped ?_⟩
    interval_cases place <;> rfl
  rw [(escape_cycle_iff_turns (by decide) equipped).2]
  rintro ⟨d, within, e, within', turns, long, long'⟩
  have only : ∀ k < 2, 2 ≤ Grid.extent ⟨[2, 1]⟩ k → k = 0 := by decide
  exact turns ((only d within long).trans (only e within' long').symm)

end Interconnect
