import Mathlib
import Interconnect.Proofs.Network.Course
import Interconnect.Proofs.Routing.Directions

namespace Interconnect

/-- A router of a torus that serves a virtual network and has all its links. -/
structure Router.Equipped (r : Router) (place vnet : Nat) (torus : Grid) (rule : DirectionRule) : Prop where
  installed : r.Installed place (.adaptive torus rule)
  serves : vnet < r.vnets
  linked : ∀ d < torus.dimensions, ∀ sign, ∃ port ∈ r.ports, port.direction = .torus d sign

variable {torus : Grid} {rule : DirectionRule} {signs : List (Option Sign)} {r : Router} {t p : Transit}
  {inport vnet : Nat} {entered : Direction}

def signOf (signs : List (Option Sign)) (dimension : Nat) : Sign := signs[dimension]?.join.getD .positive

theorem Grid.Directs.join_eq {source target dimension : Nat} (directs : torus.Directs source target signs)
    (within : dimension < torus.dimensions) (offset : torus.ahead source target dimension ≠ 0) :
    signs[dimension]?.join = some (signOf signs dimension) := by
  have none_iff := directs.fixed dimension within
  unfold signOf
  cases way : signs[dimension]?.join with
  | none => exact absurd (none_iff.mp way) offset
  | some sign => rfl

namespace Transit

/-- A packet on its way in fixed directions, which it carries on with all that its first router gave it. -/
structure Follows (t p : Transit) (torus : Grid) (signs : List (Option Sign)) : Prop extends
    t.Steered torus (signOf signs) where
  directions : t.route.directions = some signs
  directed : ∀ d < torus.dimensions, torus.coordinate t.place d ≠ torus.coordinate t.route.router d →
    signs[d]?.join = some (signOf signs d)
  vnet : t.route.vnet = p.route.vnet
  minimal : t.route.minimal = p.route.minimal
  random : t.random = p.random

structure Ready (t : Transit) (r : Router) (torus : Grid) : Prop where
  serves : t.route.vnet < r.vnets
  linked : ∀ d < torus.dimensions, torus.coordinate t.place d ≠ torus.coordinate t.route.router d →
    ∃ sign, t.route.direction? d = some sign ∧ ∃ port ∈ r.ports, port.direction = .torus d sign

theorem Ready.exists_candidate (ready : t.Ready r torus) (wired : r.Wired t.place (.adaptive torus rule)) {d : Nat}
    (within : d < torus.dimensions) (apart : torus.coordinate t.place d ≠ torus.coordinate t.route.router d)
    (inport : Nat) (entered : Direction) :
    ∃ sign outport free, Algorithm.Candidate torus (t.around r inport entered) t.route d sign outport free := by
  obtain ⟨sign, way, port, member, faces⟩ := ready.linked d within apart
  obtain ⟨outport, found⟩ := wired.found port member
  rw [faces] at found
  obtain ⟨port', present, _⟩ := wired.leads _ _ found
  obtain ⟨_, channels⟩ := wired.pools port' (List.mem_of_getElem? present)
  obtain ⟨count, counted⟩ := Port.exists_countFree channels ready.serves ⟨.thirds, t.route.checkpoints⟩
  refine ⟨sign, outport, count, within, apart, way, found, ?_⟩
  refine bind_eq_ok.mpr ⟨port', mapError_eq_ok.mpr (orError_eq_ok.mpr present), ?_⟩
  exact bind_eq_ok.mpr ⟨count, mapError_eq_ok.mpr counted, rfl⟩

theorem next_of_directions {s : Surroundings} {route : Route} {random : Random}
    (fixed : route.directions = some signs) :
    (Algorithm.adaptive torus rule).next s route random =
      ⟨Algorithm.decideAdaptive torus s route, route, random⟩ := by
  have kept : (route.fixDirections torus rule s.router).run.run random = (.ok route, random) := by
    rw [Route.fixDirections, fixed]
    rfl
  exact Algorithm.next_adaptive kept

theorem computed_of_directions (wired : r.Wired t.place (.adaptive torus rule)) (away : t.place ≠ t.route.router)
    (fixed : t.route.directions = some signs) :
    t.computed r inport entered =
      ⟨(Algorithm.decideAdaptive torus (t.around r inport entered) t.route).map Decision.outport,
        t.route, t.random⟩ := by
  rw [computed_of_away wired away, next_of_directions fixed]

theorem exists_outport_of_ready (ready : t.Ready r torus) (wired : r.Wired t.place (.adaptive torus rule))
    (away : t.place ≠ t.route.router) (fixed : t.route.directions = some signs) {d : Nat}
    (within : d < torus.dimensions) (apart : torus.coordinate t.place d ≠ torus.coordinate t.route.router d)
    (inport : Nat) (entered : Direction) :
    ∃ decision, Algorithm.decideAdaptive torus (t.around r inport entered) t.route = .ok decision ∧
      (t.computed r inport entered).outport = .ok decision.outport := by
  obtain ⟨decision, decided⟩ := Algorithm.exists_decideAdaptive_eq_ok (s := t.around r inport entered)
    (fun _ within' apart' => ready.exists_candidate wired within' apart' inport entered) ⟨d, within, apart⟩
  refine ⟨decision, decided, ?_⟩
  rw [computed_of_directions wired away fixed, decided]
  rfl

theorem Follows.ready (follows : t.Follows p torus signs) (equipped : r.Equipped t.place p.route.vnet torus rule) :
    t.Ready r torus := by
  refine ⟨follows.vnet ▸ equipped.serves, fun d within apart => ?_⟩
  refine ⟨signOf signs d, ?_, equipped.linked d within (signOf signs d)⟩
  exact (Route.direction?_eq follows.directions d).trans (follows.directed d within apart)

theorem Steered.exists_apart {steering : Nat → Sign} (steered : t.Steered torus steering)
    (away : t.place ≠ t.route.router) :
    ∃ d < torus.dimensions, torus.coordinate t.place d ≠ torus.coordinate t.route.router d := by
  by_contra none
  apply away
  apply Grid.eq_of_coordinate_eq steered.inside steered.target
  intro d within
  by_contra apart
  exact none ⟨d, within, apart⟩

theorem Follows.of_outport (follows : t.Follows p torus signs) (wired : r.Wired t.place (.adaptive torus rule))
    (away : t.place ≠ t.route.router) {outport free d : Nat} {sign : Sign}
    (found : (t.computed r inport entered).outport = .ok outport)
    (candidate : Algorithm.Candidate torus (t.around r inport entered) t.route d sign outport free) :
    ∃ m, t.move torus r inport entered = .ok m ∧ r.ports[outport]? = some m.port ∧ sign = signOf signs d ∧
      t.Approaches torus (.adaptive torus rule) (signOf signs) m d ∧ m.onward.Follows p torus signs := by
  have within := candidate.within
  have apart := candidate.apart
  have way := candidate.way
  rw [Route.direction?_eq follows.directions, follows.directed d within apart] at way
  cases way
  have computed : t.computed r inport entered = _ := computed_of_directions wired away follows.directions
  obtain ⟨m, moved, present, direction, _, random, advances⟩ :=
    move_toward wired rfl follows.inside within found candidate.leads
  rw [computed] at random advances
  have hop : t.Approaches torus (.adaptive torus rule) (signOf signs) m d := ⟨within, apart, direction, advances⟩
  refine ⟨m, moved, present, rfl, hop, hop.steered follows.toSteered, ?_, ?_, ?_, ?_, random.trans follows.random⟩
  · rw [advances.route, Route.advance_directions, follows.directions]
  · intro e within' apart'
    rw [hop.router, advances.coordinate] at apart'
    by_cases here : e = d
    · rw [here]
      exact follows.directed d within apart
    · rw [if_neg here] at apart'
      exact follows.directed e within' apart'
  · rw [advances.route, Route.advance_vnet, follows.vnet]
  · rw [advances.route, Route.advance_minimal, follows.minimal]

theorem Follows.move (follows : t.Follows p torus signs) (equipped : r.Equipped t.place p.route.vnet torus rule)
    (away : t.place ≠ t.route.router) :
    ∃ m dimension, t.move torus r inport entered = .ok m ∧
      t.Approaches torus (.adaptive torus rule) (signOf signs) m dimension ∧ m.onward.Follows p torus signs := by
  have wired := equipped.installed.wired
  obtain ⟨d, within, apart⟩ := follows.toSteered.exists_apart away
  obtain ⟨decision, decided, found⟩ := exists_outport_of_ready (follows.ready equipped) wired away
    follows.directions within apart inport entered
  obtain ⟨e, sign, free, candidate, _⟩ := Algorithm.decideAdaptive_eq_ok decided
  obtain ⟨m, moved, _, _, hop, keeps⟩ := follows.of_outport wired away found candidate
  exact ⟨m, e, moved, hop, keeps⟩

theorem Follows.of_move (follows : t.Follows p torus signs) (wired : r.Wired t.place (.adaptive torus rule))
    (away : t.place ≠ t.route.router) {m : Move} (moved : t.move torus r inport entered = .ok m) :
    ∃ dimension, t.Approaches torus (.adaptive torus rule) (signOf signs) m dimension ∧
      m.onward.Follows p torus signs := by
  obtain ⟨outport, found⟩ := outport_of_move moved
  have decided := found
  rw [computed_of_directions wired away follows.directions] at decided
  obtain ⟨decision, chosen, rfl⟩ := map_eq_ok.mp decided
  obtain ⟨d, sign, free, candidate, _⟩ := Algorithm.decideAdaptive_eq_ok chosen
  obtain ⟨m', moved', _, _, hop, keeps⟩ := follows.of_outport wired away found candidate
  rw [moved] at moved'
  cases moved'
  exact ⟨d, hop, keeps⟩

/-- The packet as its first router makes it, with the directions that are fixed there. -/
structure Settles (t p : Transit) (torus : Grid) (rule : DirectionRule) : Prop where
  place : p.place = t.place
  fixed : (t.route.fixDirections torus rule t.place).run.run t.random = (.ok p.route, p.random)

theorem settles_of_signs {minimal : Bool} {random : Random} (fresh : t.route.directions = none)
    (drawn : (rule.signs (torus.arcs t.place t.route.router)).run.run t.random = (.ok (signs, minimal), random)) :
    t.Settles ⟨t.place, { t.route with directions := some signs, minimal }, random⟩ torus rule :=
  ⟨rfl, (Route.fixDirections_of_none fresh).mpr ⟨signs, minimal, drawn, rfl⟩⟩

theorem exists_signs_of_outport (fresh : t.route.directions = none) (wired : r.Wired t.place (.adaptive torus rule))
    (away : t.place ≠ t.route.router) {outport : Nat} (found : (t.computed r inport entered).outport = .ok outport) :
    ∃ signs minimal random,
      (rule.signs (torus.arcs t.place t.route.router)).run.run t.random = (.ok (signs, minimal), random) := by
  rw [computed_of_away wired away] at found
  obtain ⟨decision, decided, -⟩ := map_eq_ok.mp found
  obtain ⟨left, random, fixed, -⟩ := Algorithm.next_adaptive_eq_ok decided
  obtain ⟨signs, minimal, drawn, -⟩ := (Route.fixDirections_of_none fresh).mp fixed
  exact ⟨signs, minimal, random, drawn⟩

section Settled

variable {minimal : Bool} (settles : t.Settles p torus rule)
  (route : p.route = { t.route with directions := some signs, minimal })
include settles route

theorem computed_settled (wired : r.Wired t.place (.adaptive torus rule)) (away : t.place ≠ t.route.router) :
    t.computed r inport entered = p.computed r inport entered := by
  have router : p.route.router = t.route.router := by rw [route]
  have vnet : p.route.vnet = t.route.vnet := by rw [route]
  have around : p.around r inport entered = t.around r inport entered := by
    simp only [Transit.around, vnet, settles.place]
  have directions : p.route.directions = some signs := by rw [route]
  have next : (Algorithm.adaptive torus rule).next (t.around r inport entered) t.route t.random =
      ⟨Algorithm.decideAdaptive torus (t.around r inport entered) p.route, p.route, p.random⟩ :=
    Algorithm.next_adaptive settles.fixed
  have away' : p.place ≠ p.route.router := by rwa [router, settles.place]
  rw [computed_of_away wired away, computed_of_directions (t := p) (settles.place ▸ wired) away' directions,
    around, next]

/-- The first router fixes the directions and then does what it does with a packet that has them. -/
theorem move_settled (wired : r.Wired t.place (.adaptive torus rule)) (away : t.place ≠ t.route.router) :
    t.move torus r inport entered = p.move torus r inport entered := by
  unfold Transit.move
  rw [computed_settled settles route wired away, settles.place]

theorem settled_follows (inside : t.place < torus.size) (reachable : t.route.router < torus.size)
    (fresh : t.route.checkpoints = []) (directs : torus.Directs t.place t.route.router signs) :
    p.Follows p torus signs := by
  have uncrossed (d : Nat) : p.route.checkpoint d = false := by
    rw [route, Route.checkpoint, fresh]
    rfl
  refine ⟨⟨settles.place ▸ inside, by rwa [route], fun d _ crossed => ?_⟩, by rw [route], ?_, rfl, rfl, rfl⟩
  · exact absurd crossed (Bool.eq_false_iff.mp (uncrossed d))
  · intro d within apart
    rw [route, settles.place] at apart
    apply directs.join_eq within
    exact fun none => apart ((Grid.ahead_eq_zero_iff inside reachable within).mp none)

end Settled

end Transit

theorem remaining_eq_travel {source target : Nat} (inside : source < torus.size) (reachable : target < torus.size)
    (directs : torus.Directs source target signs) (place : t.place = source) (router : t.route.router = target) :
    t.remaining torus (signOf signs) = torus.travel source target signs := by
  rw [Transit.remaining, Grid.travel, place, router]
  apply Finset.sum_congr rfl
  intro d member
  have within := Finset.mem_range.mp member
  have none_iff := directs.fixed d within
  rw [Grid.ahead_eq_zero_iff inside reachable within] at none_iff
  rw [signOf, Grid.ahead]
  cases way : signs[d]?.join with
  | none =>
    rw [none_iff.mp way]
    exact (hopsToward_eq_zero_iff (Grid.coordinate_lt reachable within) (Grid.coordinate_lt reachable within)).mpr rfl
  | some sign =>
    have apart : torus.coordinate source d ≠ torus.coordinate target d := by
      intro same
      rw [none_iff.mpr same] at way
      cases way
    cases sign with
    | positive => rfl
    | negative =>
      exact aheadBy_swap (Grid.coordinate_lt inside within) (Grid.coordinate_lt reachable within) apart

theorem Course.brings_of_equipped {c : Course} (signs : List (Option Sign))
    (equipped : ∀ hop, ∀ place < torus.size, (c.met hop place).Equipped place p.route.vnet torus rule) :
    c.Brings torus (.adaptive torus rule) (signOf signs) fun t => t.Follows p torus signs where
  grid := rfl
  steered := fun _ follows => follows.toSteered
  approaches := fun hop t follows away => follows.move (equipped hop t.place follows.inside) away

/-- A packet arrives over the directions that its first router fixed, whatever random words there are and
whatever the load of the ports is at each hop. -/
theorem adaptive_routing_delivers {c : Course} {source target vnet : Nat} (destination : EndpointSet)
    (random : Random) (short : torus.Short)
    (equipped : ∀ hop, ∀ place < torus.size, (c.met hop place).Equipped place vnet torus rule)
    (inside : source < torus.size) (reachable : target < torus.size) (apart : source ≠ target) :
    ∃ signs first,
      let start : Transit := .injected source target destination vnet random
      let hops := torus.travel source target signs
      c.after torus start 1 = .ok first ∧ torus.Directs source target signs ∧
      (∀ k ≤ hops, ∃ t, c.after torus start k = .ok t ∧ t.route.hops = k ∧ (t.place = target ↔ k = hops) ∧
        (0 < k → t.route.directions = some signs ∧ t.random = first.random ∧
          (t.route.minimal = true ↔ hops = torus.distance source target) ∧
          (rule = .shortest → t.route.minimal = true))) ∧
      ∀ dimension k l, k < hops → l < hops → c.CrossesAt torus (.adaptive torus rule) start dimension k →
        c.CrossesAt torus (.adaptive torus rule) start dimension l → k = l := by
  let start : Transit := .injected source target destination vnet random
  obtain ⟨⟨signs, minimal⟩, random', drawn⟩ := rule.exists_signs_of_short short inside target random
  obtain ⟨directs, minimal_iff, shortest⟩ := DirectionRule.directs_of_signs inside drawn
  let p : Transit := ⟨source, { start.route with directions := some signs, minimal }, random'⟩
  have settles : start.Settles p torus rule := Transit.settles_of_signs rfl drawn
  have follows : p.Follows p torus signs := Transit.settled_follows settles rfl inside reachable rfl directs
  let hops := torus.travel source target signs
  have brings := Course.brings_of_equipped (p := p) signs equipped
  have remaining : p.remaining torus (signOf signs) = hops := remaining_eq_travel inside reachable directs rfl rfl
  have some_hop : 0 < hops := by
    rw [← remaining]
    exact Nat.pos_of_ne_zero fun none => apart (follows.remaining_eq_zero_iff.mp none)
  -- from the first hop on the injected packet and the settled one are the same
  have same_move : c.move torus 0 start = c.move torus 0 p :=
    Transit.move_settled settles rfl (equipped 0 source inside).installed.wired apart
  obtain ⟨first, after_first, keeps_first, _, _⟩ := brings.arrives follows (some_hop.trans_eq remaining.symm)
  refine ⟨signs, first, ?_, directs, ?_, ?_⟩
  · rw [Course.after_succ_eq same_move, after_first]
  · intro k bound
    cases k with
    | zero =>
      refine ⟨start, rfl, rfl, ?_, fun none => absurd none (Nat.lt_irrefl 0)⟩
      exact ⟨fun arrived => absurd arrived apart, fun none => absurd none (Nat.ne_of_lt some_hop)⟩
    | succ k =>
      obtain ⟨t, after, keeps, count, arrived⟩ := brings.arrives follows (bound.trans_eq remaining.symm)
      rw [remaining] at arrived
      refine ⟨t, by rw [Course.after_succ_eq same_move, after], count.trans (Nat.zero_add _), arrived, fun _ => ?_⟩
      rw [keeps.minimal]
      exact ⟨keeps.directions, keeps.random.trans keeps_first.random.symm, minimal_iff, shortest⟩
  · intro dimension k l bound bound' crosses crosses'
    rw [Course.crossesAt_congr same_move settles.place] at crosses crosses'
    exact brings.crosses_once follows (bound.trans_eq remaining.symm) (bound'.trans_eq remaining.symm) crosses crosses'

set_option maxRecDepth 4000 in
theorem adaptive_routing_delivers_across :
    let ports : List Direction := [.torus 0 .positive, .torus 0 .negative, .torus 1 .positive, .torus 1 .negative]
    let wiring : DirectionMap := ⟨ports.zipIdx.reverse⟩
    let router (place : Nat) : Router :=
      ⟨1, ⟨place, .adaptive ⟨[2, 2]⟩ .drawn, .empty, [], wiring, wiring, .zero⟩,
        ports.zipIdx.map fun (direction, i) => .idle i direction 1 3 1, 0⟩
    let c : Course := ⟨fun _ place => router place, fun _ => 0, fun _ => .torus 0 .positive⟩
    Grid.Short ⟨[2, 2]⟩ ∧ (∀ hop, ∀ place < Grid.size ⟨[2, 2]⟩, (c.met hop place).Equipped place 0 ⟨[2, 2]⟩ .drawn) ∧
      ∃ k t, c.after ⟨[2, 2]⟩ (.injected 0 3 .empty 0 (.ofWords [])) k = .ok t ∧ t.place = 3 := by
  intro ports wiring router c
  have equipped : ∀ hop, ∀ place < Grid.size ⟨[2, 2]⟩, (c.met hop place).Equipped place 0 ⟨[2, 2]⟩ .drawn := by
    intro hop place inside
    have bound : place < 4 := inside
    refine ⟨⟨.object "Router" [("virtual_networks", .number .one),
      ("virtual_channels_per_vnet", .number (.ofNat 3)), ("buffer_depth", .number .one),
      ("torus_extents", .array [.number (.ofNat 2), .number (.ofNat 2)]),
      ("routing", .object "GOAL" []), ("ports", .array [.literal "dim0_pos", .literal "dim0_neg",
        .literal "dim1_pos", .literal "dim1_neg"])], router place, ?_, rfl, .refl _⟩, Nat.one_pos, ?_⟩
    · interval_cases place <;> rfl
    · intro d within sign
      have two : d < 2 := within
      interval_cases d <;> cases sign <;> simp [c, router, ports, Port.idle]
  have short : Grid.Short ⟨[2, 2]⟩ := by
    change ∀ side ∈ [2, 2], side ≤ 2 ^ 63
    decide
  obtain ⟨signs, first, _, _, arrives, _⟩ := adaptive_routing_delivers .empty (.ofWords []) short equipped
    (by decide : 0 < Grid.size ⟨[2, 2]⟩) (by decide : 3 < Grid.size ⟨[2, 2]⟩) (by decide)
  obtain ⟨t, after, _, arrived, _⟩ := arrives _ (Nat.le_refl _)
  exact ⟨short, equipped, _, t, after, arrived.mpr rfl⟩

set_option maxRecDepth 4000 in
/-- In the largest torus the sum of the target and the side is not a word. A side that is no float is read as one below
it, and the last router of it is taken for the first. -/
theorem largest_adaptive_torus_overflows :
    ((∀ place < 18446744073709551615, Router.ofValue place (torusSettings "MINAD" 18446744073709551615) =
        .ok (torusOf (.adaptive ⟨[18446744073709551615]⟩ .shortest) place)) ∧
      (aroundTorus (.adaptive ⟨[18446744073709551615]⟩ .shortest)).after ⟨[18446744073709551615]⟩
        (.injected 0 1 .empty 0 (.ofWords [])) 1 = .error (.breach (.overflow .add))) ∧
    ∃ r, Router.ofValue 0 (torusSettings "MINAD" 9007199254740993) = .ok r ∧
      (r.compute (.toward 9007199254740992 .empty 0) 0 (.ofWords [])).1.outport =
        .error (.breach (.routedToItself "adaptive torus" 0)) := by
  have first : Router.ofValue 0 (torusSettings "MINAD" 18446744073709551615) =
    .ok (torusOf (.adaptive ⟨[18446744073709551615]⟩ .shortest) 0) := rfl
  exact ⟨⟨fun place inside => Router.ofValue_elsewhere first inside, rfl⟩, _, rfl, rfl⟩

end Interconnect
