import Mathlib
import Interconnect.Proofs.Network.Guidance
import Interconnect.Proofs.Routing.Directions

namespace Interconnect

open Config (Value)

variable {c : Course} {source target side : Nat} {sign : Sign}

theorem hopsToward_eq (inside : source < side) (reachable : target < side) (apart : source ≠ target) :
    hopsToward side source target sign =
      match sign with
      | .positive => aheadBy side source target
      | .negative => side - aheadBy side source target := by
  cases sign with
  | positive => rfl
  | negative => exact aheadBy_swap inside reachable apart

theorem hopsToward_nearer (inside : source < side) (reachable : target < side) :
    hopsToward side source target (if 2 * aheadBy side source target ≤ side then .positive else .negative) =
      min (aheadBy side source target) (side - aheadBy side source target) := by
  by_cases same : source = target
  · have offset := (aheadBy_eq_zero_iff inside reachable).mpr same
    rw [(hopsToward_eq_zero_iff inside reachable).mpr same, offset, Nat.zero_min]
  · rw [hopsToward_eq inside reachable same]
    by_cases near : 2 * aheadBy side source target ≤ side
    · rw [if_pos near]
      dsimp only
      omega
    · rw [if_neg near]
      dsimp only
      omega

/-- The hops around a ring of a packet that goes back from the rounded half on. -/
def ringTravel (side offset : Nat) : Nat := if side / 2 ≤ offset then side - offset else offset

theorem hopsToward_ring (inside : source < side) (reachable : target < side) (apart : source ≠ target) :
    hopsToward side source target (if side / 2 ≤ aheadBy side source target then .negative else .positive) =
      ringTravel side (aheadBy side source target) := by
  rw [hopsToward_eq inside reachable apart, ringTravel]
  by_cases far : side / 2 ≤ aheadBy side source target
  · rw [if_pos far, if_pos far]
  · rw [if_neg far, if_neg far]

theorem ringTravel_shortest_iff {offset : Nat} (short : offset < side) :
    ringTravel side offset = min offset (side - offset) ∧
        ((if side / 2 ≤ offset then Sign.negative else .positive) = .negative ↔ side ≤ 2 * offset) ↔
      2 * offset + 1 ≠ side := by
  unfold ringTravel
  by_cases far : side / 2 ≤ offset
  · simp only [if_pos far, true_iff]
    omega
  · simp only [if_neg far, reduceCtorEq, false_iff]
    omega

theorem size_ring (size : Nat) : Grid.size ⟨[size]⟩ = size := Nat.mul_one size

theorem coordinate_ring {size place : Nat} (inside : place < size) : Grid.coordinate ⟨[size]⟩ place 0 = place :=
  Nat.mod_eq_of_lt inside

section Ring

variable {size vnet d : Nat} {destination : EndpointSet} {random : Random} {signs : Nat → Sign} {t : Transit} {m : Move}

def ringSense (size source target : Nat) : Sign :=
  if size / 2 ≤ aheadBy size source target then .negative else .positive

theorem Transit.injected_ring_guided (inside : source < size) (reachable : target < size) :
    (injected source target destination vnet random).Guided ⟨[size]⟩ (.ring size)
      fun _ => ringSense size source target := by
  have guided : (injected source target destination vnet random).Guided ⟨[size]⟩ (.ring size) _ :=
    injected_guided ((size_ring size).symm ▸ inside) ((size_ring size).symm ▸ reachable)
  refine ⟨⟨guided.inside, guided.target, fun d _ crossed => absurd crossed nofun⟩, fun d within apart => ?_⟩
  have first : d = 0 := Nat.lt_one_iff.mp within
  subst first
  rw [guided.going 0 within apart, coordinate_ring inside, coordinate_ring reachable]
  exact Algorithm.way_ring size _ size

theorem Transit.remaining_ring (inside : t.place < size) (reachable : t.route.router < size) :
    t.remaining ⟨[size]⟩ (fun _ => sign) = hopsToward size t.place t.route.router sign := by
  change ∑ e ∈ Finset.range 1, _ = _
  rw [Finset.sum_range_one, coordinate_ring inside, coordinate_ring reachable]
  rfl

theorem Transit.Approaches.place_ring (hop : t.Approaches ⟨[size]⟩ (.ring size) signs m d) (inside : t.place < size) :
    m.port.direction = .ring (signs 0) ∧ m.onward.place = nextPlace size t.place (signs 0) := by
  have first : d = 0 := Nat.lt_one_iff.mp hop.within
  subst first
  have there := hop.advances.inside
  have moves := hop.advances.coordinate 0
  rw [size_ring] at there
  rw [coordinate_ring there, coordinate_ring inside] at moves
  exact ⟨hop.direction, moves⟩

end Ring

/-- A packet in a ring arrives, all hops toward one sign. They take the shorter way round, and go back exactly from
half of the ring on, if and only if the target is not just short of half of an odd ring. -/
theorem ring_routing_shortest_iff {size : Nat} (vnet : Nat) (destination : EndpointSet) (random : Random)
    (linked : ∀ hop, ∀ place < size, (c.met hop place).Linked place (.ring size) ⟨[size]⟩)
    (inside : source < size) (reachable : target < size) (bounded : target + size < 2 ^ 64)
    (apart : source ≠ target) :
    let d := aheadBy size source target
    let sign : Sign := if size / 2 ≤ d then .negative else .positive
    let hops := ringTravel size d
    (∀ k ≤ hops, ∃ t, c.after ⟨[size]⟩ (.injected source target destination vnet random) k = .ok t ∧
      t.route.hops = k ∧ (t.place = target ↔ k = hops) ∧
      (k < hops → ∃ m, c.move ⟨[size]⟩ k t = .ok m ∧ m.port.direction = .ring sign ∧
        m.onward.place = nextPlace size t.place sign)) ∧
    (hops = min d (size - d) ∧ (sign = .negative ↔ size ≤ 2 * d) ↔ 2 * d + 1 ≠ size) := by
  intro d sign hops
  refine ⟨fun k bound => ?_, ringTravel_shortest_iff (aheadBy_lt (Nat.zero_lt_of_lt inside))⟩
  let start : Transit := .injected source target destination vnet random
  have inRange : (Algorithm.ring size).InRange target := bounded
  have guided : start.Guided ⟨[size]⟩ (.ring size) fun _ => sign := Transit.injected_ring_guided inside reachable
  have brings := Course.brings_guided (c := c) (g := ⟨[size]⟩) rfl (fun _ => sign) fun hop place bound =>
    linked hop place (size_ring size ▸ bound)
  have remaining : start.remaining ⟨[size]⟩ (fun _ => sign) = hops :=
    (Transit.remaining_ring inside reachable).trans (hopsToward_ring inside reachable apart)
  rw [← remaining] at bound ⊢
  obtain ⟨t, after, _, count, arrived⟩ := brings.arrives ⟨guided, inRange⟩ bound
  refine ⟨t, after, count.trans (Nat.zero_add k), arrived, fun going => ?_⟩
  obtain ⟨⟨keeps, _⟩, m, e, moved, hop, _⟩ := brings.goes_on ⟨guided, inRange⟩ going after
  have here : t.place < size := size_ring size ▸ keeps.inside
  exact ⟨m, moved, hop.place_ring here⟩

def ringSettings (size : Nat) : Value :=
  .object "Router" [("virtual_networks", .number .one), ("virtual_channels_per_vnet", .number (.ofNat 2)),
    ("buffer_depth", .number .one), ("ring_size", .number (.ofNat size)), ("routing", .object "Ring" []),
    ("ports", .array [.literal "East", .literal "West"])]

def ringOf (size place : Nat) : Router :=
  let wiring : DirectionMap := ⟨[(.ring .negative, 1), (.ring .positive, 0)]⟩
  ⟨1, ⟨place, .ring size, .empty, [], wiring, wiring, .zero⟩,
    [.idle 0 (.ring .positive) 1 2 1, .idle 1 (.ring .negative) 1 2 1], 0⟩

def aroundRing (size : Nat) : Course := ⟨fun _ place => ringOf size place, fun _ => 0, fun _ => .ring .positive⟩

theorem aroundRing_linked {size : Nat}
    (built : ∀ place < size, Router.ofValue place (ringSettings size) = .ok (ringOf size place)) :
    ∀ hop, ∀ place < size, ((aroundRing size).met hop place).Linked place (.ring size) ⟨[size]⟩ := by
  intro _ place inside
  have installed : (ringOf size place).Installed place (.ring size) := ⟨_, _, built place inside, rfl, .refl _⟩
  refine ⟨installed.wired, fun d _ sign => ?_⟩
  cases sign with
  | positive => exact ⟨_, List.mem_cons_self, rfl⟩
  | negative => exact ⟨_, List.mem_cons_of_mem _ List.mem_cons_self, rfl⟩

set_option maxRecDepth 4000 in
theorem ringOf_three_built : ∀ place < 3, Router.ofValue place (ringSettings 3) = .ok (ringOf 3 place) := by
  have first : Router.ofValue 0 (ringSettings 3) = .ok (ringOf 3 0) := rfl
  exact fun place inside => Router.ofValue_elsewhere first inside

theorem ring_of_three_goes_back :
    (∀ hop, ∀ place < 3, ((aroundRing 3).met hop place).Linked place (.ring 3) ⟨[3]⟩) ∧
      ∃ t, (aroundRing 3).after ⟨[3]⟩ (.injected 0 2 .empty 0 (.ofWords [])) 1 = .ok t ∧ t.place = 2 := by
  have linked := aroundRing_linked ringOf_three_built
  have delivered := (ring_routing_shortest_iff 0 .empty (.ofWords []) linked (by decide : 0 < 3)
    (by decide : 2 < 3) (by decide) (by decide)).1
  obtain ⟨t, after, _, arrived, _⟩ := delivered 1 (by decide)
  exact ⟨linked, t, after, arrived.mpr (by decide)⟩

set_option maxRecDepth 4000 in
/-- The target is the next router ahead, and the packet goes around by the other one. -/
theorem ring_of_three_goes_around :
    (∀ place < 3, Router.ofValue place (ringSettings 3) = .ok (ringOf 3 place)) ∧
      2 * aheadBy 3 0 1 < 3 ∧ min (aheadBy 3 0 1) (3 - aheadBy 3 0 1) = 1 ∧
      ((aroundRing 3).move ⟨[3]⟩ 0 (.injected 0 1 .empty 0 (.ofWords []))).map (·.port.direction) =
        .ok (.ring .negative) ∧
      ((aroundRing 3).after ⟨[3]⟩ (.injected 0 1 .empty 0 (.ofWords [])) 1).map (·.place) = .ok 2 ∧
      ((aroundRing 3).after ⟨[3]⟩ (.injected 0 1 .empty 0 (.ofWords [])) 2).map (·.place) = .ok 1 := by
  refine ⟨ringOf_three_built, by decide, by decide, ?_, ?_, ?_⟩ <;> rfl

/-- In dimension order a packet arrives over the distance, by the nearer way in each dimension and one dimension after
the other. -/
theorem dimension_order_delivers {torus : Grid} (vnet : Nat) (destination : EndpointSet) (random : Random)
    (short : torus.Short)
    (linked : ∀ hop, ∀ place < torus.size, (c.met hop place).Linked place (.dimensionOrder torus) torus)
    (inside : source < torus.size) (reachable : target < torus.size) :
    let start : Transit := .injected source target destination vnet random
    let hops := torus.distance source target
    let sign (d : Nat) : Sign := if 2 * torus.ahead source target d ≤ torus.extent d then .positive else .negative
    (∀ k ≤ hops, ∃ t, c.after torus start k = .ok t ∧ t.route.hops = k ∧ (t.place = target ↔ k = hops) ∧
      (k < hops → ∃ m d, c.move torus k t = .ok m ∧ t.Approaches torus (.dimensionOrder torus) sign m d)) ∧
    (∀ k l t u m n d e, k ≤ l → l < hops →
      c.after torus start k = .ok t → c.move torus k t = .ok m → m.port.direction.dimension? = some d →
      c.after torus start l = .ok u → c.move torus l u = .ok n → n.port.direction.dimension? = some e → d ≤ e) ∧
    ∀ d k l, k < hops → l < hops → c.CrossesAt torus (.dimensionOrder torus) start d k →
      c.CrossesAt torus (.dimensionOrder torus) start d l → k = l := by
  intro start hops sign
  have oblivious : (Algorithm.dimensionOrder torus).obliviousGrid? = some torus := rfl
  have guided : start.Guided torus (.dimensionOrder torus) sign := by
    refine ⟨⟨inside, reachable, fun d _ crossed => absurd crossed nofun⟩, fun d within apart => ?_⟩
    exact Algorithm.way_dimensionOrder torus _ _
  have inRange : (Algorithm.dimensionOrder torus).InRange start.route.router := short
  have brings := Course.brings_guided (c := c) oblivious sign linked
  have remaining : start.remaining torus sign = hops := by
    apply Finset.sum_congr rfl
    intro d member
    have within := Finset.mem_range.mp member
    exact hopsToward_nearer (Grid.coordinate_lt inside within) (Grid.coordinate_lt reachable within)
  rw [← remaining]
  refine ⟨fun k bound => ?_, ?_, ?_⟩
  · obtain ⟨t, after, _, count, arrived⟩ := brings.arrives ⟨guided, inRange⟩ bound
    refine ⟨t, after, count.trans (Nat.zero_add k), arrived, fun going => ?_⟩
    obtain ⟨_, m, d, moved, hop, _⟩ := brings.goes_on ⟨guided, inRange⟩ going after
    exact ⟨m, d, moved, hop⟩
  · intro k l t u m n d e later bound after moved first after' moved' second
    exact Course.dimension_le oblivious linked guided inRange later bound after moved first after' moved' second
  · intro d k l bound bound' crosses crosses'
    exact brings.crosses_once ⟨guided, inRange⟩ bound bound' crosses crosses'

set_option maxRecDepth 4000 in
theorem dimension_order_delivers_across :
    let ports : List Direction := [.torus 0 .positive, .torus 0 .negative, .torus 1 .positive, .torus 1 .negative]
    let wiring : DirectionMap := ⟨ports.zipIdx.reverse⟩
    let router (place : Nat) : Router :=
      ⟨1, ⟨place, .dimensionOrder ⟨[3, 2]⟩, .empty, [], wiring, wiring, .zero⟩,
        ports.zipIdx.map fun (direction, i) => .idle i direction 1 2 1, 0⟩
    let c : Course := ⟨fun _ place => router place, fun _ => 0, fun _ => .torus 0 .positive⟩
    Grid.Short ⟨[3, 2]⟩ ∧
      (∀ hop, ∀ place < Grid.size ⟨[3, 2]⟩, (c.met hop place).Linked place (.dimensionOrder ⟨[3, 2]⟩) ⟨[3, 2]⟩) ∧
      ∃ t, c.after ⟨[3, 2]⟩ (.injected 0 5 .empty 0 (.ofWords [])) 2 = .ok t ∧ t.place = 5 := by
  intro ports wiring router c
  have linked : ∀ hop, ∀ place < Grid.size ⟨[3, 2]⟩,
      (c.met hop place).Linked place (.dimensionOrder ⟨[3, 2]⟩) ⟨[3, 2]⟩ := by
    intro hop place inside
    have bound : place < 6 := inside
    have installed : (router place).Installed place (.dimensionOrder ⟨[3, 2]⟩) := by
      refine ⟨.object "Router" [("virtual_networks", .number .one),
        ("virtual_channels_per_vnet", .number (.ofNat 2)), ("buffer_depth", .number .one),
        ("torus_extents", .array [.number (.ofNat 3), .number (.ofNat 2)]),
        ("routing", .object "DOR" []), ("ports", .array [.literal "dim0_pos", .literal "dim0_neg",
          .literal "dim1_pos", .literal "dim1_neg"])], router place, ?_, rfl, .refl _⟩
      interval_cases place <;> rfl
    refine ⟨installed.wired, fun d within sign => ?_⟩
    have two : d < 2 := within
    interval_cases d <;> cases sign <;> simp [c, router, ports, Port.idle, Algorithm.toward]
  have short : Grid.Short ⟨[3, 2]⟩ := by
    change ∀ side ∈ [3, 2], side ≤ 2 ^ 63
    decide
  have delivered := (dimension_order_delivers 0 .empty (.ofWords []) short linked
    (by decide : 0 < Grid.size ⟨[3, 2]⟩) (by decide : 5 < Grid.size ⟨[3, 2]⟩)).1
  obtain ⟨t, after, _, arrived, _⟩ := delivered 2 (by decide)
  exact ⟨short, linked, t, after, arrived.mpr (by decide)⟩

set_option maxRecDepth 4000 in
/-- In the largest torus that can be built the sum of the target and the side is not a word. A side that is no float
is read as one below it, and the last router of it is taken for the first. -/
theorem largest_torus_overflows :
    ((∀ place < 18446744073709551615, Router.ofValue place (torusSettings "DOR" 18446744073709551615) =
        .ok (torusOf (.dimensionOrder ⟨[18446744073709551615]⟩) place)) ∧
      (aroundTorus (.dimensionOrder ⟨[18446744073709551615]⟩)).after ⟨[18446744073709551615]⟩
        (.injected 0 1 .empty 0 (.ofWords [])) 1 = .error (.breach (.overflow .add))) ∧
    ∃ r, Router.ofValue 0 (torusSettings "DOR" 9007199254740993) = .ok r ∧
      (r.compute (.toward 9007199254740992 .empty 0) 0 (.ofWords [])).1.outport =
        .error (.breach (.routedToItself "DOR" 0)) := by
  have first : Router.ofValue 0 (torusSettings "DOR" 18446744073709551615) =
    .ok (torusOf (.dimensionOrder ⟨[18446744073709551615]⟩) 0) := rfl
  exact ⟨⟨fun place inside => Router.ofValue_elsewhere first inside, rfl⟩, _, rfl, rfl⟩

end Interconnect
