import Mathlib
import Interconnect.Proofs.Network.Crossings
import Interconnect.Proofs.Network.Deadlock
import Interconnect.Proofs.Network.ShortestWays

namespace Interconnect

variable {c : Course} {g : Grid} {a : Algorithm} {signs : Nat → Sign} {t u : Transit} {m : Move} {d k : Nat}

namespace Course.Brings

variable {P : Transit → Prop} (brings : c.Brings g a signs P)
include brings

theorem keeping {Q : Transit → Prop} (keeps : ∀ t m d, Q t → t.Approaches g a signs m d → Q m.onward) :
    c.Brings g a signs fun t => P t ∧ Q t where
  grid := brings.grid
  steered := fun t has => brings.steered t has.1
  approaches := by
    intro hop t has away
    rcases brings.approaches hop t has.1 away with ⟨m, d, moved, approaches, next⟩
    exact ⟨m, d, moved, approaches, next, keeps t m d has.2 approaches⟩

end Course.Brings

section Ring

variable {size source target vnet : Nat} {destination : EndpointSet} {random : Random} {sign : Sign}

theorem Transit.Obeys.spans_ring (obeys : t.Obeys ⟨[size]⟩ (.ring size) signs m d) :
    m.spans = ((if t.route.checkpoint 0 then Half.lower else .upper).span t.route.vnet m.port.poolSize, .empty) := by
  have first : d = 0 := Nat.lt_one_iff.mp obeys.within
  subst first
  rw [obeys.spans, obeys.direction]
  change (if t.route.checkpoint 0 then _ else _, _) = _
  cases t.route.checkpoint 0 <;> rfl

theorem hopsToward_ring_lt (inside : source < size) (reachable : target < size) (apart : source ≠ target) :
    hopsToward size source target sign < size := by
  have ahead := aheadBy_lt (c := source) (t := target) (Nat.zero_lt_of_lt inside)
  have offset : aheadBy size source target ≠ 0 := fun none =>
    apart ((aheadBy_eq_zero_iff inside reachable).mp none)
  rw [hopsToward_eq inside reachable apart]
  cases sign with
  | positive => exact ahead
  | negative =>
    dsimp only
    omega

/-- A packet in a ring arrives with less than a round, all hops in one direction. It takes channels of the upper half
up to the link that closes the ring, which it goes over at most once, and of the lower half behind it. -/
theorem ring_travels_one_way (vnet : Nat) (destination : EndpointSet) (random : Random)
    (linked : ∀ hop, ∀ place < size, (c.met hop place).Linked place (.ring size) ⟨[size]⟩)
    (inside : source < size) (reachable : target < size) (bounded : target + size < 2 ^ 64)
    (apart : source ≠ target) :
    let start : Transit := .injected source target destination vnet random
    let crosses (hop : Nat) : Prop := c.CrossesAt ⟨[size]⟩ (.ring size) start 0 hop
    let d := aheadBy size source target
    let sign : Sign := ringSense size source target
    let hops := match sign with
      | .positive => d
      | .negative => size - d
    hops < size ∧
      (∀ k ≤ hops, ∃ t, c.after ⟨[size]⟩ start k = .ok t ∧ t.route.hops = k ∧ (t.place = target ↔ k = hops) ∧
        (t.route.checkpoint 0 = true ↔ ∃ j < k, crosses j) ∧
        (k < hops → ∃ m half, c.move ⟨[size]⟩ k t = .ok m ∧ m.port.direction = .ring sign ∧
          m.onward.place = nextPlace size t.place sign ∧
          m.spans = (Half.span vnet m.port.poolSize half, .empty) ∧ (half = .lower ↔ ∃ j < k, crosses j) ∧
          (vnet < (c.met k t.place).vnets → ((c.met k t.place).unit.selection t.route).ranges
            m.port.direction.dimension? vnet m.port.poolSize = .ok m.spans))) ∧
      ∀ k l, k < hops → l < hops → crosses k → crosses l → k = l := by
  intro start crosses d sign hops
  have oblivious : (Algorithm.ring size).obliviousGrid? = some ⟨[size]⟩ := rfl
  have linked' : ∀ hop, ∀ place < Grid.size ⟨[size]⟩, (c.met hop place).Linked place (.ring size) ⟨[size]⟩ :=
    fun hop place bound => linked hop place (size_ring size ▸ bound)
  have brings := (Course.brings_guided oblivious (fun _ => sign) linked').keeping
    (Q := fun t => t.route.vnet = vnet ∧ t.route.router = target) fun t m d kept hop => by
      rw [hop.advances.route, Route.advance_vnet, Route.advance_router]
      exact kept
  have guided : start.Guided ⟨[size]⟩ (.ring size) fun _ => sign := Transit.injected_ring_guided inside reachable
  have whole : hopsToward size source target sign = hops := hopsToward_eq inside reachable apart
  have remaining : start.remaining ⟨[size]⟩ (fun _ => sign) = hops :=
    (Transit.remaining_ring inside reachable).trans whole
  have fresh : ¬ start.route.checkpoint 0 = true := nofun
  have has : (start.Guided ⟨[size]⟩ (.ring size) (fun _ => sign) ∧ (Algorithm.ring size).InRange target) ∧
      start.route.vnet = vnet ∧ start.route.router = target := ⟨⟨guided, bounded⟩, rfl, rfl⟩
  refine ⟨whole ▸ hopsToward_ring_lt inside reachable apart, fun k bound => ?_, fun k l bound bound' => ?_⟩
  · rw [← remaining] at bound ⊢
    rcases brings.arrives has bound with ⟨t, after, ⟨⟨guided', -⟩, vnet_kept, router⟩, count, arrived⟩
    have crossed : t.route.checkpoint 0 = true ↔ ∃ j < k, crosses j :=
      (brings.checkpoint_iff has bound after).trans (or_iff_right fresh)
    refine ⟨t, after, count.trans (Nat.zero_add k), arrived, crossed, fun going => ?_⟩
    rcases brings.goes_on has going after with ⟨_, m, e, moved, hop, _⟩
    have place : t.place < size := size_ring size ▸ guided'.inside
    have away : t.place ≠ t.route.router := fun there => hop.apart (by rw [there])
    rcases guided'.obeys oblivious (linked k t.place place).wired away moved with ⟨_, obeys⟩
    rcases hop.place_ring place with ⟨direction, next⟩
    have wired := (linked k t.place place).wired
    refine ⟨m, if t.route.checkpoint 0 then .lower else .upper, moved, direction, next, ?_, ?_, fun served => ?_⟩
    · rw [obeys.spans_ring, vnet_kept]
    · rw [← crossed]
      cases t.route.checkpoint 0 <;> simp
    · have kept : (t.computed (c.met k t.place) (c.inport k) (c.entered k)).route = t.route := by
        rw [Transit.computed_of_away wired away]
        rfl
      have open_to := Transit.ranges_of_move wired moved (by rwa [kept, vnet_kept])
      rwa [kept, vnet_kept] at open_to
  · rw [← remaining] at bound bound'
    exact fun crosses crosses' => brings.crosses_once has bound bound' crosses crosses'

theorem ring_of_three_closes_first :
    (∀ hop, ∀ place < 3, ((aroundRing 3).met hop place).Linked place (.ring 3) ⟨[3]⟩) ∧
      ∃ t m, (aroundRing 3).after ⟨[3]⟩ (.injected 0 1 .empty 0 (.ofWords [])) 1 = .ok t ∧
        (aroundRing 3).move ⟨[3]⟩ 1 t = .ok m ∧ t.route.checkpoint 0 = true ∧ m.onward.place = 1 ∧
        m.spans = (Half.span 0 m.port.poolSize .lower, .empty) := by
  have linked := aroundRing_linked ringOf_three_built
  have travelled := (ring_travels_one_way 0 .empty (.ofWords []) linked (by decide : 0 < 3) (by decide : 1 < 3)
    (by decide) (by decide)).2.1
  rcases travelled 1 (by decide) with ⟨t, after, -, -, crossed, goes_on⟩
  rcases goes_on (by decide) with ⟨m, half, moved, -, next, spans, lower, -⟩
  have first : (aroundRing 3).CrossesAt ⟨[3]⟩ (.ring 3) (.injected 0 1 .empty 0 (.ofWords [])) 0 0 :=
    ⟨_, _, rfl, rfl, .ring_first⟩
  have earlier := crossed.mpr ⟨0, by decide, first⟩
  have behind : t.place = 2 := by
    have same : (aroundRing 3).after ⟨[3]⟩ (.injected 0 1 .empty 0 (.ofWords [])) 1 = .ok _ := rfl
    cases same.symm.trans after
    rfl
  rw [lower.mpr ⟨0, by decide, first⟩] at spans
  rw [behind] at next
  exact ⟨linked, t, m, after, moved, earlier, next, spans⟩

set_option maxRecDepth 4000 in
/-- In the largest ring that can be built the sum of the target and the size is not a word. A size that is no float is
read as one below it, and the last router of it is taken for the first. -/
theorem largest_ring_overflows :
    ((∀ place < 18446744073709551615, Router.ofValue place (ringSettings 18446744073709551615) =
        .ok (ringOf 18446744073709551615 place)) ∧
      (aroundRing 18446744073709551615).after ⟨[18446744073709551615]⟩ (.injected 0 1 .empty 0 (.ofWords [])) 1 =
        .error (.breach (.overflow .add))) ∧
    ∃ r, Router.ofValue 0 (ringSettings 9007199254740993) = .ok r ∧
      (r.compute (.toward 9007199254740992 .empty 0) 0 (.ofWords [])).1.outport =
        .error (.breach (.routedToItself "Ring" 0)) := by
  have first : Router.ofValue 0 (ringSettings 18446744073709551615) = .ok (ringOf 18446744073709551615 0) := rfl
  exact ⟨⟨fun place inside => Router.ofValue_elsewhere first inside, rfl⟩, _, rfl, rfl⟩

end Ring

end Interconnect
