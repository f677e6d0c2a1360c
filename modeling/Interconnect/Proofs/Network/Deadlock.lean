import Mathlib
import Interconnect.Proofs.Network.Guidance

namespace Interconnect

/-- A part of the pool of a virtual network, at a port of an algorithm that splits the pool by the wraparound. -/
inductive Half where
  | lower
  | upper
deriving DecidableEq

def Half.span (vnet size : Nat) : Half → Span
  | lower => ⟨vnet * size, vnet * size + size / 2⟩
  | upper => ⟨vnet * size + size / 2, vnet * size + size⟩

/-- The link of a router in a direction, with a half of the channels behind it. -/
structure Lane where
  place : Nat
  direction : Direction
  half : Half

def Transit.Hops (t : Transit) (g : Grid) (a : Algorithm) (m : Move) : Prop :=
  t.place ≠ t.route.router ∧ ∃ r inport entered, r.Installed t.place a ∧ t.move g r inport entered = .ok m

/-- The packets that come up, from anywhere to anywhere else and through routers in any state. -/
inductive Carried (g : Grid) (a : Algorithm) : Transit → Prop where
  | injected {source target vnet : Nat} {destination : EndpointSet} {random : Random} (inside : source < g.size)
      (reachable : target < g.size) (apart : source ≠ target) :
      Carried g a (.injected source target destination vnet random)
  | forwarded {t : Transit} {m : Move} (carried : Carried g a t) (hop : t.Hops g a m) : Carried g a m.onward

structure Transit.Takes (t : Transit) (m : Move) (lane : Lane) : Prop where
  place : t.place = lane.place
  direction : m.port.direction = lane.direction
  spans : m.spans = (lane.half.span t.route.vnet m.port.poolSize, .empty)

/-- Some packet makes one hop on a lane and its next hop on another. -/
def Depends (g : Grid) (a : Algorithm) (first second : Lane) : Prop :=
  ∃ t m n, Carried g a t ∧ t.Hops g a m ∧ m.onward.Hops g a n ∧ t.Takes m first ∧ m.onward.Takes n second

def Lane.rank (g : Grid) (lane : Lane) : ℕ ×ₗ ℕ :=
  match lane.direction.link? with
  | none => toLex (0, 0)
  | some (dimension, sign) =>
    let crossed := match lane.half with
      | .lower => g.extent dimension
      | .upper => 0
    toLex (dimension, crossed + progress (g.extent dimension) (g.coordinate lane.place dimension) sign)

variable {g : Grid} {a : Algorithm} {signs : Nat → Sign} {t u : Transit} {m : Move}

theorem Transit.Hops.obeys (hop : t.Hops g a m) (oblivious : a.obliviousGrid? = some g)
    (guided : t.Guided g a signs) : ∃ dimension, t.Obeys g a signs m dimension := by
  obtain ⟨away, r, inport, entered, installed, moved⟩ := hop
  exact guided.obeys oblivious installed.wired away moved

theorem Carried.guided (oblivious : a.obliviousGrid? = some g) (carried : Carried g a t) :
    ∃ signs, t.Guided g a signs := by
  induction carried with
  | injected inside reachable apart => exact ⟨_, Transit.injected_guided inside reachable⟩
  | forwarded carried hop ih =>
    obtain ⟨signs, guided⟩ := ih
    obtain ⟨dimension, obeys⟩ := hop.obeys oblivious guided
    exact ⟨signs, obeys.guided guided⟩

theorem Half.eq_of_span_eq {half other : Half} {vnet size : Nat} (enough : 2 ≤ size)
    (same : half.span vnet size = other.span vnet size) : half = other := by
  cases half <;> cases other <;> simp only [Half.span, Span.mk.injEq] at same <;> first | rfl | omega

theorem Transit.Obeys.rank_eq {dimension : Nat} (obeys : t.Obeys g a signs m dimension)
    (oblivious : a.obliviousGrid? = some g) {lane : Lane} (takes : t.Takes m lane) :
    lane.rank g = toLex (dimension, t.stage g signs dimension) := by
  have grid := Algorithm.grid?_of_oblivious oblivious
  have halves : a.partition = .halves := by
    cases a <;> first | rfl | cases oblivious
  have enough := obeys.poolSize
  have spans := obeys.spans
  rw [halves] at enough spans
  rw [takes.spans, obeys.direction, Algorithm.dimension?_toward grid obeys.within] at spans
  have linked : lane.direction.link? = some (dimension, signs dimension) := by
    rw [← takes.direction, obeys.direction, Algorithm.link?_toward grid obeys.within]
  have place := takes.place
  have chosen : lane.half = if t.route.checkpoint dimension then .lower else .upper := by
    apply Half.eq_of_span_eq enough
    have first := congrArg Prod.fst spans
    by_cases crossed : t.route.checkpoint dimension = true
    · rw [if_pos crossed]
      exact first.trans (if_pos crossed)
    · rw [if_neg crossed]
      exact first.trans (if_neg crossed)
  rw [Lane.rank, linked, chosen, Transit.stage, place]
  by_cases crossed : t.route.checkpoint dimension = true <;> simp only [crossed] <;> rfl

theorem Depends.rank_lt (oblivious : a.obliviousGrid? = some g) {first second : Lane}
    (depends : Depends g a first second) : first.rank g < second.rank g := by
  obtain ⟨t, m, n, carried, hop, hop', takes, takes'⟩ := depends
  obtain ⟨signs, guided⟩ := carried.guided oblivious
  obtain ⟨dimension, obeys⟩ := hop.obeys oblivious guided
  have guided' := obeys.guided guided
  obtain ⟨dimension', obeys'⟩ := hop'.obeys oblivious guided'
  rw [obeys.rank_eq oblivious takes, obeys'.rank_eq oblivious takes', Prod.Lex.toLex_lt_toLex]
  -- the dimensions before this one are done, and no hop along it undoes them
  have later : dimension ≤ dimension' := by
    by_contra earlier
    have agreed := obeys.before dimension' (Nat.lt_of_not_le earlier)
    have apart := obeys'.apart
    rw [obeys.advances.coordinate, if_neg (Nat.ne_of_lt (Nat.lt_of_not_le earlier)), obeys.router] at apart
    exact apart agreed
  rcases Nat.lt_or_eq_of_le later with further | same
  · exact .inl further
  subst same
  exact .inr ⟨rfl, obeys.stage_lt guided.toSteered⟩

theorem not_transGen_self {α β : Type} [Preorder β] {R : α → α → Prop} (rank : α → β)
    (rising : ∀ first second, R first second → rank first < rank second) (a : α) : ¬ Relation.TransGen R a a := by
  intro cycle
  have climbs := cycle.lift rank rising
  rw [Relation.transGen_eq_self] at climbs
  exact lt_irrefl _ climbs

theorem not_depends_cycle (oblivious : a.obliviousGrid? = some g) (lane : Lane) :
    ¬ Relation.TransGen (Depends g a) lane lane :=
  not_transGen_self (Lane.rank g) (fun _ _ depends => depends.rank_lt oblivious) lane

/-- No packets wait for each other in a circle, in a ring or in a torus with packets routed in dimension order. -/
theorem halves_exclude_deadlock :
    (∀ size lane, ¬ Relation.TransGen (Depends ⟨[size]⟩ (.ring size)) lane lane) ∧
      ∀ torus lane, ¬ Relation.TransGen (Depends torus (.dimensionOrder torus)) lane lane :=
  ⟨fun _ lane => not_depends_cycle rfl lane, fun _ lane => not_depends_cycle rfl lane⟩

set_option maxRecDepth 4000 in
example : Depends ⟨[4]⟩ (.ring 4) ⟨0, .ring .negative, .upper⟩ ⟨3, .ring .negative, .lower⟩ := by
  have installed : ∀ place < 4, Router.Installed
      ⟨1, ⟨place, .ring 4, .empty, [], ⟨[(.ring .negative, 0)]⟩, ⟨[(.ring .negative, 0)]⟩, .zero⟩,
        [.idle 0 (.ring .negative) 1 2 1], 0⟩ place (.ring 4) := by
    intro place inside
    refine ⟨.object "Router" [("virtual_networks", .number .one), ("virtual_channels_per_vnet", .number (.ofNat 2)),
      ("buffer_depth", .number .one), ("ring_size", .number (.ofNat 4)), ("routing", .object "Ring" []),
      ("ports", .array [.literal "West"])], _, ?_, rfl, .refl _⟩
    interval_cases place <;> rfl
  refine ⟨.injected 0 2 .empty 0 (.ofWords []),
    ⟨.idle 0 (.ring .negative) 1 2 1, (⟨1, 2⟩, .empty),
      3, ⟨2, .empty, 0, none, [true], false, 1⟩, .ofWords []⟩,
    ⟨.idle 0 (.ring .negative) 1 2 1, (⟨0, 1⟩, .empty),
      2, ⟨2, .empty, 0, none, [true], false, 2⟩, .ofWords []⟩,
    .injected (by decide) (by decide) (by decide), ?_, ?_, ⟨rfl, rfl, rfl⟩, ⟨rfl, rfl, rfl⟩⟩
  · exact ⟨by decide, _, 0, .ring .negative, installed 0 (by decide), by rfl⟩
  · exact ⟨by decide, _, 0, .ring .negative, installed 3 (by decide), by rfl⟩

end Interconnect
