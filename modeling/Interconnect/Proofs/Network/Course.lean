import Mathlib
import Interconnect.Proofs.Network.Crossings

namespace Interconnect

namespace Transit.Approaches

variable {d e : Nat} {g : Grid} {a : Algorithm} {signs : Nat → Sign} {t : Transit} {m : Move}
  (hop : t.Approaches g a signs m e) (grid : a.grid? = some g) (inside : t.place < g.size)
include hop grid inside

theorem closes_iff :
    Closes a t.place m.port.direction d ↔
      e = d ∧ closesRing (g.extent e) (g.coordinate t.place e) (signs e) = true := by
  rw [← Algorithm.wraparound?_eq_some_iff, hop.direction, wraparound?_toward grid inside hop.within]
  by_cases closes : closesRing (g.extent e) (g.coordinate t.place e) (signs e) = true
  · simp [closes]
  · simp [closes]

theorem checkpoint_iff :
    m.onward.route.checkpoint d = true ↔ t.route.checkpoint d = true ∨ Closes a t.place m.port.direction d := by
  rw [hop.closes_iff grid inside, hop.checkpoint, Bool.or_eq_true, Bool.and_eq_true, beq_iff_eq, eq_comm (a := d)]

end Transit.Approaches

/-- What a packet meets on its way: at each hop the routers of all places, and how it came in. -/
structure Course where
  met : Nat → Nat → Router
  inport : Nat → Nat
  entered : Nat → Direction

namespace Course

def move (c : Course) (g : Grid) (hop : Nat) (t : Transit) : Except Failure Move :=
  t.move g (c.met hop t.place) (c.inport hop) (c.entered hop)

def after (c : Course) (g : Grid) (start : Transit) : Nat → Except Failure Transit
  | 0 => .ok start
  | hop + 1 => do return (← c.move g hop (← c.after g start hop)).onward

/-- The packet takes the closing link of a dimension with this hop. -/
def CrossesAt (c : Course) (g : Grid) (a : Algorithm) (start : Transit) (d hop : Nat) : Prop :=
  ∃ t m, c.after g start hop = .ok t ∧ c.move g hop t = .ok m ∧ Closes a t.place m.port.direction d

variable {c : Course} {g : Grid} {a : Algorithm} {signs : Nat → Sign} {P : Transit → Prop} {t u v : Transit}
  {m n : Move} {dimension k l : Nat}

theorem after_succ_of_move (before : c.after g t k = .ok u) (moved : c.move g k u = .ok m) :
    c.after g t (k + 1) = .ok m.onward :=
  bind_eq_ok.mpr ⟨u, before, bind_eq_ok.mpr ⟨m, moved, rfl⟩⟩

theorem crossesAt_iff (before : c.after g t k = .ok u) (moved : c.move g k u = .ok m) :
    c.CrossesAt g a t dimension k ↔ Closes a u.place m.port.direction dimension := by
  constructor
  · rintro ⟨u', m', before', moved', closes⟩
    cases before.symm.trans before'
    cases moved.symm.trans moved'
    exact closes
  · intro closes
    exact ⟨u, m, before, moved, closes⟩

section SameStart

variable {p : Transit} (same : c.move g 0 t = c.move g 0 p)
include same

theorem after_succ_eq (hop : Nat) : c.after g t (hop + 1) = c.after g p (hop + 1) := by
  induction hop with
  | zero =>
    change (c.move g 0 t).bind _ = (c.move g 0 p).bind _
    rw [same]
  | succ hop ih =>
    change (c.after g t (hop + 1)).bind _ = (c.after g p (hop + 1)).bind _
    rw [ih]

theorem crossesAt_congr (place : p.place = t.place) :
    c.CrossesAt g a t dimension k ↔ c.CrossesAt g a p dimension k := by
  cases k with
  | zero =>
    constructor
    · rintro ⟨u, m, ⟨⟩, moved, closes⟩
      exact ⟨p, m, rfl, same ▸ moved, place ▸ closes⟩
    · rintro ⟨u, m, ⟨⟩, moved, closes⟩
      exact ⟨t, m, rfl, same ▸ moved, place ▸ closes⟩
  | succ k => simp only [CrossesAt, after_succ_eq same]

end SameStart

/-- Packets with the property stay steered and have it behind every hop, until they arrive. -/
structure Brings (c : Course) (g : Grid) (a : Algorithm) (signs : Nat → Sign) (P : Transit → Prop) : Prop where
  grid : a.grid? = some g
  steered : ∀ t, P t → t.Steered g signs
  approaches : ∀ hop t, P t → t.place ≠ t.route.router →
    ∃ m dimension, c.move g hop t = .ok m ∧ t.Approaches g a signs m dimension ∧ P m.onward

namespace Brings

theorem after (brings : c.Brings g a signs P) (start : P t) {k : Nat} (bound : k ≤ t.remaining g signs) :
    ∃ u, c.after g t k = .ok u ∧ P u ∧ u.remaining g signs + k = t.remaining g signs ∧
      u.route.hops = t.route.hops + k ∧ u.route.router = t.route.router := by
  induction k with
  | zero => exact ⟨t, rfl, start, rfl, rfl, rfl⟩
  | succ k ih =>
    obtain ⟨u, before, has, left, hops, router⟩ := ih (Nat.le_of_succ_le bound)
    have steered := brings.steered u has
    have away : u.place ≠ u.route.router := by
      rw [Ne, ← steered.remaining_eq_zero_iff]
      omega
    obtain ⟨m, dimension, moved, hop, has'⟩ := brings.approaches k u has away
    have nearer := hop.remaining steered
    refine ⟨m.onward, after_succ_of_move before moved, has', by omega, ?_, hop.router.trans router⟩
    rw [hop.advances.route, Route.advance_hops, hops]
    rfl

theorem arrives (brings : c.Brings g a signs P) (start : P t) (bound : k ≤ t.remaining g signs) :
    ∃ u, c.after g t k = .ok u ∧ P u ∧ u.route.hops = t.route.hops + k ∧
      (u.place = t.route.router ↔ k = t.remaining g signs) := by
  obtain ⟨u, after, has, left, hops, router⟩ := brings.after start bound
  refine ⟨u, after, has, hops, ?_⟩
  rw [← router, ← (brings.steered u has).remaining_eq_zero_iff]
  omega

theorem goes_on (brings : c.Brings g a signs P) (start : P t) (bound : k < t.remaining g signs)
    (before : c.after g t k = .ok u) :
    P u ∧ ∃ m dimension, c.move g k u = .ok m ∧ u.Approaches g a signs m dimension ∧ P m.onward := by
  obtain ⟨u', before', has, left, _, _⟩ := brings.after start (Nat.le_of_lt bound)
  rw [before] at before'
  cases before'
  have away : u.place ≠ u.route.router := by
    rw [Ne, ← (brings.steered u has).remaining_eq_zero_iff]
    omega
  exact ⟨has, brings.approaches k u has away⟩

theorem exists_approaches (brings : c.Brings g a signs P) (start : P t) (bound : k < t.remaining g signs)
    (before : c.after g t k = .ok u) (moved : c.move g k u = .ok m) :
    u.Steered g signs ∧ ∃ dimension, u.Approaches g a signs m dimension := by
  obtain ⟨has, m', dimension, moved', hop, _⟩ := brings.goes_on start bound before
  rw [moved] at moved'
  cases moved'
  exact ⟨brings.steered u has, dimension, hop⟩

theorem checkpoint_iff (brings : c.Brings g a signs P) (start : P t) (bound : k ≤ t.remaining g signs)
    (after : c.after g t k = .ok u) :
    u.route.checkpoint dimension = true ↔
      t.route.checkpoint dimension = true ∨ ∃ j < k, c.CrossesAt g a t dimension j := by
  induction k generalizing u with
  | zero =>
    cases after
    simp
  | succ k ih =>
    rcases bind_eq_ok.mp after with ⟨v, before, rest⟩
    rcases bind_eq_ok.mp rest with ⟨m, moved, same⟩
    cases same
    rcases brings.exists_approaches start bound before moved with ⟨steered, _, hop⟩
    rw [hop.checkpoint_iff brings.grid steered.inside, ih (Nat.le_of_succ_le bound) before, or_assoc,
      ← crossesAt_iff before moved]
    apply or_congr_right
    constructor
    · rintro (⟨j, earlier, crosses⟩ | crosses)
      · exact ⟨j, Nat.lt_succ_of_lt earlier, crosses⟩
      · exact ⟨k, Nat.lt_succ_self k, crosses⟩
    · rintro ⟨j, earlier, crosses⟩
      rcases Nat.lt_succ_iff_lt_or_eq.mp earlier with earlier | rfl
      · exact .inl ⟨j, earlier, crosses⟩
      · exact .inr crosses

theorem crosses_once (brings : c.Brings g a signs P) (start : P t) (bound : k < t.remaining g signs)
    (bound' : l < t.remaining g signs) (crosses : c.CrossesAt g a t dimension k)
    (crosses' : c.CrossesAt g a t dimension l) : k = l := by
  wlog earlier : k ≤ l generalizing k l
  · exact (this bound' bound crosses' crosses (Nat.le_of_not_le earlier)).symm
  by_contra apart
  obtain ⟨u, m, before, moved, closes⟩ := crosses'
  obtain ⟨steered, d, hop⟩ := brings.exists_approaches start bound' before moved
  have crossed := (brings.checkpoint_iff start (Nat.le_of_lt bound') before).mpr
    (.inr ⟨k, Nat.lt_of_le_of_ne earlier apart, crosses⟩)
  rw [hop.closes_iff brings.grid steered.inside] at closes
  obtain ⟨rfl, closes⟩ := closes
  rw [steered.not_closes hop.within hop.apart crossed] at closes
  cases closes

theorem coordinate_stays (brings : c.Brings g a signs P) (start : P t) (later : k ≤ l)
    (bound : l ≤ t.remaining g signs) (before : c.after g t k = .ok u) (after : c.after g t l = .ok v)
    (agreed : g.coordinate u.place dimension = g.coordinate u.route.router dimension) :
    g.coordinate v.place dimension = g.coordinate v.route.router dimension := by
  induction l, later using Nat.le_induction generalizing v with
  | base =>
    rw [before] at after
    cases after
    exact agreed
  | succ l later ih =>
    obtain ⟨w, before', rest⟩ := bind_eq_ok.mp after
    obtain ⟨m, moved, same⟩ := bind_eq_ok.mp rest
    cases same
    obtain ⟨_, d, hop⟩ := brings.exists_approaches start bound before' moved
    have agreed' := ih (Nat.le_of_succ_le bound) before'
    rw [hop.router, hop.advances.coordinate]
    split
    · rename_i here
      subst here
      exact absurd agreed' hop.apart
    · exact agreed'

end Brings

end Course

def torusSettings (routing : String) (side : Nat) : Config.Value :=
  .object "Router" [("virtual_networks", .number .one), ("virtual_channels_per_vnet", .number (.ofNat 3)),
    ("buffer_depth", .number .one), ("torus_extents", .array [.number (.ofNat side)]),
    ("routing", .object routing []), ("ports", .array [.literal "dim0_pos", .literal "dim0_neg"])]

def torusOf (a : Algorithm) (place : Nat) : Router :=
  let wiring : DirectionMap := ⟨[(.torus 0 .negative, 1), (.torus 0 .positive, 0)]⟩
  ⟨1, ⟨place, a, .empty, [], wiring, wiring, .zero⟩,
    [.idle 0 (.torus 0 .positive) 1 3 1, .idle 1 (.torus 0 .negative) 1 3 1], 0⟩

def aroundTorus (a : Algorithm) : Course := ⟨fun _ place => torusOf a place, fun _ => 0, fun _ => .torus 0 .positive⟩

end Interconnect
