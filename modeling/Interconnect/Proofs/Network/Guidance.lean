import Mathlib
import Interconnect.Proofs.Network.Course

namespace Interconnect

variable {g : Grid} {a : Algorithm} {signs : Nat → Sign} {r : Router} {t u v : Transit} {m n : Move}
  {inport dimension : Nat} {entered : Direction}

/-- A router wired in its place, with a port for every link of the grid. -/
structure Router.Linked (r : Router) (place : Nat) (a : Algorithm) (g : Grid) : Prop where
  wired : r.Wired place a
  ports : ∀ d < g.dimensions, ∀ sign, ∃ port ∈ r.ports, port.direction = a.toward d sign

/-- A packet that goes on to the end the way it goes now. -/
structure Transit.Guided (t : Transit) (g : Grid) (a : Algorithm) (signs : Nat → Sign) : Prop extends
    t.Steered g signs where
  going : ∀ d < g.dimensions, g.coordinate t.place d ≠ g.coordinate t.route.router d →
    a.way (aheadBy (g.extent d) (g.coordinate t.place d) (g.coordinate t.route.router d)) (g.extent d) = signs d

structure Transit.Obeys (t : Transit) (g : Grid) (a : Algorithm) (signs : Nat → Sign) (m : Move)
    (dimension : Nat) : Prop extends t.Approaches g a signs m dimension where
  before : ∀ d < dimension, g.coordinate t.place d = g.coordinate t.route.router d
  poolSize : a.partition.leastPool ≤ m.port.poolSize
  spans : m.spans = Selection.spans ⟨a.partition, t.route.checkpoints⟩ m.port.direction.dimension?
    t.route.vnet m.port.poolSize

namespace Transit

theorem injected_guided {source target vnet : Nat} {destination : EndpointSet} {random : Random}
    (inside : source < g.size) (reachable : target < g.size) :
    (injected source target destination vnet random).Guided g a fun d =>
      a.way (aheadBy (g.extent d) (g.coordinate source d) (g.coordinate target d)) (g.extent d) := by
  have fresh : ∀ d, (Route.toward target destination vnet).checkpoint d = false := fun d => rfl
  refine ⟨⟨inside, reachable, fun d _ crossed => ?_⟩, fun d _ _ => rfl⟩
  exact absurd (crossed.symm.trans (fresh d)) nofun

theorem Guided.obeys (guided : t.Guided g a signs) (oblivious : a.obliviousGrid? = some g)
    (wired : r.Wired t.place a) (away : t.place ≠ t.route.router) (moved : t.move g r inport entered = .ok m) :
    ∃ dimension, t.Obeys g a signs m dimension := by
  obtain ⟨outport, found⟩ := outport_of_move moved
  have decided := found
  rw [computed_of_away wired away] at decided
  obtain ⟨decision, decided, chosen⟩ := map_eq_ok.mp decided
  obtain ⟨kept, dimension, sends⟩ := Algorithm.next_oblivious oblivious guided.inside guided.target decided
  have route : (t.computed r inport entered).route = t.route := by rw [computed_of_away wired away, kept]
  have leads := sends.leads
  change r.unit.outports.index? (a.toward dimension (a.way (aheadBy (g.extent dimension)
    (g.coordinate t.place dimension) (g.coordinate t.route.router dimension)) (g.extent dimension))) = _ at leads
  rw [guided.going dimension sends.within sends.apart, chosen] at leads
  obtain ⟨m', moved', present, direction, spans, _, advances⟩ :=
    move_toward wired (Algorithm.grid?_of_oblivious oblivious) guided.inside sends.within found leads
  rw [moved] at moved'
  cases moved'
  rw [route, ← direction] at spans
  rw [route] at advances
  exact ⟨dimension, ⟨sends.within, sends.apart, direction, advances⟩, sends.before,
    (wired.pools _ (List.mem_of_getElem? present)).1, spans⟩

theorem Obeys.guided (obeys : t.Obeys g a signs m dimension) (guided : t.Guided g a signs) :
    m.onward.Guided g a signs where
  toSteered := obeys.steered guided.toSteered
  going := by
    intro d within apart
    rw [obeys.router, obeys.advances.coordinate] at apart ⊢
    by_cases here : d = dimension
    · subst here
      rw [if_pos rfl] at apart ⊢
      exact Algorithm.way_nextPlace (Grid.coordinate_lt guided.inside within)
        (Grid.coordinate_lt guided.target within) obeys.apart (guided.going d within obeys.apart) apart
    · rw [if_neg here] at apart ⊢
      exact guided.going d within apart

theorem Guided.exists_move (guided : t.Guided g a signs) (oblivious : a.obliviousGrid? = some g)
    (linked : r.Linked t.place a g) (inRange : a.InRange t.route.router) (away : t.place ≠ t.route.router)
    (inport : Nat) (entered : Direction) : ∃ m, t.move g r inport entered = .ok m := by
  have wired := linked.wired
  have outports : ∀ d < g.dimensions, ∀ sign, ∃ outport,
      (t.around r inport entered).outports.index? (a.toward d sign) = some outport := by
    intro d within sign
    obtain ⟨port, member, faces⟩ := linked.ports d within sign
    exact faces ▸ wired.found port member
  obtain ⟨decision, decided⟩ := Algorithm.exists_next_oblivious (s := t.around r inport entered) (r := t.route)
    oblivious guided.inside guided.target inRange away outports t.random
  obtain ⟨_, dimension, sends⟩ := Algorithm.next_oblivious oblivious guided.inside guided.target decided
  have found : (t.computed r inport entered).outport = .ok decision.outport := by
    rw [computed_of_away wired away, decided]
    rfl
  obtain ⟨m, moved, _⟩ := move_toward wired (Algorithm.grid?_of_oblivious oblivious) guided.inside sends.within
    found sends.leads
  exact ⟨m, moved⟩

end Transit

namespace Course

variable {c : Course} {k l : Nat}

theorem brings_guided (oblivious : a.obliviousGrid? = some g) (signs : Nat → Sign)
    (linked : ∀ hop, ∀ place < g.size, (c.met hop place).Linked place a g) :
    c.Brings g a signs fun t => t.Guided g a signs ∧ a.InRange t.route.router where
  grid := Algorithm.grid?_of_oblivious oblivious
  steered := fun _ has => has.1.toSteered
  approaches := by
    intro hop t has away
    obtain ⟨guided, inRange⟩ := has
    have here := linked hop t.place guided.inside
    obtain ⟨m, moved⟩ := guided.exists_move oblivious here inRange away (c.inport hop) (c.entered hop)
    obtain ⟨d, obeys⟩ := guided.obeys oblivious here.wired away moved
    exact ⟨m, d, moved, obeys.toApproaches, obeys.guided guided, obeys.router.symm ▸ inRange⟩

theorem dimension_le (oblivious : a.obliviousGrid? = some g)
    (linked : ∀ hop, ∀ place < g.size, (c.met hop place).Linked place a g) (start : t.Guided g a signs)
    (inRange : a.InRange t.route.router) (later : k ≤ l) (bound : l < t.remaining g signs) {d e : Nat}
    (before : c.after g t k = .ok u) (moved : c.move g k u = .ok m) (first : m.port.direction.dimension? = some d)
    (after : c.after g t l = .ok v) (moved' : c.move g l v = .ok n) (second : n.port.direction.dimension? = some e) :
    d ≤ e := by
  have grid := Algorithm.grid?_of_oblivious oblivious
  have brings := brings_guided oblivious signs linked
  have going : k < t.remaining g signs := Nat.lt_of_le_of_lt later bound
  obtain ⟨keeps, m', d', moves, hop, _⟩ := brings.goes_on ⟨start, inRange⟩ going before
  obtain ⟨_, n', e', moves', hop', _⟩ := brings.goes_on ⟨start, inRange⟩ bound after
  rw [moved] at moves
  rw [moved'] at moves'
  cases moves
  cases moves'
  have away : u.place ≠ u.route.router := fun there => hop.apart (by rw [there])
  obtain ⟨d'', obeys⟩ := keeps.1.obeys oblivious (linked k u.place keeps.1.inside).wired away moved
  rw [obeys.direction, Algorithm.dimension?_toward grid obeys.within] at first
  rw [hop'.direction, Algorithm.dimension?_toward grid hop'.within] at second
  cases first
  cases second
  by_contra earlier
  have agreed := obeys.before e (Nat.lt_of_not_le earlier)
  exact hop'.apart (brings.coordinate_stays ⟨start, inRange⟩ later (Nat.le_of_lt bound) before after agreed)

end Course

end Interconnect
