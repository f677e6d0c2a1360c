import Mathlib
import Interconnect.Proofs.Network.Steering

namespace Interconnect

namespace Router

/-- The router in use: nothing but what it counted and what passes through its ports has changed. -/
structure InUse (r built : Router) : Prop where
  vnets : r.vnets = built.vnets
  unit : ∃ counts, r.unit = { built.unit with counts }
  ports : List.Forall₂ Port.Alike r.ports built.ports

/-- Any two fresh packets of a virtual network that come in by one port for one destination leave by one port. -/
def SinglePath (built : Router) (inport target : Nat) (destination : EndpointSet) (vnet : Nat) : Prop :=
  ∀ r s : Router, r.InUse built → s.InUse built → ∀ (random random' : Random) (outport outport' : Nat),
    (r.compute (.toward target destination vnet) inport random).1.outport = .ok outport →
    (s.compute (.toward target destination vnet) inport random').1.outport = .ok outport' → outport = outport'

/-- For some random words, the sign is that of a dimension with an offset, and there are ports to choose from. -/
def Open (r : Router) (torus : Grid) (rule : DirectionRule) (inport target vnet : Nat) (way : Nat × Sign) : Prop :=
  ∃ random signs minimal random',
    (rule.signs (torus.arcs r.index target)).run.run random = (.ok (signs, minimal), random') ∧
    (r.unit.inports.direction? inport).isSome ∧ vnet < r.vnets ∧ way.1 < torus.dimensions ∧
      torus.coordinate r.index way.1 ≠ torus.coordinate target way.1 ∧ signs[way.1]?.join = some way.2 ∧
      ∀ d < torus.dimensions, torus.coordinate r.index d ≠ torus.coordinate target d →
        ∃ sign, signs[d]?.join = some sign ∧ ∃ port ∈ r.ports, port.direction = .torus d sign

variable {r s built : Router} {inport target vnet : Nat} {destination : EndpointSet}

theorem InUse.alike (inUse : r.InUse built) : r.Alike built := by
  obtain ⟨counts, unit⟩ := inUse.unit
  exact ⟨inUse.vnets, ⟨_, counts, unit⟩, inUse.ports⟩

theorem InUse.loaded (built : Router) (idle : Port → Span) : (built.loaded idle).InUse built :=
  ⟨rfl, ⟨_, rfl⟩, (built.loaded_alike idle).ports⟩

end Router

theorem RoutingTable.lookup_ordered (t : RoutingTable) (vnet : Nat) (destination : EndpointSet)
    (random random' : Random) :
    (t.lookup vnet destination true random).1 = (t.lookup vnet destination true random').1 := by
  unfold lookup
  split <;> rfl

theorem Algorithm.decision_congr {a : Algorithm} (other : ∀ torus rule, a ≠ .adaptive torus rule) {s : Surroundings}
    (ordered : s.ordered = true) (ports : List Port) (r : Route) (random random' : Random) :
    (a.next { s with ports } r random).decision = (a.next s r random').decision := by
  cases a with
  | adaptive torus rule => cases other torus rule rfl
  | table =>
    simp only [next, ordered]
    rw [s.table.lookup_ordered r.vnet r.destination random random']
  | _ => rfl

namespace RoutingUnit

variable {u : RoutingUnit} {route : Route}

theorem computed_here (here : route.router = u.router) (inport : Nat) (entered : Direction) (ports : List Port)
    (random : Random) :
    (u.compute route inport entered ports random).1 =
      let looked := u.table.lookup route.vnet route.destination (u.isOrdered route.vnet) random
      ⟨looked.1.mapError .error, route, looked.2⟩ :=
  congrArg Prod.fst (if_pos here)

theorem computed_away (away : route.router ≠ u.router) (inport : Nat) (entered : Direction) (ports : List Port)
    (random : Random) :
    (u.compute route inport entered ports random).1 =
      let outcome := u.algorithm.next ⟨u.router, u.table, u.isOrdered route.vnet, inport, entered, u.outports, ports⟩
        route random
      ⟨outcome.decision.map Decision.outport, outcome.route, outcome.random⟩ :=
  congrArg Prod.fst (if_neg away)

theorem compute_here (here : route.router = u.router) (inport : Nat) (entered : Direction) (ports : List Port)
    (random : Random) :
    (u.compute route inport entered ports random).1.outport =
      (u.table.lookup route.vnet route.destination (u.isOrdered route.vnet) random).1.mapError .error :=
  congrArg Computed.outport (computed_here here inport entered ports random)

theorem compute_away (away : route.router ≠ u.router) (inport : Nat) (entered : Direction) (ports : List Port)
    (random : Random) :
    (u.compute route inport entered ports random).1.outport =
      (u.algorithm.next ⟨u.router, u.table, u.isOrdered route.vnet, inport, entered, u.outports, ports⟩ route
        random).decision.map Decision.outport :=
  congrArg Computed.outport (computed_away away inport entered ports random)

theorem outport_congr (route : Route) (ordered : u.isOrdered route.vnet = true)
    (static : route.router = u.router ∨ ∀ torus rule, u.algorithm ≠ .adaptive torus rule) (counts : RoutingCounts)
    (inport : Nat) (entered : Direction) (ports ports' : List Port) (random random' : Random) :
    ({ u with counts }.compute route inport entered ports random).1.outport =
      (u.compute route inport entered ports' random').1.outport := by
  have ordered' : { u with counts }.isOrdered route.vnet = true := ordered
  by_cases here : route.router = u.router
  · rw [compute_here here, compute_here (u := { u with counts }) here, ordered, ordered',
      u.table.lookup_ordered _ _ random random']
  · rw [compute_away here, compute_away (u := { u with counts }) here, ordered, ordered']
    have same := Algorithm.decision_congr (static.resolve_left here)
      (s := ⟨u.router, u.table, true, inport, entered, u.outports, ports'⟩) rfl ports route random random'
    rw [← same]

end RoutingUnit

namespace Router

variable {r s built : Router} {inport target vnet : Nat} {destination : EndpointSet}

theorem InUse.outport_eq (inUse : r.InUse built) (ordered : built.unit.isOrdered vnet = true)
    (static : target = built.index ∨ ∀ torus rule, built.unit.algorithm ≠ .adaptive torus rule)
    (random random' : Random) :
    (r.compute (.toward target destination vnet) inport random).1.outport =
      (built.compute (.toward target destination vnet) inport random').1.outport := by
  obtain ⟨counts, unit⟩ := inUse.unit
  unfold compute
  rw [unit]
  cases entered : built.unit.inports.direction? inport with
  | none =>
    simp only [index, unit]
  | some direction =>
    exact RoutingUnit.outport_congr (.toward target destination vnet) ordered static _ _ _ _ _ _ _

theorem single_path_of_static (ordered : built.unit.isOrdered vnet = true)
    (static : target = built.index ∨ ∀ torus rule, built.unit.algorithm ≠ .adaptive torus rule) :
    built.SinglePath inport target destination vnet := by
  intro r s inUse inUse' random random' outport outport' found found'
  rw [inUse.outport_eq ordered static random random] at found
  rw [inUse'.outport_eq ordered static random' random, found] at found'
  exact Except.ok.inj found'

theorem compute_injected {entered : Direction} (faces : r.unit.inports.direction? inport = some entered)
    (random : Random) :
    (r.compute (.toward target destination vnet) inport random).1 =
      (Transit.injected r.index target destination vnet random).computed r inport entered := by
  unfold compute
  rw [faces]
  rfl

theorem exists_entered {route : Route} {random : Random} {outport : Nat}
    (found : (r.compute route inport random).1.outport = .ok outport) :
    ∃ entered, r.unit.inports.direction? inport = some entered := by
  unfold compute at found
  cases faces : r.unit.inports.direction? inport with
  | none =>
    rw [faces] at found
    cases found
  | some entered => exact ⟨entered, rfl⟩

end Router

theorem Port.serves_of_countFree {p : Port} {vnets vnet dimension count : Nat} {checkpoints : List Bool}
    (channels : Word.mul vnets p.poolSize = .ok p.channels.length) (enough : 3 ≤ p.poolSize)
    (faces : p.direction.dimension? = some dimension)
    (counted : p.countFree vnet ⟨.thirds, checkpoints⟩ = .ok count) : vnet < vnets := by
  obtain ⟨free, listed, -⟩ := bind_eq_ok.mp counted
  obtain ⟨opened, found, ⟨fits, -⟩, -⟩ := Port.free_eq_ok.mp listed
  rw [faces] at found
  rw [Selection.eq_spans_of_ranges found] at fits
  have first : vnet * p.poolSize + p.poolSize / 3 ≤ vnet * p.poolSize ∨
      vnet * p.poolSize + p.poolSize / 3 ≤ p.channels.length := of_decide_eq_true fits
  have third : 0 < p.poolSize / 3 := Nat.div_pos enough (by decide)
  obtain ⟨-, channels⟩ := Word.mul_eq_ok.mp channels
  by_contra beyond
  have far := Nat.mul_le_mul_right p.poolSize (Nat.le_of_not_lt beyond)
  omega

theorem Transit.serves_of_candidate {r : Router} {t : Transit} {torus : Grid} {rule : DirectionRule}
    {inport d outport free : Nat} {entered : Direction} {sign : Sign} (wired : r.Wired t.place (.adaptive torus rule))
    (candidate : Algorithm.Candidate torus (t.around r inport entered) t.route d sign outport free) :
    t.route.vnet < r.vnets := by
  obtain ⟨-, p, present, counted⟩ := Algorithm.poll_eq_ok candidate.polled
  obtain ⟨q, present', leads⟩ := wired.leads _ _ candidate.leads
  have same := present.symm.trans present'
  cases same
  obtain ⟨enough, channels⟩ := wired.pools p (List.mem_of_getElem? present)
  have faces : p.direction.dimension? = some d := by
    rw [leads]
    rfl
  exact Port.serves_of_countFree channels enough faces counted

namespace Router

variable {r s built : Router} {index inport target vnet : Nat} {destination : EndpointSet} {v : Config.Value}
  {torus : Grid} {rule : DirectionRule}

section Adaptive

variable (done : ofValue index v = .ok built) (adaptive : built.unit.algorithm = .adaptive torus rule)
  (away : target ≠ index)

theorem exists_settled {signs : List (Option Sign)} {minimal : Bool} {random random' : Random}
    (vnet : Nat) (destination : EndpointSet)
    (drawn : (rule.signs (torus.arcs index target)).run.run random = (.ok (signs, minimal), random')) :
    ∃ u : Transit, (Transit.injected index target destination vnet random).Settles u torus rule ∧ u.place = index ∧
      u.route = { Route.toward target destination vnet with directions := some signs, minimal } ∧
      u.route.directions = some signs ∧ u.route.router = target ∧ u.route.vnet = vnet :=
  ⟨_, Transit.settles_of_signs rfl drawn, rfl, rfl, rfl, rfl, rfl⟩

include done adaptive away

theorem InUse.exists_open (inUse : r.InUse built) {random : Random} {outport : Nat}
    (found : (r.compute (.toward target destination vnet) inport random).1.outport = .ok outport) :
    ∃ way, built.Open torus rule inport target vnet way ∧
      built.unit.outports.index? (.torus way.1 way.2) = some outport := by
  obtain ⟨counts, unit⟩ := inUse.unit
  have home : built.Installed index (.adaptive torus rule) := ⟨v, built, done, adaptive, .refl built⟩
  have installed : r.Installed index (.adaptive torus rule) := ⟨v, built, done, adaptive, inUse.alike⟩
  have wired := installed.wired
  have place : r.index = index := wired.router
  have at_home : built.index = index := home.wired.router
  have outports : r.unit.outports = built.unit.outports := by rw [unit]
  obtain ⟨entered, faces⟩ := exists_entered found
  rw [compute_injected faces, place] at found
  obtain ⟨signs, minimal, random', drawn⟩ : ∃ signs minimal random',
      (rule.signs (torus.arcs index target)).run.run random = (.ok (signs, minimal), random') :=
    Transit.exists_signs_of_outport rfl wired (Ne.symm away) found
  obtain ⟨u, settles, rfl, route, fixed, rfl, rfl⟩ := exists_settled vnet destination drawn
  rw [Transit.computed_settled settles route wired (Ne.symm away),
    Transit.computed_of_directions wired (Ne.symm away) fixed] at found
  obtain ⟨decision, decided, rfl⟩ := map_eq_ok.mp found
  obtain ⟨d, sign, free, chosen, others⟩ := Algorithm.decideAdaptive_eq_ok decided
  unfold Open
  rw [at_home]
  -- every dimension with an offset was polled, or the computation would have failed
  refine ⟨(d, sign), ⟨random, signs, minimal, random', drawn, ?_, ?_, chosen.within, chosen.apart, ?_, ?_⟩, ?_⟩
  · rw [unit] at faces
    exact Option.isSome_iff_exists.mpr ⟨entered, faces⟩
  · rw [← inUse.vnets]
    exact Transit.serves_of_candidate wired chosen
  · exact (Route.direction?_eq fixed d).symm.trans chosen.way
  · intro e within apart
    obtain ⟨sign', outport', free', candidate, -⟩ := others e within apart
    have leads := candidate.leads
    change r.unit.outports.index? _ = _ at leads
    rw [outports] at leads
    obtain ⟨port, present, direction⟩ := home.wired.leads _ _ leads
    exact ⟨sign', (Route.direction?_eq fixed e).symm.trans candidate.way, port, List.mem_of_getElem? present,
      direction⟩
  · rw [← outports]
    exact chosen.leads

theorem exists_outport_of_open {way : Nat × Sign} (opens : built.Open torus rule inport target vnet way)
    (destination : EndpointSet) :
    ∃ (r : Router) (random : Random) (outport : Nat), r.InUse built ∧
      (r.compute (.toward target destination vnet) inport random).1.outport = .ok outport ∧
      built.unit.outports.index? (.torus way.1 way.2) = some outport := by
  obtain ⟨random, signs, minimal, random', drawn, enters, serves, within, apart, directed, linked⟩ := opens
  have home : built.Installed index (.adaptive torus rule) := ⟨v, built, done, adaptive, .refl built⟩
  have at_home : built.index = index := home.wired.router
  obtain ⟨entered, faces⟩ := Option.isSome_iff_exists.mp enters
  rw [at_home] at drawn apart linked
  obtain ⟨u, settles, rfl, route, fixed, rfl, rfl⟩ := exists_settled vnet destination drawn
  have ready : u.Ready built torus := by
    refine ⟨serves, fun e within apart => ?_⟩
    obtain ⟨sign, signed, port⟩ := linked e within apart
    exact ⟨sign, (Route.direction?_eq fixed e).trans signed, port⟩
  obtain ⟨outport, free, candidate, found⟩ := ready.exists_outport_opening home (Ne.symm away) fixed within apart
    ((Route.direction?_eq fixed way.1).trans directed) inport entered
  -- the load leaves nothing free but in the way, and says nothing of the random words that fixed it
  have wired := (home.opening way.1 way.2 u.route).wired
  have place : (built.opening way.1 way.2 u.route).index = u.place := wired.router
  refine ⟨built.opening way.1 way.2 u.route, random, outport, .loaded built _, ?_, candidate.leads⟩
  rw [compute_injected (r := built.opening way.1 way.2 u.route) faces, place,
    Transit.computed_settled settles route wired (Ne.symm away)]
  exact found

theorem single_path_iff_of_adaptive :
    built.SinglePath inport target destination vnet ↔ ∀ way way',
      built.Open torus rule inport target vnet way → built.Open torus rule inport target vnet way' → way = way' := by
  obtain ⟨poolSize, depth, directions, -, -, lists, -⟩ := ofValue_eq_ok done
  constructor
  · intro single way way' opens opens'
    obtain ⟨r, random, outport, inUse, found, leads⟩ := exists_outport_of_open done adaptive away opens destination
    obtain ⟨s, random', outport', inUse', found', leads'⟩ :=
      exists_outport_of_open done adaptive away opens' destination
    have same := single r s inUse inUse' random random' outport outport' found found'
    subst same
    have faces := (lists.of_index? leads).symm.trans (lists.of_index? leads')
    cases way
    cases way'
    cases faces
    rfl
  · intro narrow r s inUse inUse' random random' outport outport' found found'
    obtain ⟨way, opens, leads⟩ := inUse.exists_open done adaptive away found
    obtain ⟨way', opens', leads'⟩ := inUse'.exists_open done adaptive away found'
    rw [← narrow way way' opens opens', leads] at leads'
    exact Option.some.inj leads'

end Adaptive

/-- Ordered packets keep to a single path exactly if the routing is none of the adaptive ones, or their target is
here, or no two ways are open to them. -/
theorem single_path_iff_one_open_way (done : ofValue index v = .ok built)
    (ordered : built.unit.isOrdered vnet = true) (inport target : Nat) (destination : EndpointSet) :
    built.SinglePath inport target destination vnet ↔
      target = index ∨ ∀ torus rule, built.unit.algorithm = .adaptive torus rule → ∀ way way',
        built.Open torus rule inport target vnet way → built.Open torus rule inport target vnet way' →
          way = way' := by
  obtain ⟨poolSize, depth, directions, -, at_home, -⟩ := ofValue_eq_ok done
  by_cases here : target = index
  · have local_target : target = built.index := here.trans at_home.symm
    exact iff_of_true (single_path_of_static ordered (.inl local_target)) (.inl here)
  cases routing : built.unit.algorithm with
  | adaptive torus rule =>
    rw [single_path_iff_of_adaptive done routing here]
    constructor
    · intro narrow
      refine .inr fun torus' rule' same => ?_
      cases same
      exact narrow
    · exact fun narrow => narrow.resolve_left here torus rule rfl
  | _ =>
    have static : ∀ torus rule, built.unit.algorithm ≠ .adaptive torus rule := by
      rw [routing]
      exact nofun
    exact iff_of_true (single_path_of_static ordered (.inr static)) (.inr nofun)

/-- Ordered packets to the router across a torus of two by two leave by two ports. -/
theorem square_parts_ordered_packets :
    ofValue 0 (planarSettings 2 2) = .ok (planarRouter 2 2 0) ∧ (planarRouter 2 2 0).unit.isOrdered 0 = true ∧
      ¬ (planarRouter 2 2 0).SinglePath 0 3 .empty 0 := by
  have built := square_built (by decide : 0 < 4)
  refine ⟨built, rfl, fun single => ?_⟩
  have opens (d : Nat) (within : d < 2) : (planarRouter 2 2 0).Open ⟨[2, 2]⟩ .shortest 0 3 0 (d, .negative) := by
    refine ⟨.ofWords [], [some .negative, some .negative], true, .ofWords [], rfl, rfl, Nat.one_pos, within, ?_, ?_,
      fun e inside _ => ⟨.negative, ?_, ?_⟩⟩
    · interval_cases d <;> decide
    · interval_cases d <;> rfl
    · have two : e < 2 := inside
      interval_cases e <;> rfl
    · exact planarRouter_linked inside .negative
  obtain ⟨r, random, outport, inUse, found, leads⟩ :=
    exists_outport_of_open built rfl (by decide) (opens 0 (by decide)) .empty
  obtain ⟨s, random', outport', inUse', found', leads'⟩ :=
    exists_outport_of_open built rfl (by decide) (opens 1 (by decide)) .empty
  have same := single r s inUse inUse' random random' outport outport' found found'
  rw [same, show outport' = 3 from (Option.some.inj leads').symm] at leads
  cases leads

theorem planar_single_path_beside :
    ofValue 0 (planarSettings 2 2) = .ok (planarRouter 2 2 0) ∧ (planarRouter 2 2 0).unit.isOrdered 0 = true ∧
      (planarRouter 2 2 0).SinglePath 0 1 .empty 0 := by
  have built := square_built (by decide : 0 < 4)
  refine ⟨built, rfl, (single_path_iff_one_open_way built rfl 0 1 .empty).mpr (.inr ?_)⟩
  intro torus rule adaptive
  cases adaptive
  have only {way : Nat × Sign} (opens : (planarRouter 2 2 0).Open ⟨[2, 2]⟩ .shortest 0 1 0 way) :
      way = (0, .negative) := by
    obtain ⟨d, sign⟩ := way
    obtain ⟨random, signs, minimal, random', drawn, -, -, within, apart, directed, -⟩ := opens
    have known : (DirectionRule.shortest.signs (Grid.arcs ⟨[2, 2]⟩ 0 1)).run.run random =
        (.ok ([some .negative, none], true), random) := rfl
    cases known.symm.trans drawn
    have two : d < 2 := within
    interval_cases d
    · have backward : some Sign.negative = some sign := directed
      cases backward
      rfl
    · exact absurd rfl apart
  intro way way' opens opens'
  rw [only opens, only opens']

end Router

end Interconnect
