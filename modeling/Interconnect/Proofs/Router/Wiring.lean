import Mathlib
import Interconnect.Proofs.Port.Operations
import Interconnect.Proofs.Router.Blueprint

namespace Interconnect

open Config (Value)

namespace Port

structure Alike (p q : Port) : Prop where
  index : p.index = q.index
  direction : p.direction = q.direction
  poolSize : p.poolSize = q.poolSize
  plan : p.plan = q.plan

theorem Alike.refl (p : Port) : p.Alike p := ⟨rfl, rfl, rfl, rfl⟩

theorem Alike.trans {p q r : Port} (first : p.Alike q) (second : q.Alike r) : p.Alike r :=
  ⟨first.index.trans second.index, first.direction.trans second.direction,
    first.poolSize.trans second.poolSize, first.plan.trans second.plan⟩

theorem Alike.length_channels {p q : Port} (alike : p.Alike q) : p.channels.length = q.channels.length := by
  have same := congrArg List.length alike.plan
  simpa only [Port.plan, List.length_map] using same

end Port

namespace RoutingUnit

theorem compute_unit (u : RoutingUnit) (route : Route) (inport : Nat) (entered : Direction) (ports : List Port)
    (random : Random) : ∃ counts, (u.compute route inport entered ports random).2 = { u with counts } := by
  unfold compute
  dsimp only
  split
  · exact ⟨_, rfl⟩
  · simp only [countOutcome]
    split <;> exact ⟨_, rfl⟩

end RoutingUnit

namespace Router

variable {r s built : Router} {index place : Nat} {a : Algorithm}

/-- Two routers differ at most in their tables, in what they counted and in what passes through their ports. -/
structure Alike (r s : Router) : Prop where
  vnets : r.vnets = s.vnets
  unit : ∃ table counts, r.unit = { s.unit with table, counts }
  ports : List.Forall₂ Port.Alike r.ports s.ports

theorem Alike.refl (r : Router) : r.Alike r := ⟨rfl, ⟨_, _, rfl⟩, List.forall₂_same.mpr fun p _ => .refl p⟩

/-- A router that was built for a place with an algorithm, in any state. -/
def Installed (r : Router) (place : Nat) (a : Algorithm) : Prop :=
  ∃ v built, ofValue place v = .ok built ∧ built.unit.algorithm = a ∧ r.Alike built

theorem ofValue_eq_ok {v : Value} (done : ofValue place v = .ok built) :
    ∃ poolSize depth directions,
      (built.unit.algorithm.Contains place ∧ built.unit.algorithm.partition.leastPool ≤ poolSize) ∧
      built.unit.router = place ∧
      built.unit.outports.Lists directions ∧
      ((directions ≠ [] → built.vnets * poolSize < 2 ^ 64) ∧
        built.ports = directions.zipIdx.map fun (direction, i) => .idle i direction built.vnets poolSize depth) ∧
      (∃ geometry name, Algorithm.Named geometry name built.unit.algorithm) ∧
      ∃ entries : List (List EndpointSet × Nat), entries.length ≤ directions.length ∧
        built.unit.table = .ofPorts entries := by
  rcases ofValue_eq_ok_iff_describes.mp done with ⟨settings, b, -, described, assembled⟩
  rcases described.routing with ⟨name, legend, -, -, named⟩
  rw [built_iff] at assembled
  subst assembled
  exact ⟨b.poolSize, b.bufferDepth, b.outports, ⟨described.inside, Partition.leastPool_le_iff.mpr described.enough⟩,
    rfl, rfl, ⟨described.channels, rfl⟩, ⟨settings.geometry, name, named⟩, b.entries, described.table.length_le, rfl⟩

theorem ofValue_elsewhere {v : Value} {other : Nat} (done : ofValue place v = .ok built)
    (inside : built.unit.algorithm.Contains other) :
    ofValue other v = .ok { built with unit := { built.unit with router := other } } := by
  obtain ⟨settings, b, read, described, assembled⟩ := ofValue_eq_ok_iff_describes.mp done
  rw [built_iff] at assembled
  subst assembled
  exact ofValue_eq_ok_iff_describes.mpr ⟨settings, b, read, { described with inside }, built_iff.mpr rfl⟩

theorem Installed.bounded {torus : Grid} {rule : DirectionRule} (installed : r.Installed place (.adaptive torus rule)) :
    torus.sides.prod < 2 ^ 64 := by
  obtain ⟨v, built, done, algorithm, -⟩ := installed
  obtain ⟨-, -, -, -, -, -, -, ⟨geometry, name, named⟩, -⟩ := ofValue_eq_ok done
  rw [algorithm] at named
  cases named with
  | drawn spans => exact spans.bounded
  | shortest spans => exact spans.bounded

/-- What holds of a router in its place whatever passes through it: each port is found by its direction, and each
direction by its port. -/
structure Wired (r : Router) (place : Nat) (a : Algorithm) : Prop where
  router : r.unit.router = place
  algorithm : r.unit.algorithm = a
  inside : a.Contains place
  faces : ∀ i p, r.ports[i]? = some p → r.unit.outports.direction? i = some p.direction
  leads : ∀ direction i, r.unit.outports.index? direction = some i →
    ∃ p, r.ports[i]? = some p ∧ p.direction = direction
  found : ∀ p ∈ r.ports, ∃ i, r.unit.outports.index? p.direction = some i
  pools : ∀ p ∈ r.ports, a.partition.leastPool ≤ p.poolSize ∧ Word.mul r.vnets p.poolSize = .ok p.channels.length

theorem ports_getElem? {directions : List Direction} {vnets poolSize depth : Nat}
    (ports : List.Forall₂ Port.Alike r.ports
      (directions.zipIdx.map fun (direction, i) => .idle i direction vnets poolSize depth)) :
    r.ports.length = directions.length ∧
      ∀ i p, r.ports[i]? = some p →
        ∃ direction, directions[i]? = some direction ∧ Port.Alike p (.idle i direction vnets poolSize depth) := by
  obtain ⟨lengths, alike⟩ := List.forall₂_iff_get.mp ports
  rw [List.length_map, List.length_zipIdx] at lengths
  refine ⟨lengths, fun i p at_place => ?_⟩
  obtain ⟨short, rfl⟩ := List.getElem?_eq_some_iff.mp at_place
  have short' : i < directions.length := lengths ▸ short
  have same := alike i short (by simpa using short')
  simp only [List.get_eq_getElem, List.getElem_map, List.getElem_zipIdx, Nat.zero_add] at same
  exact ⟨directions[i], List.getElem?_eq_getElem short', same⟩

theorem Installed.wired (installed : r.Installed place a) : r.Wired place a := by
  obtain ⟨v, built, done, rfl, alike⟩ := installed
  obtain ⟨poolSize, depth, directions, ⟨inside, enough⟩, router, lists, ⟨channels, ports⟩, -⟩ := ofValue_eq_ok done
  obtain ⟨table, counts, unit⟩ := alike.unit
  have alikes := alike.ports
  rw [ports] at alikes
  obtain ⟨lengths, at_place⟩ := ports_getElem? alikes
  have outports : r.unit.outports = built.unit.outports := by rw [unit]
  rw [← outports] at lists
  constructor
  case router => rw [unit, ← router]
  case algorithm => rw [unit]
  case inside => exact inside
  case faces =>
    intro i p port
    obtain ⟨direction, listed, same⟩ := at_place i p port
    rw [lists.direction?_eq, listed, same.direction]
    rfl
  case leads =>
    intro direction i found
    have listed := lists.of_index? found
    have short : i < r.ports.length := lengths ▸ (List.getElem?_eq_some_iff.mp listed).1
    have port := List.getElem?_eq_getElem short
    obtain ⟨direction', listed', same⟩ := at_place i _ port
    rw [listed] at listed'
    cases listed'
    exact ⟨_, port, same.direction⟩
  case found =>
    intro p member
    obtain ⟨i, port⟩ := List.mem_iff_getElem?.mp member
    obtain ⟨direction, listed, same⟩ := at_place i p port
    rw [same.direction]
    exact lists.exists_index? (List.mem_of_getElem? listed)
  case pools =>
    intro p member
    obtain ⟨i, port⟩ := List.mem_iff_getElem?.mp member
    obtain ⟨direction, listed, same⟩ := at_place i p port
    have bounded := channels (List.ne_nil_of_mem (List.mem_of_getElem? listed))
    have idle : (Port.idle i direction built.vnets poolSize depth).channels.length = built.vnets * poolSize := by
      simp only [Port.idle, List.length_map, List.length_range]
    have size : p.poolSize = poolSize := same.poolSize
    rw [same.length_channels, idle, size, alike.vnets]
    exact ⟨enough, Word.mul_eq_ok.mpr ⟨bounded, rfl⟩⟩

end Router

end Interconnect
