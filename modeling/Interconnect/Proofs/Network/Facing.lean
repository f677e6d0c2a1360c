import Mathlib
import Interconnect.Proofs.Network.Crossings

namespace Interconnect

namespace DirectionMap

variable {registrations later : List (Direction × Nat)} {direction : Direction} {index : Nat}

def ofRegistrations (registrations : List (Direction × Nat)) : DirectionMap :=
  registrations.foldl (fun m r => m.insert r.1 r.2) empty

structure Latest (registrations : List (Direction × Nat)) (direction : Direction) (index : Nat)
    (later : List (Direction × Nat)) : Prop where
  registered : ∃ earlier, registrations = earlier ++ (direction, index) :: later
  last : ∀ r ∈ later, r.1 ≠ direction

/-- The port that a direction was given last is not given away after that. -/
def Keeps (registrations : List (Direction × Nat)) (direction : Direction) : Prop :=
  ∀ index later, Latest registrations direction index later → ∀ r ∈ later, r.2 ≠ index

theorem registrations_ofRegistrations (registrations : List (Direction × Nat)) :
    (ofRegistrations registrations).registrations = registrations.reverse := by
  induction registrations using List.reverseRecOn with
  | nil => rfl
  | append_singleton registrations r ih =>
    rw [ofRegistrations, List.foldl_append, List.reverse_append]
    exact congrArg ((r.1, r.2) :: ·) ih

theorem index?_eq_some_iff :
    (ofRegistrations registrations).index? direction = some index ↔
      ∃ later, Latest registrations direction index later := by
  rw [index?, registrations_ofRegistrations, Option.map_eq_some_iff]
  constructor
  · rintro ⟨⟨d, i⟩, found, same⟩
    obtain ⟨key, after, before, split, missed⟩ := List.find?_eq_some_iff_append.mp found
    have key : d = direction := by simpa using key
    cases same
    cases key
    refine ⟨after.reverse, ⟨before.reverse, ?_⟩, fun r member => ?_⟩
    · rw [← List.reverse_reverse registrations, split]
      simp
    · simpa using missed r (List.mem_reverse.mp member)
  · rintro ⟨later, ⟨earlier, split⟩, last⟩
    refine ⟨(direction, index), List.find?_eq_some_iff_append.mpr ?_, rfl⟩
    refine ⟨beq_self_eq_true direction, later.reverse, earlier.reverse, ?_, fun r member => ?_⟩
    · rw [split]
      simp
    · simpa using last r (List.mem_reverse.mp member)

/-- The port that a direction was given last faces it unless the port is given away later. -/
theorem Latest.direction?_eq_some_iff (latest : Latest registrations direction index later) :
    (ofRegistrations registrations).direction? index = some direction ↔ ∀ r ∈ later, r.2 ≠ index := by
  obtain ⟨⟨earlier, split⟩, last⟩ := latest
  have reversed : registrations.reverse = later.reverse ++ (direction, index) :: earlier.reverse := by
    rw [split]
    simp
  rw [direction?, registrations_ofRegistrations, reversed, List.find?_append]
  cases found : later.reverse.find? (·.2 == index) with
  | none =>
    constructor
    · intro _ r member
      simpa using List.find?_eq_none.mp found r (List.mem_reverse.mpr member)
    · intro _
      simp
  | some r =>
    have member := List.mem_reverse.mp (List.mem_of_find?_eq_some found)
    have given : r.2 = index := by simpa using List.find?_some found
    constructor
    · intro same
      exact absurd (by simpa using same) (last r member)
    · intro kept
      exact absurd given (kept r member)

theorem exists_index?_of_direction? (faces : (ofRegistrations registrations).direction? index = some direction) :
    ∃ latest, (ofRegistrations registrations).index? direction = some latest := by
  obtain ⟨r, found, same⟩ := Option.map_eq_some_iff.mp faces
  cases same
  exact exists_index?_of_mem (List.mem_of_find?_eq_some found)

theorem direction?_eq_iff_keeps (found : (ofRegistrations registrations).index? direction = some index) :
    (ofRegistrations registrations).direction? index = some direction ↔ Keeps registrations direction := by
  constructor
  · intro faces index' later latest
    have same := found.symm.trans (index?_eq_some_iff.mpr ⟨later, latest⟩)
    cases same
    exact latest.direction?_eq_some_iff.mp faces
  · intro keeps
    obtain ⟨later, latest⟩ := index?_eq_some_iff.mp found
    exact latest.direction?_eq_some_iff.mpr (keeps index later latest)

end DirectionMap

open DirectionMap

theorem RoutingUnit.nextHop_of_faces {u : RoutingUnit} {direction : Direction} {outport : Nat}
    (faces : u.outports.direction? outport = some direction) (route : Route) :
    (u.nextHop route outport).hops = route.hops + (if direction = .localPort then 0 else 1) ∧
      ∀ d, (u.nextHop route outport).checkpoint d = true ↔
        route.checkpoint d = true ∨ Closes u.algorithm u.router direction d := by
  let e : Exit := ⟨u, outport⟩
  have seen : e.direction? = some direction := faces
  constructor
  · rw [Exit.nextHop_eq e route]
    simp only [Exit.overLink, seen, Option.any_some]
    split <;> simp_all
  · intro d
    rw [Exit.checkpoint_nextHop (e := e)]
    simp [Exit.Crosses, seen, e]

/-- Whatever was registered, the port that is found for a direction faces it exactly if the port was not given away
after the direction got it, and then a hop over the port is one in the direction. A direction that is found for a port
finds the port that it got last. -/
theorem ports_face_their_directions_iff (registrations : List (Direction × Nat)) :
    (∀ direction index, (ofRegistrations registrations).index? direction = some index →
      ((ofRegistrations registrations).direction? index = some direction ↔ Keeps registrations direction) ∧
      (Keeps registrations direction → ∀ (u : RoutingUnit) (route : Route),
        let onward := { u with outports := ofRegistrations registrations }.nextHop route index
        onward.hops = route.hops + (if direction = .localPort then 0 else 1) ∧
          ∀ d, onward.checkpoint d = true ↔
            route.checkpoint d = true ∨ Closes u.algorithm u.router direction d)) ∧
    ∀ direction index, (ofRegistrations registrations).direction? index = some direction →
      ∃ latest later, (ofRegistrations registrations).index? direction = some latest ∧
        Latest registrations direction latest later := by
  refine ⟨fun direction index found => ⟨direction?_eq_iff_keeps found, fun keeps u route => ?_⟩,
    fun direction index faces => ?_⟩
  · have faces := (direction?_eq_iff_keeps found).mpr keeps
    exact RoutingUnit.nextHop_of_faces (u := { u with outports := ofRegistrations registrations }) faces route
  · obtain ⟨latest, found⟩ := exists_index?_of_direction? faces
    obtain ⟨later, last⟩ := index?_eq_some_iff.mp found
    exact ⟨latest, later, found, last⟩

/-- In a ring of eight, the port ahead of router 0 is given to the way back: a packet sent ahead by it is taken to
close the ring. -/
theorem port_given_away_faces_back :
    let m := ofRegistrations [(.ring .positive, 1), (.ring .negative, 1)]
    let u : RoutingUnit := { RoutingUnit.empty 0 (.ring 8) [] with outports := m }
    m.index? (.ring .positive) = some 1 ∧ m.direction? 1 = some (.ring .negative) ∧
      (u.nextHop (.toward 1 .empty 0) 1).checkpoint 0 = true ∧
      ¬ Closes u.algorithm u.router (.ring .positive) 0 := by
  refine ⟨rfl, rfl, rfl, ?_⟩
  rw [← Algorithm.wraparound?_eq_some_iff]
  decide

end Interconnect
