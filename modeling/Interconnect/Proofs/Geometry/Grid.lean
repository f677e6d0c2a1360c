import Mathlib
import Interconnect.Geometry.Grid
import Interconnect.Proofs.Failure
import Interconnect.Proofs.Geometry.Arc

namespace Interconnect.Grid

variable {g : Grid} {sides places : List Nat} {router other dimension : Nat} {sign : Sign}

def extent (g : Grid) (dimension : Nat) : Nat := g.sides[dimension]?.getD 0

def coordinate (g : Grid) (router dimension : Nat) : Nat := (g.coordinates router)[dimension]?.getD 0

theorem length_coordinatesOf (sides : List Nat) (index : Nat) :
    (coordinatesOf sides index).length = sides.length := by
  induction sides generalizing index with
  | nil => rfl
  | cons side sides ih => simp only [coordinatesOf, List.length_cons, ih]

theorem coordinatesOf_lt (positive : 0 ∉ sides) (index : Nat) :
    List.Forall₂ (· < ·) (coordinatesOf sides index) sides := by
  induction sides generalizing index with
  | nil => exact .nil
  | cons side sides ih =>
    rw [List.mem_cons, not_or] at positive
    exact .cons (Nat.mod_lt _ (Nat.pos_of_ne_zero (Ne.symm positive.1))) (ih positive.2 _)

theorem indexOf_coordinatesOf (sides : List Nat) (index : Nat) :
    indexOf sides (coordinatesOf sides index) = index % sides.foldr (· * ·) 1 := by
  induction sides generalizing index with
  | nil => exact (Nat.mod_one index).symm
  | cons side sides ih => rw [coordinatesOf, indexOf, ih, List.foldr_cons, Nat.mod_mul]

theorem indexOf_lt (bounded : List.Forall₂ (· < ·) places sides) :
    indexOf sides places < sides.foldr (· * ·) 1 := by
  induction bounded with
  | nil => exact Nat.one_pos
  | @cons place side places sides below _ ih =>
    rw [indexOf, List.foldr_cons]
    have room : side * (indexOf sides places + 1) ≤ side * sides.foldr (· * ·) 1 := Nat.mul_le_mul_left side ih
    rw [Nat.mul_succ] at room
    omega

theorem coordinatesOf_indexOf (bounded : List.Forall₂ (· < ·) places sides) :
    coordinatesOf sides (indexOf sides places) = places := by
  induction bounded with
  | nil => rfl
  | @cons place side places sides below _ ih =>
    rw [indexOf, coordinatesOf, Nat.add_mul_mod_self_left, Nat.mod_eq_of_lt below,
      Nat.add_mul_div_left _ _ (Nat.zero_lt_of_lt below), Nat.div_eq_of_lt below, Nat.zero_add, ih]

theorem zero_notMem_of_lt_size (inside : router < g.size) : 0 ∉ g.sides := by
  intro zero
  have none : g.sides.foldr (· * ·) 1 = 0 := by
    rw [← List.prod_eq_foldr]
    exact List.prod_eq_zero zero
  rw [size, none] at inside
  exact Nat.not_lt_zero _ inside

theorem length_coordinates (g : Grid) (router : Nat) : (g.coordinates router).length = g.dimensions :=
  length_coordinatesOf g.sides router

theorem sides_getElem? (within : dimension < g.dimensions) : g.sides[dimension]? = some (g.extent dimension) := by
  rw [extent, List.getElem?_eq_getElem within, Option.getD_some]

theorem coordinates_getElem? (within : dimension < g.dimensions) :
    (g.coordinates router)[dimension]? = some (g.coordinate router dimension) := by
  have short : dimension < (g.coordinates router).length := by rwa [length_coordinates]
  rw [coordinate, List.getElem?_eq_getElem short, Option.getD_some]

theorem coordinate_lt_extent (positive : 0 ∉ g.sides) (within : dimension < g.dimensions) :
    g.coordinate router dimension < g.extent dimension := by
  have bounded := coordinatesOf_lt positive router
  have short : dimension < (g.coordinates router).length := by rwa [length_coordinates]
  have below := (List.forall₂_iff_get.mp bounded).2 dimension short within
  rw [coordinate, extent, List.getElem?_eq_getElem short, List.getElem?_eq_getElem within]
  exact below

theorem coordinate_lt (inside : router < g.size) (within : dimension < g.dimensions) :
    g.coordinate router dimension < g.extent dimension :=
  coordinate_lt_extent (zero_notMem_of_lt_size inside) within

def ahead (g : Grid) (source target dimension : Nat) : Nat :=
  aheadBy (g.extent dimension) (g.coordinate source dimension) (g.coordinate target dimension)

theorem ahead_lt (inside : router < g.size) (within : dimension < g.dimensions) :
    g.ahead router other dimension < g.extent dimension :=
  aheadBy_lt (Nat.zero_lt_of_lt (coordinate_lt inside within))

theorem ahead_eq_zero_iff (inside : router < g.size) (inside' : other < g.size) (within : dimension < g.dimensions) :
    g.ahead router other dimension = 0 ↔ g.coordinate router dimension = g.coordinate other dimension :=
  aheadBy_eq_zero_iff (coordinate_lt inside within) (coordinate_lt inside' within)

theorem eq_of_coordinate_eq (inside : router < g.size) (inside' : other < g.size)
    (same : ∀ dimension < g.dimensions, g.coordinate router dimension = g.coordinate other dimension) :
    router = other := by
  have equal : g.coordinates router = g.coordinates other := by
    apply List.ext_getElem?
    intro dimension
    by_cases within : dimension < g.dimensions
    · rw [coordinates_getElem? within, coordinates_getElem? within, same dimension within]
    · rw [List.getElem?_eq_none, List.getElem?_eq_none]
      all_goals rw [length_coordinates]; omega
  have index := congrArg (indexOf g.sides) equal
  simp only [coordinates, indexOf_coordinatesOf] at index
  change router % g.size = other % g.size at index
  rwa [Nat.mod_eq_of_lt inside, Nat.mod_eq_of_lt inside'] at index

theorem neighbour_eq (inside : router < g.size) (within : dimension < g.dimensions) (sign : Sign) :
    ∃ next, g.neighbour router dimension sign = .ok next ∧ next < g.size ∧
      ∀ d, g.coordinate next d = if d = dimension
        then nextPlace (g.extent dimension) (g.coordinate router dimension) sign else g.coordinate router d := by
  have positive := zero_notMem_of_lt_size inside
  let place := nextPlace (g.extent dimension) (g.coordinate router dimension) sign
  let places := (g.coordinates router).set dimension place
  have bounded : List.Forall₂ (· < ·) places g.sides := by
    have before := List.forall₂_iff_get.mp (coordinatesOf_lt positive router)
    refine List.forall₂_iff_get.mpr ⟨(List.length_set ..).trans before.1, fun d short short' => ?_⟩
    simp only [List.get_eq_getElem, places, List.getElem_set]
    split
    · rename_i here
      subst here
      have below : place < g.extent dimension := nextPlace_lt (coordinate_lt inside within) sign
      rwa [extent, List.getElem?_eq_getElem within, Option.getD_some] at below
    · exact before.2 d _ short'
  refine ⟨indexOf g.sides places, ?_, indexOf_lt bounded, fun d => ?_⟩
  · refine bind_eq_ok.mpr ⟨_, if_neg positive, ?_⟩
    refine bind_eq_ok.mpr ⟨_, orBreach_eq_ok.mpr (sides_getElem? within), ?_⟩
    exact bind_eq_ok.mpr ⟨_, orBreach_eq_ok.mpr (coordinates_getElem? within), rfl⟩
  · rw [coordinate, coordinates, coordinatesOf_indexOf bounded, List.getElem?_set]
    by_cases here : d = dimension
    · subst here
      rw [if_pos rfl, if_pos rfl, if_pos (by rwa [length_coordinates]), Option.getD_some]
    · rw [if_neg (Ne.symm here), if_neg here, coordinate]

theorem wraparound?_torus (within : dimension < g.dimensions) (sign : Sign) :
    g.wraparound? router (.torus dimension sign) =
      if closesRing (g.extent dimension) (g.coordinate router dimension) sign then some dimension else none := by
  simp only [wraparound?, sides_getElem? within, coordinates_getElem? within, Option.bind_eq_bind, Option.bind_some]

theorem firstStep_eq_some {start : Nat} {current target : List Nat}
    (found : firstStep start sides current target = .ok (some (dimension, sign))) :
    ∃ d, dimension = start + d ∧ d < sides.length ∧
      (∃ side c t, sides[d]? = some side ∧ current[d]? = some c ∧ target[d]? = some t ∧
        aheadBy side c t ≠ 0 ∧ sign = if 2 * aheadBy side c t ≤ side then .positive else .negative) ∧
      ∀ e < d, ∃ side c t, sides[e]? = some side ∧ current[e]? = some c ∧ target[e]? = some t ∧
        aheadBy side c t = 0 := by
  induction sides generalizing start current target with
  | nil => simp [firstStep] at found
  | cons side sides ih =>
    match current, target with
    | [], _ => simp [firstStep] at found
    | _ :: _, [] => simp [firstStep] at found
    | c :: current, t :: target =>
      obtain ⟨offset, measured, rest⟩ := bind_eq_ok.mp found
      obtain ⟨-, -, -, rfl⟩ := ringOffset_eq_ok.mp measured
      obtain ⟨way, chosen, rest⟩ := bind_eq_ok.mp rest
      cases way with
      | some s =>
        cases rest
        obtain ⟨apart, -, nearer⟩ := shorterArc_eq_some_iff.mp chosen
        exact ⟨0, rfl, Nat.succ_pos _, ⟨side, c, t, rfl, rfl, rfl, apart, nearer⟩,
          fun e none => absurd none (Nat.not_lt_zero e)⟩
      | none =>
        obtain ⟨d, same, short, here, before⟩ := ih rest
        refine ⟨d + 1, by omega, Nat.succ_lt_succ short, here, fun e earlier => ?_⟩
        cases e with
        | zero => exact ⟨side, c, t, rfl, rfl, rfl, shorterArc_eq_none_iff.mp chosen⟩
        | succ e => exact before e (Nat.lt_of_succ_lt_succ earlier)

theorem dimensionOrder_eq_some (inside : router < g.size) (inside' : other < g.size)
    (found : g.dimensionOrder (g.coordinates router) (g.coordinates other) = .ok (some (dimension, sign))) :
    dimension < g.dimensions ∧ g.ahead router other dimension ≠ 0 ∧
      sign = (if 2 * g.ahead router other dimension ≤ g.extent dimension then .positive else .negative) ∧
      ∀ d < dimension, g.coordinate router d = g.coordinate other d := by
  obtain ⟨d, same, within, ⟨side, c, t, sideAt, sourceAt, targetAt, way⟩, before⟩ := firstStep_eq_some found
  rw [Nat.zero_add] at same
  subst same
  have measured : g.ahead router other dimension = aheadBy side c t := by
    simp only [ahead, extent, coordinate, sideAt, sourceAt, targetAt, Option.getD_some]
  have extent : g.extent dimension = side := by simp only [extent, sideAt, Option.getD_some]
  rw [measured, extent]
  refine ⟨within, way.1, way.2, fun e earlier => ?_⟩
  · have within' : e < g.dimensions := Nat.lt_trans earlier within
    obtain ⟨side', c', t', sideAt', sourceAt', targetAt', none⟩ := before e earlier
    have agree : g.ahead router other e = 0 := by
      simpa only [ahead, Grid.extent, coordinate, sideAt', sourceAt', targetAt', Option.getD_some] using none
    exact (ahead_eq_zero_iff inside inside' within').mp agree

/-- Along sides of at most half the words of 64 bits no distance and no double of one is too long for a word. -/
def Short (g : Grid) : Prop := ∀ side ∈ g.sides, side ≤ 2 ^ 63

theorem short_of_turn (bounded : g.sides.prod < 2 ^ 64) (positive : 0 ∉ g.sides) {d e : Nat}
    (within : d < g.dimensions) (within' : e < g.dimensions) (turns : d ≠ e) (long : 2 ≤ g.extent d)
    (long' : 2 ≤ g.extent e) : g.Short := by
  intro side member
  obtain ⟨k, known, rfl⟩ := List.mem_iff_getElem.mp member
  obtain ⟨other, among, turning⟩ : ∃ other ∈ g.sides.eraseIdx k, 2 ≤ other := by
    by_cases here : d = k
    · exact ⟨g.extent e, List.mem_eraseIdx_iff_getElem?.mpr ⟨e, fun same => turns (here.trans same.symm),
        sides_getElem? within'⟩, long'⟩
    · exact ⟨g.extent d, List.mem_eraseIdx_iff_getElem?.mpr ⟨d, here, sides_getElem? within⟩, long⟩
  have split : g.sides[k] * (g.sides.eraseIdx k).prod = g.sides.prod := by
    rw [← List.prod_cons]
    exact (List.getElem_cons_eraseIdx_perm known).prod_eq
  have rest : (g.sides.eraseIdx k).prod ≠ 0 := List.prod_ne_zero fun zero => positive (List.mem_of_mem_eraseIdx zero)
  have room : other ≤ (g.sides.eraseIdx k).prod := Nat.le_of_dvd (Nat.pos_of_ne_zero rest) (List.dvd_prod among)
  have whole : g.sides[k] * 2 ≤ g.sides.prod := split ▸ Nat.mul_le_mul_left _ (turning.trans room)
  omega

theorem exists_firstStep_eq_some {start : Nat} {current target : List Nat}
    (inside : List.Forall₂ (· < ·) current sides) (reachable : List.Forall₂ (· < ·) target sides)
    (short : ∀ side ∈ sides, side ≤ 2 ^ 63) (apart : current ≠ target) :
    ∃ choice, firstStep start sides current target = .ok (some choice) := by
  induction inside generalizing start target with
  | nil =>
    cases reachable
    exact absurd rfl apart
  | @cons c side current sides below _ ih =>
    cases reachable with
    | @cons t _ target _ below' reachable =>
      rw [List.forall_mem_cons] at short
      rw [firstStep, ringOffset_eq below (by omega)]
      by_cases same : c = t
      · have none : shorterArc (aheadBy side c t) side = .ok none :=
          shorterArc_eq_none_iff.mpr ((aheadBy_eq_zero_iff below below').mpr same)
        obtain ⟨choice, found⟩ := ih reachable short.2 fun rest => apart (by rw [same, rest])
        exact ⟨choice, bind_eq_ok.mpr ⟨_, rfl, bind_eq_ok.mpr ⟨_, none, found⟩⟩⟩
      · have ahead := aheadBy_lt (c := c) (t := t) (Nat.zero_lt_of_lt below)
        have offset : aheadBy side c t ≠ 0 := mt (aheadBy_eq_zero_iff below below').mp same
        obtain ⟨sign, way⟩ := exists_shorterArc_eq_some offset (show 2 * _ < 2 ^ 64 by omega) side
        exact ⟨(start, sign), bind_eq_ok.mpr ⟨_, rfl, bind_eq_ok.mpr ⟨_, way, rfl⟩⟩⟩

theorem exists_dimensionOrder_eq_some (short : g.Short) (inside : router < g.size) (inside' : other < g.size)
    (apart : router ≠ other) :
    ∃ choice, g.dimensionOrder (g.coordinates router) (g.coordinates other) = .ok (some choice) := by
  have positive := zero_notMem_of_lt_size inside
  apply exists_firstStep_eq_some (coordinatesOf_lt positive router) (coordinatesOf_lt positive other) short
  intro same
  apply apart
  apply eq_of_coordinate_eq inside inside'
  intro d _
  have same : g.coordinates router = g.coordinates other := same
  simp only [coordinate, same]

end Interconnect.Grid
