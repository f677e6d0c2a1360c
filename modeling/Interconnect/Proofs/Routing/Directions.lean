import Mathlib
import Interconnect.Proofs.Geometry.Grid
import Interconnect.Routing.Decision

namespace Interconnect

variable {g : Grid} {source target dimension offset side : Nat} {rule : DirectionRule}

def travel (offset side : Nat) : Option Sign → Nat
  | none => 0
  | some .positive => offset
  | some .negative => side - offset

theorem min_le_travel {sign? : Option Sign} (fixed : sign? = none → offset = 0) :
    min offset (side - offset) ≤ travel offset side sign? := by
  cases sign? with
  | none =>
    rw [fixed rfl, Nat.zero_min]
    exact Nat.zero_le _
  | some sign => cases sign <;> simp only [travel] <;> omega

theorem all_nearest_iff {sign? : Option Sign} (inside : offset < side) (fixed : sign? = none → offset = 0) :
    sign?.all (nearest offset side) = true ↔ min offset (side - offset) = travel offset side sign? := by
  cases sign? with
  | none =>
    rw [fixed rfl, Nat.zero_min]
    exact ⟨fun _ => rfl, fun _ => rfl⟩
  | some sign => cases sign <;> simp only [Option.all_some, nearest, travel, decide_eq_true_eq] <;> omega

def offsetIn : Nat × Nat × Nat → Nat × Nat
  | (side, c, t) => (aheadBy side c t, side)

namespace Grid

def travel (g : Grid) (source target : Nat) (signs : List (Option Sign)) : Nat :=
  ∑ d ∈ Finset.range g.dimensions, Interconnect.travel (g.ahead source target d) (g.extent d) signs[d]?.join

/-- The least number of hops from the source to the target. -/
def distance (g : Grid) (source target : Nat) : Nat :=
  ∑ d ∈ Finset.range g.dimensions, min (g.ahead source target d) (g.extent d - g.ahead source target d)

theorem arcs_getElem? (within : dimension < g.dimensions) :
    (g.arcs source target)[dimension]? =
      some (g.extent dimension, g.coordinate source dimension, g.coordinate target dimension) :=
  List.getElem?_zip_eq_some.mpr ⟨sides_getElem? within,
    List.getElem?_zip_eq_some.mpr ⟨coordinates_getElem? within, coordinates_getElem? within⟩⟩

def offsets (g : Grid) (source target : Nat) : List (Nat × Nat) :=
  (g.arcs source target).map offsetIn

theorem bounded_of_mem_arcs (short : g.Short) (inside : source < g.size) {arc : Nat × Nat × Nat}
    (member : arc ∈ g.arcs source target) :
    arc.2.1 < arc.1 ∧ arc.2.2 + arc.1 < 2 ^ 64 ∧ 2 * (offsetIn arc).1 < 2 ^ 64 := by
  obtain ⟨d, listed⟩ := List.mem_iff_getElem?.mp member
  have within : d < g.dimensions := (List.getElem?_eq_some_iff.mp (List.getElem?_zip_eq_some.mp listed).1).1
  rw [arcs_getElem? within] at listed
  cases listed
  have bounded : g.extent d ≤ 2 ^ 63 := short _ (List.mem_of_getElem? (sides_getElem? within))
  have here : g.coordinate source d < g.extent d := coordinate_lt inside within
  have there : g.coordinate target d < g.extent d := coordinate_lt_extent (zero_notMem_of_lt_size inside) within
  have offset := aheadBy_lt (c := g.coordinate source d) (t := g.coordinate target d) (Nat.zero_lt_of_lt here)
  simp only [offsetIn]
  omega

theorem length_offsets (g : Grid) (source target : Nat) : (g.offsets source target).length = g.dimensions := by
  simp only [offsets, arcs, List.length_map, List.length_zip, length_coordinates, Nat.min_self]
  exact Nat.min_self _

theorem offsets_getElem? (within : dimension < g.dimensions) :
    (g.offsets source target)[dimension]? = some (g.ahead source target dimension, g.extent dimension) := by
  rw [offsets, List.getElem?_map, arcs_getElem? within]
  rfl

/-- A direction for each dimension with an offset, and for no other. -/
structure Directs (g : Grid) (source target : Nat) (signs : List (Option Sign)) : Prop where
  length : signs.length = g.dimensions
  fixed : ∀ d < g.dimensions, signs[d]?.join = none ↔ g.ahead source target d = 0

end Grid

def areNearest (offsets : List (Nat × Nat)) (signs : List (Option Sign)) : Bool :=
  (offsets.zip signs).all fun ((offset, side), sign?) => sign?.all (nearest offset side)

namespace DirectionRule

variable {arcs : List (Nat × Nat × Nat)} {random random' : Random}

def choose (rule : DirectionRule) (offset side : Nat) (random : Random) : Sign × Random :=
  match rule with
  | shortest => (if 2 * offset < side then .positive else .negative, random)
  | drawn =>
    let drew := random.chance (aheadChance offset side)
    (if drew.1 then .positive else .negative, drew.2)

def chosen (rule : DirectionRule) : List (Nat × Nat) → Random → List (Option Sign) × Random
  | [], random => ([], random)
  | (offset, side) :: offsets, random =>
    if offset = 0 then
      let (others, random) := rule.chosen offsets random
      (none :: others, random)
    else
      let (sign, random) := rule.choose offset side random
      let (others, random) := rule.chosen offsets random
      (some sign :: others, random)

theorem chosen_cons_zero (rule : DirectionRule) (side : Nat) (offsets : List (Nat × Nat)) (random : Random) :
    rule.chosen ((0, side) :: offsets) random =
      (none :: (rule.chosen offsets random).1, (rule.chosen offsets random).2) :=
  rfl

theorem chosen_cons (rule : DirectionRule) (apart : offset ≠ 0) (offsets : List (Nat × Nat)) (random : Random) :
    rule.chosen ((offset, side) :: offsets) random =
      (some (rule.choose offset side random).1 :: (rule.chosen offsets (rule.choose offset side random).2).1,
        (rule.chosen offsets (rule.choose offset side random).2).2) := by
  rw [chosen, if_neg apart]

theorem length_chosen (rule : DirectionRule) (offsets : List (Nat × Nat)) (random : Random) :
    (rule.chosen offsets random).1.length = offsets.length := by
  induction offsets generalizing random with
  | nil => rfl
  | cons pair offsets ih =>
    obtain ⟨offset, side⟩ := pair
    by_cases none : offset = 0
    · rw [none, chosen_cons_zero, List.length_cons, List.length_cons, ih]
    · rw [chosen_cons rule none, List.length_cons, List.length_cons, ih]

theorem nearest_choose (offset side : Nat) (random : Random) :
    nearest offset side (choose .shortest offset side random).1 = true := by
  change nearest offset side (if 2 * offset < side then .positive else .negative) = true
  by_cases near : 2 * offset < side
  · rw [if_pos near]
    exact decide_eq_true (Nat.le_of_lt near)
  · rw [if_neg near]
    exact decide_eq_true (Nat.le_of_not_lt near)

theorem chosen_getElem? (rule : DirectionRule) {offsets : List (Nat × Nat)} (random : Random)
    (listed : offsets[dimension]? = some (offset, side)) :
    ∃ sign?, (rule.chosen offsets random).1[dimension]? = some sign? ∧ (sign? = none ↔ offset = 0) ∧
      (rule = .shortest → sign?.all (nearest offset side) = true) := by
  induction offsets generalizing random dimension with
  | nil => cases listed
  | cons pair offsets ih =>
    obtain ⟨offset', side'⟩ := pair
    cases dimension with
    | zero =>
      cases listed
      by_cases none : offset = 0
      · rw [none, chosen_cons_zero]
        exact ⟨.none, List.getElem?_cons_zero, ⟨fun _ => rfl, fun _ => rfl⟩, fun _ => rfl⟩
      · rw [chosen_cons rule none]
        refine ⟨some _, List.getElem?_cons_zero, ⟨nofun, fun zero => absurd zero none⟩, ?_⟩
        intro shortest
        subst shortest
        exact nearest_choose offset side random
    | succ d =>
      by_cases none : offset' = 0
      · rw [none, chosen_cons_zero]
        exact ih random listed
      · rw [chosen_cons rule none]
        exact ih _ listed

theorem choose_drawn (offset side : Nat) (random : Random) :
    choose .drawn offset side random =
      (if (random.chance (aheadChance offset side)).1 then .positive else .negative,
        (random.chance (aheadChance offset side)).2) := rfl

theorem sign_drawn (offset side : Nat) (random : Random) :
    (sign .drawn offset side).run.run random =
      (.ok (if (random.chance (aheadChance offset side)).1 then .positive else .negative),
        (random.chance (aheadChance offset side)).2) :=
  run_modifyGet_bind random (Random.chance (aheadChance offset side)) fun ahead =>
    if ahead then Sign.positive else Sign.negative

theorem sign_shortest (offset side : Nat) (random : Random) :
    (sign .shortest offset side).run.run random =
      match Word.mul 2 offset with
      | .ok doubled => (.ok (if doubled < side then .positive else .negative), random)
      | .error b => (.error b, random) := by
  rw [sign, run_bind]
  cases Word.mul 2 offset <;> rfl

theorem choose_of_sign {sign : Sign} (done : (rule.sign offset side).run.run random = (.ok sign, random')) :
    rule.choose offset side random = (sign, random') := by
  cases rule with
  | drawn =>
    rewrite [sign_drawn, Prod.mk.injEq, Except.ok.injEq] at done
    rw [choose_drawn, done.1, done.2]
  | shortest =>
    rw [sign_shortest] at done
    cases doubled : Word.mul 2 offset with
    | error b =>
      rw [doubled] at done
      cases done
    | ok n =>
      rw [doubled] at done
      obtain ⟨-, rfl⟩ := Word.mul_eq_ok.mp doubled
      cases done
      rfl

theorem exists_sign_eq_ok (rule : DirectionRule) (bounded : 2 * offset < 2 ^ 64) (side : Nat) (random : Random) :
    ∃ sign random', (rule.sign offset side).run.run random = (.ok sign, random') := by
  cases rule with
  | drawn => exact ⟨_, _, sign_drawn offset side random⟩
  | shortest =>
    have doubled : Word.mul 2 offset = .ok (2 * offset) := Word.mul_eq_ok.mpr ⟨bounded, rfl⟩
    rw [sign_shortest, doubled]
    exact ⟨_, _, rfl⟩

theorem signs_eq_ok {signs : List (Option Sign)} {minimal : Bool}
    (done : (rule.signs arcs).run.run random = (.ok (signs, minimal), random')) :
    rule.chosen (arcs.map offsetIn) random = (signs, random') ∧
      minimal = areNearest (arcs.map offsetIn) signs := by
  induction arcs generalizing random signs minimal with
  | nil =>
    cases done
    exact ⟨rfl, rfl⟩
  | cons arc arcs ih =>
    obtain ⟨side, c, t⟩ := arc
    rw [DirectionRule.signs] at done
    obtain ⟨offset, _, lifted, done⟩ := run_bind_eq_ok.mp done
    obtain ⟨arc?, _, lifted', done⟩ := run_bind_eq_ok.mp done
    obtain ⟨measured, rfl⟩ := run_liftM_eq_ok.mp lifted
    obtain ⟨halved, rfl⟩ := run_liftM_eq_ok.mp lifted'
    obtain ⟨-, -, -, rfl⟩ := ringOffset_eq_ok.mp measured
    cases arc? with
    | none =>
      obtain ⟨⟨others, minimal'⟩, _, rest, same⟩ := run_bind_eq_ok.mp done
      cases same
      obtain ⟨chosen, rfl⟩ := ih rest
      have none := shorterArc_eq_none_iff.mp halved
      rw [List.map_cons, offsetIn, none, chosen_cons_zero, chosen]
      exact ⟨rfl, (Bool.true_and _).symm⟩
    | some way =>
      obtain ⟨apart, -, -⟩ := shorterArc_eq_some_iff.mp halved
      obtain ⟨sign, _, signed, done⟩ := run_bind_eq_ok.mp done
      obtain ⟨short, _, lifted, done⟩ := run_bind_eq_ok.mp done
      obtain ⟨⟨others, minimal'⟩, _, rest, same⟩ := run_bind_eq_ok.mp done
      obtain ⟨compared, rfl⟩ := run_liftM_eq_ok.mp lifted
      obtain ⟨-, rfl⟩ := isShortest_eq_ok.mp compared
      cases same
      obtain ⟨chosen, rfl⟩ := ih rest
      rw [List.map_cons, offsetIn, chosen_cons rule apart, choose_of_sign signed, chosen]
      exact ⟨rfl, rfl⟩

theorem exists_signs_eq_ok (rule : DirectionRule)
    (bounded : ∀ arc ∈ arcs, arc.2.1 < arc.1 ∧ arc.2.2 + arc.1 < 2 ^ 64 ∧ 2 * (offsetIn arc).1 < 2 ^ 64)
    (random : Random) : ∃ result random', (rule.signs arcs).run.run random = (.ok result, random') := by
  induction arcs generalizing random with
  | nil => exact ⟨_, _, rfl⟩
  | cons arc arcs ih =>
    obtain ⟨side, c, t⟩ := arc
    obtain ⟨inside, sum, doubled⟩ := bounded _ List.mem_cons_self
    have others := ih fun arc member => bounded arc (List.mem_cons_of_mem _ member)
    have measured : ringOffset side c t = .ok (aheadBy side c t) := ringOffset_eq inside sum
    by_cases none : aheadBy side c t = 0
    · have halved : shorterArc (aheadBy side c t) side = .ok .none := shorterArc_eq_none_iff.mpr none
      obtain ⟨⟨signs, minimal⟩, random', rest⟩ := others random
      refine ⟨(.none :: signs, minimal), random', ?_⟩
      rw [DirectionRule.signs, run_bind_of_eq_ok (run_liftM_eq_ok.mpr ⟨measured, rfl⟩),
        run_bind_of_eq_ok (run_liftM_eq_ok.mpr ⟨halved, rfl⟩)]
      exact run_bind_of_eq_ok rest
    · obtain ⟨way, halved⟩ := exists_shorterArc_eq_some none doubled side
      obtain ⟨sign, random', signed⟩ := exists_sign_eq_ok rule doubled side random
      obtain ⟨⟨signs, minimal⟩, random'', rest⟩ := others random'
      have compared : isShortest (aheadBy side c t) side sign = .ok (nearest (aheadBy side c t) side sign) :=
        isShortest_eq_ok.mpr ⟨doubled, rfl⟩
      refine ⟨(some sign :: signs, nearest (aheadBy side c t) side sign && minimal), random'', ?_⟩
      rw [DirectionRule.signs, run_bind_of_eq_ok (run_liftM_eq_ok.mpr ⟨measured, rfl⟩),
        run_bind_of_eq_ok (run_liftM_eq_ok.mpr ⟨halved, rfl⟩)]
      refine (run_bind_of_eq_ok signed).trans ?_
      rw [run_bind_of_eq_ok (run_liftM_eq_ok.mpr ⟨compared, rfl⟩)]
      exact run_bind_of_eq_ok rest

/-- In a torus of short sides no sum and no product of the directions grows too large. -/
theorem exists_signs_of_short (rule : DirectionRule) (short : g.Short) (inside : source < g.size) (target : Nat)
    (random : Random) :
    ∃ result random', (rule.signs (g.arcs source target)).run.run random = (.ok result, random') :=
  rule.exists_signs_eq_ok (fun _ => Grid.bounded_of_mem_arcs short inside) random

end DirectionRule

theorem areNearest_iff {signs : List (Option Sign)} (directs : g.Directs source target signs) :
    areNearest (g.offsets source target) signs = true ↔
      ∀ d < g.dimensions, signs[d]?.join.all (nearest (g.ahead source target d) (g.extent d)) = true := by
  rw [areNearest, List.all_eq_true]
  constructor
  · intro shortest d within
    have short : d < signs.length := directs.length ▸ within
    have listed := List.getElem?_eq_getElem short
    have zipped : ((g.offsets source target).zip signs)[d]? = some (_, signs[d]) :=
      List.getElem?_zip_eq_some.mpr ⟨Grid.offsets_getElem? within, listed⟩
    rw [listed]
    exact shortest _ (List.mem_of_getElem? zipped)
  · intro shortest x member
    obtain ⟨d, zipped⟩ := List.mem_iff_getElem?.mp member
    obtain ⟨⟨offset, side⟩, sign?⟩ := x
    obtain ⟨ahead, listed⟩ := List.getElem?_zip_eq_some.mp zipped
    have within : d < g.dimensions := directs.length ▸ (List.getElem?_eq_some_iff.mp listed).1
    have known := shortest d within
    rw [Grid.offsets_getElem? within] at ahead
    rw [listed] at known
    cases ahead
    exact known

theorem areNearest_iff_travel_eq_distance {signs : List (Option Sign)} (inside : source < g.size)
    (directs : g.Directs source target signs) :
    areNearest (g.offsets source target) signs = true ↔
      g.travel source target signs = g.distance source target := by
  rw [areNearest_iff directs, eq_comm, Grid.distance, Grid.travel, Finset.sum_eq_sum_iff_of_le]
  · simp only [Finset.mem_range]
    apply forall₂_congr
    intro d within
    exact all_nearest_iff (Grid.ahead_lt inside within) (directs.fixed d within).mp
  · intro d member
    exact min_le_travel (directs.fixed d (Finset.mem_range.mp member)).mp

theorem Route.direction?_eq {r : Route} {signs : List (Option Sign)} (fixed : r.directions = some signs)
    (dimension : Nat) : r.direction? dimension = signs[dimension]?.join := by
  simp only [direction?, fixed, Option.bind_eq_bind, Option.bind_some]
  cases signs[dimension]? <;> rfl

structure Route.FixedAs (route left : Route) : Prop where
  router : left.router = route.router
  vnet : left.vnet = route.vnet
  checkpoints : left.checkpoints = route.checkpoints
  kept : route.directions.isSome → left = route

theorem Route.fixDirections_of_none {torus : Grid} {place : Nat} {route left : Route} {random random' : Random}
    (fresh : route.directions = none) :
    (route.fixDirections torus rule place).run.run random = (.ok left, random') ↔
      ∃ signs minimal, (rule.signs (torus.arcs place route.router)).run.run random = (.ok (signs, minimal), random') ∧
        left = { route with directions := some signs, minimal } := by
  rw [fixDirections, fresh, Option.isSome_none, if_neg Bool.false_ne_true]
  constructor
  · intro done
    obtain ⟨⟨signs, minimal⟩, _, drawn, same⟩ := run_bind_eq_ok.mp done
    cases same
    exact ⟨signs, minimal, drawn, rfl⟩
  · rintro ⟨signs, minimal, drawn, rfl⟩
    exact run_bind_of_eq_ok drawn

theorem Route.fixDirections_of_isSome {route : Route} (given : route.directions.isSome) (torus : Grid)
    (rule : DirectionRule) (place : Nat) (random : Random) :
    (route.fixDirections torus rule place).run.run random = (.ok route, random) := by
  rw [fixDirections, if_pos given]
  rfl

theorem Route.fixedAs_fixDirections {torus : Grid} {place : Nat} {route left : Route} {random random' : Random}
    (done : (route.fixDirections torus rule place).run.run random = (.ok left, random')) :
    route.FixedAs left := by
  by_cases given : route.directions.isSome
  · rw [fixDirections_of_isSome given] at done
    cases done
    exact ⟨rfl, rfl, rfl, fun _ => rfl⟩
  · obtain ⟨signs, minimal, -, rfl⟩ := (fixDirections_of_none (Option.not_isSome_iff_eq_none.mp given)).mp done
    exact ⟨rfl, rfl, rfl, fun given' => absurd given' given⟩

theorem DirectionRule.directs_of_signs (inside : source < g.size) {signs : List (Option Sign)} {minimal : Bool}
    {random random' : Random}
    (drawn : (rule.signs (g.arcs source target)).run.run random = (.ok (signs, minimal), random')) :
    g.Directs source target signs ∧
      (minimal = true ↔ g.travel source target signs = g.distance source target) ∧
      (rule = .shortest → minimal = true) := by
  obtain ⟨chosen, rfl⟩ := signs_eq_ok drawn
  rw [← Grid.offsets] at chosen
  have known : (rule.chosen (g.offsets source target) random).1 = signs := by rw [chosen]
  have directs : g.Directs source target signs := by
    rw [← known]
    constructor
    · rw [length_chosen, Grid.length_offsets]
    · intro d within
      obtain ⟨sign?, listed, none_iff, _⟩ := chosen_getElem? rule random (Grid.offsets_getElem? within)
      rw [listed]
      exact none_iff
  refine ⟨directs, areNearest_iff_travel_eq_distance inside directs, ?_⟩
  intro shortest
  rw [← Grid.offsets, areNearest_iff directs, ← known]
  intro d within
  obtain ⟨sign?, listed, _, near⟩ := chosen_getElem? rule random (Grid.offsets_getElem? within)
  rw [listed]
  exact near shortest

namespace Algorithm

variable {torus : Grid} {s : Surroundings} {r left : Route} {random random' : Random}

theorem next_adaptive (fixed : (r.fixDirections torus rule s.router).run.run random = (.ok left, random')) :
    (adaptive torus rule).next s r random = ⟨decideAdaptive torus s left, left, random'⟩ := by
  rw [next, fixed]

theorem next_adaptive_eq_ok {decision : Decision}
    (decided : ((adaptive torus rule).next s r random).decision = .ok decision) :
    ∃ left random', (r.fixDirections torus rule s.router).run.run random = (.ok left, random') ∧
      decideAdaptive torus s left = .ok decision ∧
      (adaptive torus rule).next s r random = ⟨.ok decision, left, random'⟩ := by
  rcases ran : (r.fixDirections torus rule s.router).run.run random with ⟨b | left, random'⟩
  · rw [next, ran] at decided
    cases decided
  · rw [next_adaptive ran] at decided
    have chosen : decideAdaptive torus s left = .ok decision := decided
    exact ⟨left, random', rfl, chosen, by rw [next_adaptive ran, chosen]⟩

end Algorithm

end Interconnect
