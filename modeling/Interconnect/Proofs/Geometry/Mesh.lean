import Mathlib
import Interconnect.Geometry.Grid

namespace Interconnect

namespace Axis

def coordinate (columns router : Nat) : Axis → Nat
  | x => router % columns
  | y => router / columns

def stride (columns : Nat) : Axis → Nat
  | x => 1
  | y => columns

def beyond (columns router : Nat) (axis : Axis) : Sign → Nat
  | .positive => router + axis.stride columns
  | .negative => router - axis.stride columns

def distance (columns source target : Nat) (axis : Axis) : Nat :=
  Nat.dist (axis.coordinate columns source) (axis.coordinate columns target)

def sense (columns source target : Nat) (axis : Axis) : Sign :=
  if axis.coordinate columns source < axis.coordinate columns target then .positive else .negative

end Axis

/-- The routers between a source and a target along both axes. -/
def InRectangle (columns source target router : Nat) : Prop :=
  ∀ axis : Axis,
    min (axis.coordinate columns source) (axis.coordinate columns target) ≤ axis.coordinate columns router ∧
      axis.coordinate columns router ≤ max (axis.coordinate columns source) (axis.coordinate columns target)

variable {columns source target router : Nat} {axis : Axis}

theorem meshStep_eq (positive : columns ≠ 0) (source target : Nat) :
    meshStep columns source target = .ok
      (if Axis.x.coordinate columns source ≠ Axis.x.coordinate columns target then
        some (.x, Axis.x.sense columns source target)
      else if Axis.y.coordinate columns source ≠ Axis.y.coordinate columns target then
        some (.y, Axis.y.sense columns source target)
      else none) := if_neg positive

theorem coordinate_x_lt (positive : 0 < columns) : Axis.x.coordinate columns router < columns :=
  Nat.mod_lt router positive

theorem eq_of_coordinates (columns router : Nat) :
    router = columns * Axis.y.coordinate columns router + Axis.x.coordinate columns router :=
  (Nat.div_add_mod router columns).symm

theorem coordinate_of_eq {row column : Nat} (below : column < columns) (place : router = columns * row + column) :
    Axis.x.coordinate columns router = column ∧ Axis.y.coordinate columns router = row := by
  subst place
  constructor
  · change (columns * row + column) % columns = column
    rw [Nat.mul_add_mod, Nat.mod_eq_of_lt below]
  · change (columns * row + column) / columns = row
    rw [Nat.mul_add_div (Nat.zero_lt_of_lt below), Nat.div_eq_of_lt below, Nat.add_zero]

theorem eq_of_coordinate_eq (columns : Nat)
    (same : ∀ axis : Axis, axis.coordinate columns source = axis.coordinate columns target) : source = target := by
  rw [eq_of_coordinates columns source, eq_of_coordinates columns target, same .x, same .y]

theorem distance_eq_zero_iff :
    axis.distance columns source target = 0 ↔ axis.coordinate columns source = axis.coordinate columns target := by
  simp only [Axis.distance, Nat.dist]
  omega

def Sign.Steps (step place next : Nat) : Sign → Prop
  | positive => next = place + step
  | negative => next + step = place

structure Axis.Leads (columns router next : Nat) (axis : Axis) (sign : Sign) : Prop where
  number : sign.Steps (axis.stride columns) router next
  along : sign.Steps 1 (axis.coordinate columns router) (axis.coordinate columns next)
  across : ∀ other, other ≠ axis → other.coordinate columns next = other.coordinate columns router

theorem Axis.Leads.of_x {next column : Nat} {sign : Sign} (number : sign.Steps 1 router next)
    (moves : sign.Steps 1 (Axis.x.coordinate columns router) column) (below : column < columns) :
    Axis.x.Leads columns router next sign := by
  have place := eq_of_coordinates columns router
  have next_place : next = columns * Axis.y.coordinate columns router + column := by
    cases sign <;> simp only [Sign.Steps] at number moves <;> omega
  rcases coordinate_of_eq below next_place with ⟨same_column, same_row⟩
  refine ⟨number, same_column.symm ▸ moves, fun other different => ?_⟩
  cases other with
  | x => exact absurd rfl different
  | y => exact same_row

theorem Axis.Leads.of_y {next row : Nat} {sign : Sign} (positive : 0 < columns)
    (number : sign.Steps columns router next) (moves : sign.Steps 1 (Axis.y.coordinate columns router) row) :
    Axis.y.Leads columns router next sign := by
  have place := eq_of_coordinates columns router
  have next_place : next = columns * row + Axis.x.coordinate columns router := by
    cases sign with
    | positive =>
      simp only [Sign.Steps] at number moves
      rw [moves, Nat.mul_succ]
      omega
    | negative =>
      simp only [Sign.Steps] at number moves
      rw [← moves, Nat.mul_succ] at place
      omega
  rcases coordinate_of_eq (coordinate_x_lt positive) next_place with ⟨same_column, same_row⟩
  refine ⟨number, same_row.symm ▸ moves, fun other different => ?_⟩
  cases other with
  | x => exact same_column
  | y => exact absurd rfl different

theorem leads_beyond (positive : 0 < columns)
    (apart : axis.coordinate columns router ≠ axis.coordinate columns target) :
    axis.Leads columns router (axis.beyond columns router (axis.sense columns router target))
      (axis.sense columns router target) := by
  have place := eq_of_coordinates columns router
  unfold Axis.sense
  cases axis with
  | x =>
    have here : Axis.x.coordinate columns router < columns := coordinate_x_lt positive
    have there : Axis.x.coordinate columns target < columns := coordinate_x_lt positive
    by_cases ahead : Axis.x.coordinate columns router < Axis.x.coordinate columns target
    · rw [if_pos ahead]
      exact .of_x rfl rfl (by omega)
    · rw [if_neg ahead]
      have back : Axis.x.coordinate columns router - 1 + 1 = Axis.x.coordinate columns router := by omega
      have number : Sign.negative.Steps 1 router (router - 1) := show router - 1 + 1 = router by omega
      exact .of_x number back (by omega)
  | y =>
    by_cases ahead : Axis.y.coordinate columns router < Axis.y.coordinate columns target
    · rw [if_pos ahead]
      exact .of_y positive rfl rfl
    · rw [if_neg ahead]
      have back : Axis.y.coordinate columns router - 1 + 1 = Axis.y.coordinate columns router := by omega
      have number : Sign.negative.Steps columns router (router - columns) := by
        rw [← back, Nat.mul_succ] at place
        show router - columns + columns = router
        omega
      exact .of_y positive number back

theorem distance_beyond (positive : 0 < columns)
    (apart : axis.coordinate columns router ≠ axis.coordinate columns target) :
    axis.distance columns (axis.beyond columns router (axis.sense columns router target)) target + 1 =
      axis.distance columns router target := by
  have moves := (leads_beyond positive apart).along
  unfold Axis.sense at moves ⊢
  simp only [Axis.distance, Nat.dist]
  by_cases ahead : axis.coordinate columns router < axis.coordinate columns target
  · rw [if_pos ahead] at moves ⊢
    simp only [Sign.Steps] at moves
    omega
  · rw [if_neg ahead] at moves ⊢
    simp only [Sign.Steps] at moves
    omega

theorem inRectangle_source (columns source target : Nat) : InRectangle columns source target source :=
  fun _ => ⟨min_le_left _ _, le_max_left _ _⟩

namespace InRectangle

variable (within : InRectangle columns source target router)
  (apart : axis.coordinate columns router ≠ axis.coordinate columns target)
include within

theorem inside {rows : Nat} (inside : source < rows * columns) (reachable : target < rows * columns) :
    router < rows * columns := by
  have positive : 0 < columns := Nat.pos_of_ne_zero fun none => by simp [none] at inside
  have between := (within .y).2
  change router / columns ≤ max (source / columns) (target / columns) at between
  rw [← Nat.div_lt_iff_lt_mul positive] at inside reachable ⊢
  omega

theorem distance_le (axis : Axis) : axis.distance columns router target ≤ axis.distance columns source target := by
  have between := within axis
  simp only [Axis.distance, Nat.dist]
  omega

include apart

theorem sense_eq : axis.sense columns router target = axis.sense columns source target := by
  have between := within axis
  unfold Axis.sense
  by_cases ahead : axis.coordinate columns router < axis.coordinate columns target
  · rw [if_pos ahead, if_pos (by omega)]
  · rw [if_neg ahead, if_neg (by omega)]

theorem next {next : Nat} (leads : axis.Leads columns router next (axis.sense columns router target)) :
    InRectangle columns source target next := by
  intro other
  have between := within other
  by_cases same : other = axis
  · subst same
    have moves := leads.along
    unfold Axis.sense at moves
    by_cases ahead : other.coordinate columns router < other.coordinate columns target
    · rw [if_pos ahead] at moves
      simp only [Sign.Steps] at moves
      omega
    · rw [if_neg ahead] at moves
      simp only [Sign.Steps] at moves
      omega
  · rw [leads.across other same]
    exact between

end InRectangle

end Interconnect
