import Mathlib
import Interconnect.Proofs.Geometry.Grid

namespace Interconnect.Grid

variable {g : Grid} {sides places : List Nat} {index router other dimension : Nat}

/-- How far apart the numbers of two neighbours along a dimension are. -/
def stride (g : Grid) (dimension : Nat) : Nat := (g.sides.take dimension).prod

theorem size_eq_prod (g : Grid) : g.size = g.sides.prod := List.prod_eq_foldr.symm

theorem ofSides_eq_ok (positive : 0 ∉ sides) : ofSides sides = .ok g ↔ sides.prod < 2 ^ 64 ∧ g = ⟨sides⟩ := by
  simp only [ofSides, bind_eq_ok, Word.product_eq_ok positive]
  constructor
  · rintro ⟨_, ⟨bounded, rfl⟩, ⟨⟩⟩
    exact ⟨bounded, rfl⟩
  · rintro ⟨bounded, rfl⟩
    exact ⟨_, ⟨bounded, rfl⟩, rfl⟩

end Interconnect.Grid
