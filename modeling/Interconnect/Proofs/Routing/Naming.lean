import Mathlib
import Interconnect.Proofs.Config.Object
import Interconnect.Proofs.Geometry.Numbering
import Interconnect.Routing.Algorithm

namespace Interconnect

open Config (Value expectBare_eq_ok_iff)

variable {geometry : Geometry} {v : Value} {name : String} {fields : List (String × Value)}

structure Geometry.Spans (geometry : Geometry) (torus : Grid) : Prop where
  given : geometry.torusExtents = some torus.sides
  dimensional : torus.sides ≠ []
  positive : 0 ∉ torus.sides
  bounded : torus.sides.prod < 2 ^ 64

namespace Algorithm

/-- The name of an algorithm, where the geometry gives what the algorithm needs to know of the network. -/
inductive Named (geometry : Geometry) : String → Algorithm → Prop where
  | table : Named geometry "Table" table
  | mesh {columns : Nat} : geometry.meshColumns = some columns → columns ≠ 0 → geometry.meshRows ≠ some 0 →
      Named geometry "XY" (mesh columns geometry.meshRows)
  | ring {size : Nat} : geometry.ringSize = some size → size ≠ 0 → Named geometry "Ring" (ring size)
  | dimensionOrder {torus : Grid} : geometry.Spans torus → Named geometry "DOR" (dimensionOrder torus)
  | drawn {torus : Grid} : geometry.Spans torus → Named geometry "GOAL" (adaptive torus .drawn)
  | shortest {torus : Grid} : geometry.Spans torus → Named geometry "MINAD" (adaptive torus .shortest)

theorem torusOf_eq_ok_iff {torus : Grid} : torusOf v geometry = .ok torus ↔ geometry.Spans torus := by
  simp only [torusOf, bind_eq_ok, liftM_error_eq_ok, liftM_breach_eq_ok, orError_eq_ok, refused_or_eq_ok,
    Bool.or_eq_true, List.isEmpty_iff, List.contains_iff_mem, not_or]
  constructor
  · rintro ⟨extents, given, ⟨dimensional, positive⟩, built⟩
    obtain ⟨bounded, rfl⟩ := (Grid.ofSides_eq_ok positive).mp built
    exact ⟨given, dimensional, positive, bounded⟩
  · rintro ⟨given, dimensional, positive, bounded⟩
    exact ⟨torus.sides, given, ⟨dimensional, positive⟩, (Grid.ofSides_eq_ok positive).mpr ⟨bounded, rfl⟩⟩

theorem meshOf_eq_ok_iff {a : Algorithm} :
    meshOf v geometry = .ok a ↔
      ∃ columns, geometry.meshColumns = some columns ∧ (columns ≠ 0 ∧ geometry.meshRows ≠ some 0) ∧
        a = mesh columns geometry.meshRows := by
  simp [meshOf, bind_eq_ok, orError_eq_ok, refused_or_eq_ok, pure, Except.pure, eq_comm (b := a)]

theorem ringOf_eq_ok_iff {a : Algorithm} :
    ringOf v geometry = .ok a ↔ ∃ size, geometry.ringSize = some size ∧ size ≠ 0 ∧ a = ring size := by
  simp [ringOf, bind_eq_ok, orError_eq_ok, refused_or_eq_ok, pure, Except.pure, eq_comm (b := a)]

theorem ofValue_object_eq_ok_iff {a : Algorithm} :
    ofValue (.object name fields) geometry = .ok a ↔
      (∀ field ∈ fields, field.1 = "legend_name") ∧ Named geometry name a := by
  unfold ofValue
  constructor
  · intro done
    rcases bind_eq_ok.mp done with ⟨name, ⟨⟩, done⟩
    split at done
    case h_7 => cases done
    all_goals
      rcases bind_eq_ok.mp done with ⟨⟨⟩, bare, done⟩
      refine ⟨(expectBare_eq_ok_iff.mp (liftM_error_eq_ok.mp bare)).2, ?_⟩
    case h_1 =>
      cases done
      exact .table
    case h_2 =>
      rcases meshOf_eq_ok_iff.mp (liftM_error_eq_ok.mp done) with ⟨columns, given, ⟨wide, tall⟩, rfl⟩
      exact .mesh given wide tall
    case h_3 =>
      rcases ringOf_eq_ok_iff.mp (liftM_error_eq_ok.mp done) with ⟨size, given, inhabited, rfl⟩
      exact .ring given inhabited
    all_goals
      rcases bind_eq_ok.mp done with ⟨torus, spanned, ⟨⟩⟩
      have spanned := torusOf_eq_ok_iff.mp spanned
    · exact .dimensionOrder spanned
    · exact .drawn spanned
    · exact .shortest spanned
  · rintro ⟨bare, named⟩
    apply bind_eq_ok.mpr
    cases named
    all_goals
      refine ⟨_, rfl, bind_eq_ok.mpr ⟨(), liftM_error_eq_ok.mpr (expectBare_eq_ok_iff.mpr ⟨by simp, bare⟩), ?_⟩⟩
    case table => rfl
    case mesh columns given wide tall =>
      exact liftM_error_eq_ok.mpr (meshOf_eq_ok_iff.mpr ⟨columns, given, ⟨wide, tall⟩, rfl⟩)
    case ring size given inhabited =>
      exact liftM_error_eq_ok.mpr (ringOf_eq_ok_iff.mpr ⟨size, given, inhabited, rfl⟩)
    all_goals exact bind_eq_ok.mpr ⟨_, torusOf_eq_ok_iff.mpr ‹_›, rfl⟩

theorem ofValue_eq_ok_iff {a : Algorithm} :
    ofValue v geometry = .ok a ↔
      ∃ name fields, v = .object name fields ∧ (∀ field ∈ fields, field.1 = "legend_name") ∧
        Named geometry name a := by
  constructor
  · intro done
    cases v with
    | object name fields => exact ⟨name, fields, rfl, ofValue_object_eq_ok_iff.mp done⟩
    | _ => cases done
  · rintro ⟨name, fields, rfl, described⟩
    exact ofValue_object_eq_ok_iff.mpr described

end Algorithm

end Interconnect
