import Mathlib
import Interconnect.Proofs.Network.SinglePath
import Interconnect.Proofs.Router.Ownership

namespace Interconnect

/-- One of so many ports, or an error for want of a route, of a port in some direction or of a direction. -/
def Sound (ports : Nat) : Except Failure Nat → Prop
  | .ok outport => outport < ports
  | .error (.error e) => e.kind = .missingRoute ∨ e.kind = .missingDirection ∨ e.kind = .undetermined
  | .error (.breach _) => False

/-- Whether a packet that came in facing a direction may go on along an axis of a mesh: not back, and not along the
first axis after the second. -/
def Axis.Admits (axis : Axis) (sign : Sign) (entered : Direction) : Prop :=
  match axis with
  | .x => entered = .localPort ∨ entered = .mesh .x sign.opposite
  | .y => entered ≠ .mesh .y sign

namespace RoutingTable

variable {entries : List (List EndpointSet × Nat)} {ports : Nat}

end RoutingTable

namespace Router

/-- The packet may leave for its next step in a mesh by the port it came in by. -/
def Admits (r : Router) (route : Route) (inport : Nat) : Prop :=
  ∀ columns rows axis sign entered, r.unit.algorithm = .mesh columns rows →
    meshStep columns r.index route.router = .ok (some (axis, sign)) →
    r.unit.inports.direction? inport = some entered → axis.Admits sign entered

end Router

namespace Algorithm

theorem decideMesh_eq {columns : Nat} {s : Surroundings} {route : Route} {axis : Axis} {sign : Sign}
    (step : meshStep columns s.router route.router = .ok (some (axis, sign))) (admitted : axis.Admits sign s.entered) :
    decideMesh columns s route = do return ⟨← (s.outport (.mesh axis sign)).mapError .error, 1⟩ := by
  unfold decideMesh
  rw [step]
  cases axis with
  | x => rcases admitted with here | back <;> simp [*, Except.mapError, bind, Except.bind]
  | y =>
    have ahead : s.entered ≠ .mesh .y sign := admitted
    simp [ahead, Except.mapError, bind, Except.bind]

theorem map_outport (found : Except Failure Nat) :
    (do return (⟨← found, 1⟩ : Decision)).map Decision.outport = found := by
  cases found <;> rfl

section Decisions

variable {r : Router} {place : Nat} {a : Algorithm} {s : Surroundings} {route : Route} (wired : r.Wired place a)
  (outports : s.outports = r.unit.outports) (ports : s.ports = r.ports) (away : s.router ≠ route.router)

include wired outports

include away

include ports

end Decisions

end Algorithm

namespace Port

variable {p q : Port}

theorem operate_alike {operation : Operation} (operated : p.operate operation = .ok q) : q.Alike p := by
  cases operation with
  | act action => exact perform_alike operated
  | applyCredit credit =>
    rcases applyCredit_ok operated with ⟨c, found, rfl⟩
    exact credited_alike found
  | restoreCredit channel =>
    rcases restoreCredit_ok operated with ⟨c, found, rfl⟩
    exact setChannel_alike found c.restore_index c.restore_depth
  | spendCredit channel =>
    rcases spendCredit_ok operated with ⟨c, found, rfl⟩
    exact setChannel_alike found rfl rfl
  | pushFlit flit =>
    cases operated
    exact ⟨rfl, rfl, rfl, rfl⟩
  | resetCounts =>
    cases operated
    exact ⟨rfl, rfl, rfl, rfl⟩

end Port

namespace Router

variable {r s built : Router} {index : Nat} {v : Config.Value} {operation : Operation}

theorem InUse.refl (r : Router) : r.InUse r := ⟨rfl, ⟨_, rfl⟩, (Alike.refl r).ports⟩

theorem InUse.trans {t : Router} (first : t.InUse s) (second : s.InUse r) : t.InUse r := by
  rcases first.unit with ⟨counts, unit⟩
  rcases second.unit with ⟨counts', unit'⟩
  have ports := (first.alike.trans second.alike).ports
  exact ⟨first.vnets.trans second.vnets, ⟨counts, by rw [unit, unit']⟩, ports⟩

theorem inUse_operate (fixed : ∀ update, operation ≠ .register update) (done : r.operate operation = .ok s) :
    s.InUse r := by
  cases operation with
  | compute route inport random =>
    cases done
    unfold compute
    split
    · exact .refl r
    · rename_i entered _
      rcases r.unit.compute_unit route inport entered r.ports random with ⟨counts, unit⟩
      exact ⟨rfl, ⟨counts, unit⟩, (Alike.refl r).ports⟩
  | register update => exact absurd rfl (fixed update)
  | atPort outport operation =>
    rcases bind_eq_ok.mp done with ⟨p, present, rest⟩
    rcases bind_eq_ok.mp rest with ⟨q, operated, same⟩
    cases same
    have alike := Port.operate_alike operated
    exact ⟨rfl, ⟨_, rfl⟩, (setPort_alike (orBreach_eq_ok.mp present) alike).ports⟩
  | reset cycle =>
    cases done
    refine ⟨rfl, ⟨_, rfl⟩, List.forall₂_map_left_iff.mpr ?_⟩
    exact List.forall₂_same.mpr fun p _ => ⟨rfl, rfl, rfl, rfl⟩

def column : Router :=
  let ports : List Direction := [.localPort, .mesh .y .positive]
  let wiring : DirectionMap := ⟨ports.zipIdx.reverse⟩
  ⟨1, ⟨0, .mesh 1 (some 2), .empty, [], wiring, wiring, .zero⟩,
    ports.zipIdx.map fun (direction, i) => .idle i direction 1 1 1, 0⟩

end Router

end Interconnect
