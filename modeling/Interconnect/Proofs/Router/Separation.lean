import Mathlib
import Interconnect.Proofs.Port.Separation
import Interconnect.Proofs.Router.Safety

namespace Interconnect

namespace Algorithm

variable {s : Surroundings} {ports : List Port} {route : Route}

theorem poll_congr (agree : List.Forall₂ (Port.AgreesOn route.vnet) s.ports ports) (selection : Selection) :
    poll { s with ports } route selection = poll s route selection := by
  funext outport
  unfold poll
  dsimp only
  by_cases short : outport < s.ports.length
  · have short' : outport < ports.length := agree.length_eq ▸ short
    have same : s.ports[outport].AgreesOn route.vnet ports[outport] := agree.get short short'
    rw [List.getElem?_eq_getElem short, List.getElem?_eq_getElem short']
    simp only [orError, Except.mapError, bind, Except.bind, same.countFree_eq]
  · have beyond := Nat.le_of_not_lt short
    rw [List.getElem?_eq_none beyond, List.getElem?_eq_none (agree.length_eq ▸ beyond)]

theorem next_congr (a : Algorithm) (agree : List.Forall₂ (Port.AgreesOn route.vnet) s.ports ports) (random : Random) :
    a.next { s with ports } route random = a.next s route random := by
  cases a with
  | adaptive torus rule =>
    have same : ∀ fixed : Route, fixed.vnet = route.vnet →
        decideAdaptive torus { s with ports } fixed = decideAdaptive torus s fixed := by
      intro fixed vnet
      rw [← vnet] at agree
      unfold decideAdaptive
      rw [poll_congr agree]
      rfl
    unfold next
    dsimp only
    rcases ran : (route.fixDirections torus rule s.router).run.run random with ⟨b | left, random'⟩
    · rfl
    · dsimp only
      rw [same left (Route.fixedAs_fixDirections ran).vnet]
  | _ => rfl

end Algorithm

namespace RoutingUnit

theorem compute_congr {route : Route} {ports ports' : List Port}
    (agree : List.Forall₂ (Port.AgreesOn route.vnet) ports ports')
    (u : RoutingUnit) (counts : RoutingCounts) (inport : Nat) (entered : Direction) (random : Random) :
    ({ u with counts }.compute route inport entered ports random).1 =
      (u.compute route inport entered ports' random).1 := by
  by_cases here : route.router = u.router
  · rw [computed_here here, computed_here (u := { u with counts }) here]
    rfl
  · rw [computed_away here, computed_away (u := { u with counts }) here]
    have same := u.algorithm.next_congr
      (s := ⟨u.router, u.table, u.isOrdered route.vnet, inport, entered, u.outports, ports⟩) agree random
    rw [same]
    rfl

end RoutingUnit

namespace Router

/-- Two states of a router differ at most in the pools of the other virtual networks, and in what was counted, waits
for the links or is on its way back. -/
structure AgreesOn (vnet : Nat) (r s : Router) : Prop where
  unit : ∃ counts, r.unit = { s.unit with counts }
  ports : List.Forall₂ (Port.AgreesOn vnet) r.ports s.ports

def state? (r : Router) (outport channel : Nat) : Option ChannelState := r.ports[outport]?.bind (·.state? channel)

/-- What packets of a virtual network find free, what they are given and where they are sent is the same in two
states of a router. -/
structure SameFor (vnet : Nat) (r s : Router) : Prop where
  given : ∀ outport selection, (do return (← (← r.port outport).selectFree vnet selection).1) =
    do return (← (← s.port outport).selectFree vnet selection).1
  count : ∀ outport selection, (do (← r.port outport).countFree vnet selection) =
    do (← s.port outport).countFree vnet selection
  has : ∀ outport selection, (do (← r.port outport).hasFree vnet selection) =
    do (← s.port outport).hasFree vnet selection
  given_route : ∀ outport route, route.vnet = vnet →
    (do return (← r.selectFree outport route).1) = do return (← s.selectFree outport route).1
  count_route : ∀ outport route, route.vnet = vnet → r.countFree outport route = s.countFree outport route
  has_route : ∀ outport route, route.vnet = vnet → r.hasFree outport route = s.hasFree outport route
  computed : ∀ route inport random, route.vnet = vnet →
    (r.compute route inport random).1 = (s.compute route inport random).1

def Fitted (r : Router) : Prop :=
  ∃ index v built, ofValue index v = .ok built ∧ r.vnets = built.vnets ∧ List.Forall₂ Port.Alike r.ports built.ports

def share (r : Router) (vnet : Nat) : Operation → Option Operation
  | .atPort outport operation =>
    (r.ports[outport]?.bind fun p => p.share vnet operation).map fun action => .atPort outport (.act action)
  | _ => none

def shares (vnet : Nat) : Router → List Operation → List Operation
  | _, [] => []
  | r, operation :: operations =>
    (r.share vnet operation).toList ++
      match r.operate operation with
      | .ok s => s.shares vnet operations
      | .error _ => []

variable {r s t : Router} {vnet other outport : Nat} {operation : Operation}

theorem SameFor.symm (same : r.SameFor vnet s) : s.SameFor vnet r where
  given outport selection := (same.given outport selection).symm
  count outport selection := (same.count outport selection).symm
  has outport selection := (same.has outport selection).symm
  given_route outport route serves := (same.given_route outport route serves).symm
  count_route outport route serves := (same.count_route outport route serves).symm
  has_route outport route serves := (same.has_route outport route serves).symm
  computed route inport random serves := (same.computed route inport random serves).symm

theorem SameFor.trans (first : r.SameFor vnet s) (second : s.SameFor vnet t) : r.SameFor vnet t where
  given outport selection := (first.given outport selection).trans (second.given outport selection)
  count outport selection := (first.count outport selection).trans (second.count outport selection)
  has outport selection := (first.has outport selection).trans (second.has outport selection)
  given_route outport route serves := (first.given_route outport route serves).trans (second.given_route _ _ serves)
  count_route outport route serves := (first.count_route outport route serves).trans (second.count_route _ _ serves)
  has_route outport route serves := (first.has_route outport route serves).trans (second.has_route _ _ serves)
  computed route inport random serves :=
    (first.computed route inport random serves).trans (second.computed route inport random serves)

namespace AgreesOn

theorem refl (vnet : Nat) (r : Router) : r.AgreesOn vnet r :=
  ⟨⟨_, rfl⟩, List.forall₂_same.mpr fun p _ => .refl vnet p⟩

variable (agree : r.AgreesOn vnet s)
include agree

theorem port_cases (outport : Nat) :
    r.ports[outport]? = none ∧ s.ports[outport]? = none ∨
      ∃ p q, r.ports[outport]? = some p ∧ s.ports[outport]? = some q ∧ p.AgreesOn vnet q := by
  have lengths := agree.ports.length_eq
  by_cases short : outport < r.ports.length
  · have short' : outport < s.ports.length := lengths ▸ short
    exact .inr ⟨_, _, List.getElem?_eq_getElem short, List.getElem?_eq_getElem short', agree.ports.get short short'⟩
  · have beyond := Nat.le_of_not_lt short
    exact .inl ⟨List.getElem?_eq_none beyond, List.getElem?_eq_none (lengths ▸ beyond)⟩

theorem ask_eq {α : Type} {ask : Port → Except Breach α} (same : ∀ p q : Port, p.AgreesOn vnet q → ask p = ask q)
    (outport : Nat) : r.port outport >>= ask = s.port outport >>= ask := by
  unfold port
  rcases agree.port_cases outport with ⟨absent, absent'⟩ | ⟨p, q, present, present', agrees⟩
  · rw [absent, absent']
  · rw [present, present']
    exact same p q agrees

theorem selection_eq (route : Route) : r.unit.selection route = s.unit.selection route := by
  obtain ⟨counts, unit⟩ := agree.unit
  rw [unit]
  rfl

theorem given_eq (outport : Nat) (selection : Selection) :
    (do return (← (← r.port outport).selectFree vnet selection).1) =
      do return (← (← s.port outport).selectFree vnet selection).1 := by
  simp only [bind_pure_comp]
  exact agree.ask_eq (fun p q agrees => agrees.given_eq selection) outport

theorem computed_eq {route : Route} (serves : route.vnet = vnet) (inport : Nat) (random : Random) :
    (r.compute route inport random).1 = (s.compute route inport random).1 := by
  obtain ⟨counts, unit⟩ := agree.unit
  have ports := agree.ports
  rw [← serves] at ports
  unfold compute
  rw [unit]
  cases entered : s.unit.inports.direction? inport with
  | none => simp only [index, unit]
  | some direction =>
    dsimp only
    exact RoutingUnit.compute_congr ports s.unit counts inport direction random

theorem sameFor : r.SameFor vnet s where
  given := agree.given_eq
  count outport selection := agree.ask_eq (fun p q agrees => agrees.countFree_eq selection) outport
  has outport selection := agree.ask_eq (fun p q agrees => agrees.hasFree_eq selection) outport
  given_route outport route serves := by
    simp only [selectFree, bind_assoc, pure_bind, serves, agree.selection_eq route]
    exact agree.given_eq outport _
  count_route outport route serves := by
    unfold countFree
    rw [serves, agree.selection_eq route]
    exact agree.ask_eq (fun p q agrees => agrees.countFree_eq _) outport
  has_route outport route serves := by
    unfold hasFree
    rw [serves, agree.selection_eq route]
    exact agree.ask_eq (fun p q agrees => agrees.hasFree_eq _) outport
  computed route inport random serves := agree.computed_eq serves inport random

theorem setPort {p q : Port} (agrees : p.AgreesOn vnet q) (outport : Nat) :
    (r.setPort outport p).AgreesOn vnet (s.setPort outport q) := by
  refine ⟨agree.unit, List.forall₂_iff_get.mpr ⟨?_, fun i short short' => ?_⟩⟩
  · simp only [Router.setPort, List.length_set, agree.ports.length_eq]
  · simp only [Router.setPort, List.length_set] at short short'
    simp only [Router.setPort, List.get_eq_getElem, List.getElem_set]
    split
    · exact agrees
    · exact agree.ports.get short short'

theorem of_counts {counts : RoutingCounts} (unit : t.unit = { r.unit with counts }) (ports : t.ports = r.ports) :
    t.AgreesOn vnet s := by
  obtain ⟨counts', unit'⟩ := agree.unit
  refine ⟨⟨counts, ?_⟩, ?_⟩
  · rw [unit, unit']
  · rw [ports]
    exact agree.ports

theorem operate (fixed : ∀ update, operation ≠ .register update) (done : r.operate operation = .ok t) :
    ∃ u, (r.share vnet operation).toList.foldlM Router.operate s = .ok u ∧ t.AgreesOn vnet u := by
  cases operation with
  | compute route inport random =>
    cases done
    refine ⟨s, rfl, ?_⟩
    unfold compute
    split
    · exact agree
    · rename_i entered _
      obtain ⟨counts, unit⟩ := r.unit.compute_unit route inport entered r.ports random
      exact agree.of_counts unit rfl
  | register update => exact absurd rfl (fixed update)
  | atPort outport operation =>
    obtain ⟨p, present, rest⟩ := bind_eq_ok.mp done
    obtain ⟨q, operated, same⟩ := bind_eq_ok.mp rest
    cases same
    have at_place := orBreach_eq_ok.mp present
    rcases agree.port_cases outport with ⟨absent, -⟩ | ⟨p', q', found, found', agrees⟩
    · rw [at_place] at absent
      cases absent
    rw [at_place] at found
    cases found
    obtain ⟨q'', shared, agrees'⟩ := agrees.operate operated
    unfold share
    dsimp only
    rw [at_place, Option.bind_some]
    cases own : p.share vnet operation with
    | none =>
      rw [own] at shared
      cases shared
      have same : s.setPort outport q' = s := by
        obtain ⟨short, rfl⟩ := List.getElem?_eq_some_iff.mp found'
        unfold Router.setPort
        rw [List.set_getElem_self]
      refine ⟨s, rfl, ?_⟩
      rw [← same]
      exact agree.setPort agrees' outport
    | some action =>
      rw [own] at shared
      obtain ⟨_, performed, same⟩ := bind_eq_ok.mp shared
      cases same
      refine ⟨s.setPort outport q'', ?_, agree.setPort agrees' outport⟩
      refine bind_eq_ok.mpr ⟨_, bind_eq_ok.mpr ⟨q', orBreach_eq_ok.mpr found', ?_⟩, rfl⟩
      exact bind_eq_ok.mpr ⟨q'', performed, rfl⟩
  | reset cycle =>
    cases done
    obtain ⟨counts, unit⟩ := agree.unit
    refine ⟨s, rfl, ⟨.zero, ?_⟩, List.forall₂_map_left_iff.mpr (agree.ports.imp fun p q agrees => ?_)⟩
    · rw [reset, unit]
      rfl
    · exact ⟨agrees.direction, agrees.poolSize, agrees.states⟩

theorem run {operations : List Operation} (fixed : ∀ operation ∈ operations, ∀ update, operation ≠ .register update)
    (run : operations.foldlM Router.operate r = .ok t) :
    ∃ u, (r.shares vnet operations).foldlM Router.operate s = .ok u ∧ t.AgreesOn vnet u := by
  induction operations generalizing r s with
  | nil =>
    cases run
    exact ⟨s, rfl, agree⟩
  | cons operation operations ih =>
    rw [List.foldlM_cons] at run
    obtain ⟨next, done, rest⟩ := bind_eq_ok.mp run
    rw [List.forall_mem_cons] at fixed
    obtain ⟨middle, shared, agrees⟩ := agree.operate fixed.1 done
    obtain ⟨u, others, agrees'⟩ := ih agrees fixed.2 rest
    refine ⟨u, ?_, agrees'⟩
    unfold shares
    rw [done, List.foldlM_append]
    exact bind_eq_ok.mpr ⟨middle, shared, others⟩

end AgreesOn

theorem share_eq_none (owned : (r.share other operation).isSome) (foreign : other ≠ vnet) :
    r.share vnet operation = none := by
  cases operation with
  | atPort outport operation =>
    unfold share at owned ⊢
    dsimp only at owned ⊢
    cases present : r.ports[outport]? with
    | none => rfl
    | some p =>
      rw [present, Option.isSome_map, Option.bind_some] at owned
      obtain ⟨action, owned⟩ := Option.isSome_iff_exists.mp owned
      rw [Option.bind_some, Port.share_eq_none owned foreign]
      rfl
  | _ => cases owned

theorem InUse.fitted {built : Router} {index : Nat} {v : Config.Value} (done : ofValue index v = .ok built)
    (inUse : r.InUse built) : r.Fitted :=
  ⟨index, v, built, done, inUse.vnets, inUse.ports⟩

theorem Fitted.pools (fitted : r.Fitted) {p : Port} (member : p ∈ r.ports) :
    Word.mul r.vnets p.poolSize = .ok p.channels.length := by
  obtain ⟨index, v, built, done, vnets, ports⟩ := fitted
  -- with the unit that it was built with, the router is installed
  have installed : { r with unit := built.unit }.Installed index built.unit.algorithm :=
    ⟨v, built, done, rfl, vnets, ⟨_, _, rfl⟩, ports⟩
  exact (installed.wired.pools p member).2

theorem Fitted.exists_selectFree (fitted : r.Fitted) (serves : vnet < r.vnets) (within : outport < r.ports.length)
    (selection : Selection) :
    ∃ p given q, r.ports[outport]? = some p ∧ p.selectFree vnet selection = .ok (given, q) ∧
      ∀ i channel, (r.setPort outport q).state? i channel ≠ r.state? i channel →
        i = outport ∧ given = some channel ∧ channel ∈ p.pool vnet := by
  have present := List.getElem?_eq_getElem within
  have channels := fitted.pools (List.getElem_mem within)
  obtain ⟨given, q, selected⟩ := Port.exists_selectFree channels serves selection
  refine ⟨_, given, q, present, selected, fun i channel changed => ?_⟩
  unfold state? at changed
  by_cases same : outport = i
  · subst same
    rw [setPort, List.getElem?_set_self within, present] at changed
    exact ⟨rfl, Port.selectFree_changes selected changed⟩
  · rw [setPort, List.getElem?_set_ne same] at changed
    exact absurd rfl changed

/-- Two states of a router that agree on the pools of a virtual network are the same for its packets, and a selection
for the network changes one channel of these pools at most. No operation for another network changes anything for
it, and after any two runs in which the operations had the same shares in it the states are still the same for it. -/
theorem vnets_separate (fitted : r.Fitted) (serves : vnet < r.vnets) (agree : r.AgreesOn vnet s) :
    r.SameFor vnet s ∧
      (∀ outport < r.ports.length, ∀ selection, ∃ p given q,
        r.ports[outport]? = some p ∧ p.selectFree vnet selection = .ok (given, q) ∧
          ∀ i channel, (r.setPort outport q).state? i channel ≠ r.state? i channel →
            i = outport ∧ given = some channel ∧ channel ∈ p.pool vnet) ∧
      (∀ operation other, other ≠ vnet → (r.share other operation).isSome → r.share vnet operation = none) ∧
      (∀ operation t, (∀ update, operation ≠ .register update) → r.share vnet operation = none →
        r.operate operation = .ok t → t.SameFor vnet r) ∧
      ∀ operations operations' t t',
        (∀ operation ∈ operations, ∀ update, operation ≠ .register update) →
        (∀ operation ∈ operations', ∀ update, operation ≠ .register update) →
        operations.foldlM operate r = .ok t → operations'.foldlM operate s = .ok t' →
        r.shares vnet operations = s.shares vnet operations' → t.SameFor vnet t' := by
  refine ⟨agree.sameFor, ?_, ?_, ?_, ?_⟩
  · intro outport within selection
    exact fitted.exists_selectFree serves within selection
  · intro operation other foreign owned
    exact share_eq_none owned foreign
  · intro operation t fixed unshared done
    obtain ⟨u, same, agrees⟩ := (AgreesOn.refl vnet r).operate fixed done
    rw [unshared] at same
    cases same
    exact agrees.sameFor
  · intro operations operations' t t' fixed fixed' run run' same
    obtain ⟨u, shared, agrees⟩ := agree.run fixed run
    obtain ⟨u', shared', agrees'⟩ := (AgreesOn.refl vnet s).run fixed' run'
    rw [same, shared'] at shared
    cases shared
    exact agrees.sameFor.trans agrees'.sameFor.symm

def twoNetworks : Router :=
  let ports : List Direction := [.torus 0 .positive, .torus 0 .negative]
  let wiring : DirectionMap := ⟨ports.zipIdx.reverse⟩
  ⟨2, ⟨0, .adaptive ⟨[4]⟩ .shortest, .empty, [], wiring, wiring, .zero⟩,
    ports.zipIdx.map fun (direction, i) => .idle i direction 2 3 1, 0⟩

set_option maxRecDepth 4000 in
theorem twoNetworks_built : ∃ v, ofValue 0 v = .ok twoNetworks := by
  refine ⟨.object "Router" [("virtual_networks", .number (.ofNat 2)),
    ("virtual_channels_per_vnet", .number (.ofNat 3)), ("buffer_depth", .number .one),
    ("torus_extents", .array [.number (.ofNat 4)]), ("routing", .object "MINAD" []),
    ("ports", .array [.literal "dim0_pos", .literal "dim0_neg"])], ?_⟩
  rfl

theorem twoNetworks_separate :
    let own : Operation := .atPort 0 (.act (.select 0 .any))
    let other : Operation := .atPort 0 (.act (.select 1 .any))
    ∃ v r t t', ofValue 0 v = .ok twoNetworks ∧ twoNetworks.operate other = .ok r ∧
      r.state? 0 3 ≠ twoNetworks.state? 0 3 ∧ r.SameFor 0 twoNetworks ∧
      [own, other].foldlM operate r = .ok t ∧ [own].foldlM operate twoNetworks = .ok t' ∧ t.SameFor 0 t' := by
  intro own other
  obtain ⟨v, built⟩ := twoNetworks_built
  have selected : ∃ r t, twoNetworks.operate other = .ok r ∧ r.vnets = 2 ∧ r.state? 0 3 = some .active ∧
      [own, other].foldlM operate r = .ok t ∧ r.shares 0 [own, other] = [own] := ⟨_, _, rfl, rfl, rfl, rfl, rfl⟩
  have alone : ∃ t', [own].foldlM operate twoNetworks = .ok t' ∧ twoNetworks.shares 0 [own] = [own] := ⟨_, rfl, rfl⟩
  obtain ⟨r, t, done, vnets, taken, run, shares⟩ := selected
  obtain ⟨t', run', shares'⟩ := alone
  have fixed : ∀ operation ∈ [own, other], ∀ update, operation ≠ .register update := by simp [own, other]
  have fitted := (inUse_operate (fixed other (by simp)) done).fitted built
  obtain ⟨u, unshared, agree⟩ := (AgreesOn.refl 0 twoNetworks).operate (fixed other (by simp)) done
  cases unshared
  have serves : 0 < r.vnets := vnets ▸ Nat.two_pos
  obtain ⟨same, -, -, -, after⟩ := vnets_separate fitted serves agree
  have fixed' : ∀ operation ∈ [own], ∀ update, operation ≠ .register update := by simp [own]
  refine ⟨v, r, t, t', built, done, ?_, same, run, run', ?_⟩
  · rw [taken, show twoNetworks.state? 0 3 = some .idle from rfl]
    decide
  · exact after _ _ t t' fixed fixed' run run' (shares.trans shares'.symm)

end Router

end Interconnect
