import Mathlib
import Interconnect.Proofs.Failure
import Interconnect.Routing.Table

namespace Interconnect

/-- The indices that reach and weigh least among those that do, in increasing order. -/
structure IsLightest (reaches : Nat → Prop) (weight : Nat → Nat) (ports : List Nat) : Prop where
  increasing : ports.Pairwise (· < ·)
  mem_iff : ∀ p, p ∈ ports ↔ reaches p ∧ ∀ q, reaches q → weight p ≤ weight q

namespace RoutingTable

def weight (t : RoutingTable) (port : Nat) : Nat := t.weights[port]?.getD 0

theorem mem_reaching {t : RoutingTable} {vnet p : Nat} {destination : EndpointSet} :
    p ∈ t.reaching vnet destination ↔ ∃ set, (t.row vnet)[p]? = some set ∧ set.intersects destination := by
  simp only [reaching, List.mem_map, List.mem_filter, Prod.exists, List.mem_zipIdx_iff_getElem?]
  constructor
  · rintro ⟨set, port, ⟨entry, meets⟩, rfl⟩
    exact ⟨set, entry, meets⟩
  · rintro ⟨set, entry, meets⟩
    exact ⟨set, p, ⟨entry, meets⟩, rfl⟩

theorem reaching_increasing (t : RoutingTable) (vnet : Nat) (destination : EndpointSet) :
    (t.reaching vnet destination).Pairwise (· < ·) := by
  have all : ((t.row vnet).zipIdx.map Prod.snd).Pairwise (· < ·) := by
    rw [List.zipIdx_map_snd]
    exact List.pairwise_lt_range'
  exact all.sublist (List.filter_sublist.map Prod.snd)

theorem weigh_eq {t : RoutingTable} {port : Nat} (weighed : port < t.weights.length) :
    t.weigh port = .ok (port, t.weight port) := by
  simp [weigh, weight, weighed, orError, bind, Except.bind, pure, Except.pure]

theorem mapM_weigh_eq {t : RoutingTable} {ports : List Nat} (weighed : ∀ p ∈ ports, p < t.weights.length) :
    ports.mapM t.weigh = .ok (ports.map fun p => (p, t.weight p)) := by
  rw [mapM_eq_ok, List.forall₂_map_right_iff]
  exact List.forall₂_same.2 fun p member => weigh_eq (weighed p member)

theorem candidates_eq {t : RoutingTable} {vnet : Nat} {destination : EndpointSet}
    (weighed : ∀ p ∈ t.reaching vnet destination, p < t.weights.length) :
    t.candidates vnet destination = .ok ((t.reaching vnet destination).filter fun p =>
      some (t.weight p) == ((t.reaching vnet destination).map t.weight).min?) := by
  have weights : ((t.reaching vnet destination).map fun p => (p, t.weight p)).map Prod.snd =
      (t.reaching vnet destination).map t.weight := by
    rw [List.map_map]
    rfl
  rw [candidates, mapM_weigh_eq weighed]
  simp only [bind, Except.bind, weights]
  cases lowest : ((t.reaching vnet destination).map t.weight).min? with
  | none =>
    have nothing : t.reaching vnet destination = [] := by simpa using lowest
    rw [nothing]
    rfl
  | some least => simp [List.filter_map, Function.comp_def, pure, Except.pure]

theorem candidates_isLightest {t : RoutingTable} {vnet : Nat} {destination : EndpointSet}
    (weighed : ∀ p ∈ t.reaching vnet destination, p < t.weights.length) :
    ∃ ports, t.candidates vnet destination = .ok ports ∧
      IsLightest (· ∈ t.reaching vnet destination) t.weight ports := by
  refine ⟨_, candidates_eq weighed, (t.reaching_increasing vnet destination).filter _, fun p => ?_⟩
  rw [List.mem_filter, beq_iff_eq, eq_comm, List.min?_eq_some_iff]
  constructor
  · rintro ⟨member, _, least⟩
    exact ⟨member, fun q other => least _ (List.mem_map_of_mem other)⟩
  · rintro ⟨member, lightest⟩
    refine ⟨member, List.mem_map_of_mem member, fun weight attained => ?_⟩
    obtain ⟨q, other, rfl⟩ := List.mem_map.mp attained
    exact lightest q other

/-- The table of a router whose ports were given these entries and weights, in order. -/
def ofPorts (ports : List (List EndpointSet × Nat)) : RoutingTable :=
  ports.foldl (fun t port => (t.addRoute port.1).addWeight port.2) empty

theorem getElem?_addTo (rows : List (List EndpointSet)) (entry : List EndpointSet) (vnet : Nat) :
    (addTo rows entry)[vnet]?.getD [] = rows[vnet]?.getD [] ++ entry[vnet]?.toList := by
  induction rows, entry using addTo.induct generalizing vnet with
  | case1 rows => simp [addTo]
  | case2 e entry ih => cases vnet <;> simp [addTo, ih]
  | case3 row rows e entry ih => cases vnet <;> simp [addTo, ih]

theorem row_addRoute (t : RoutingTable) (entry : List EndpointSet) (vnet : Nat) :
    (t.addRoute entry).row vnet = t.row vnet ++ entry[vnet]?.toList := getElem?_addTo t.rows entry vnet

theorem ofPorts_append (ports : List (List EndpointSet × Nat)) (port : List EndpointSet × Nat) :
    ofPorts (ports ++ [port]) = ((ofPorts ports).addRoute port.1).addWeight port.2 := by
  simp [ofPorts]

theorem ofPorts_row (ports : List (List EndpointSet × Nat)) (vnet : Nat) :
    (ofPorts ports).row vnet = ports.filterMap (·.1[vnet]?) := by
  induction ports using List.reverseRecOn with
  | nil => simp [ofPorts, row, empty]
  | append_singleton ports port ih =>
    have kept : ((ofPorts ports).addRoute port.1).row vnet = (ofPorts (ports ++ [port])).row vnet := by
      rw [ofPorts_append]
      rfl
    rw [← kept, row_addRoute, ih, List.filterMap_append]
    cases h : port.1[vnet]? <;> simp [h]

theorem ofPorts_weights (ports : List (List EndpointSet × Nat)) :
    (ofPorts ports).weights = ports.map Prod.snd := by
  induction ports using List.reverseRecOn with
  | nil => rfl
  | append_singleton ports port ih => simp [ofPorts_append, addWeight, addRoute, ih]

theorem length_addTo (rows : List (List EndpointSet)) (entry : List EndpointSet) :
    (addTo rows entry).length = max rows.length entry.length := by
  induction rows, entry using addTo.induct with
  | case1 rows => simp [addTo]
  | case2 e entry ih => simp [addTo, ih]
  | case3 row rows e entry ih => simp [addTo, ih]

/-- The row of each virtual network has the sets that the ports give for it, in order, and there is none that no port
gives a set for. -/
structure Lists (t : RoutingTable) (ports : List (List EndpointSet × Nat)) : Prop where
  row : ∀ vnet, t.row vnet = ports.filterMap (·.1[vnet]?)
  networks : ∀ vnet, vnet < t.rows.length ↔ ∃ port ∈ ports, vnet < port.1.length
  weights : t.weights = ports.map Prod.snd

theorem ofPorts_networks (ports : List (List EndpointSet × Nat)) (vnet : Nat) :
    vnet < (ofPorts ports).rows.length ↔ ∃ port ∈ ports, vnet < port.1.length := by
  induction ports using List.reverseRecOn with
  | nil => simp [ofPorts, empty]
  | append_singleton ports port ih =>
    have longer : (ofPorts (ports ++ [port])).rows.length = max (ofPorts ports).rows.length port.1.length := by
      rw [ofPorts_append]
      exact length_addTo (ofPorts ports).rows port.1
    rw [longer, lt_max_iff, ih]
    simp [or_and_right, exists_or]

theorem lists_iff {t : RoutingTable} {ports : List (List EndpointSet × Nat)} :
    t.Lists ports ↔ t = ofPorts ports := by
  constructor
  · rintro ⟨row, networks, weights⟩
    have lengths : t.rows.length = (ofPorts ports).rows.length :=
      eq_of_forall_lt_iff fun vnet => (networks vnet).trans (ofPorts_networks ports vnet).symm
    have rows : t.rows = (ofPorts ports).rows := by
      apply List.ext_getElem lengths
      intro vnet short short'
      have same := (row vnet).trans (ofPorts_row ports vnet).symm
      rwa [RoutingTable.row, RoutingTable.row, List.getElem?_eq_getElem short, List.getElem?_eq_getElem short',
        Option.getD_some, Option.getD_some] at same
    rw [← ofPorts_weights] at weights
    cases t
    exact congr (congrArg RoutingTable.mk rows) weights
  · rintro rfl
    exact ⟨ofPorts_row ports, ofPorts_networks ports, ofPorts_weights ports⟩

end RoutingTable

end Interconnect
