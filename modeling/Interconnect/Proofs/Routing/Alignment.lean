import Mathlib
import Interconnect.Proofs.Routing.Table

namespace Interconnect

theorem getElem?_filterMap_eq_some {α β : Type} {f : α → Option β} {as : List α} {j : Nat} {b : β} :
    (as.filterMap f)[j]? = some b ↔
      ∃ p, as[p]?.bind f = some b ∧ (as.take p).countP (fun a => (f a).isSome) = j := by
  induction as generalizing j with
  | nil => simp
  | cons a as ih =>
    cases kept : f a with
    | none =>
      rw [List.filterMap_cons_none kept, ih]
      constructor
      · rintro ⟨p, found, rank⟩
        exact ⟨p + 1, by simpa using found, by simpa [kept] using rank⟩
      · rintro ⟨p, found, rank⟩
        cases p with
        | zero => simp [kept] at found
        | succ p => exact ⟨p, by simpa using found, by simpa [kept] using rank⟩
    | some first =>
      rw [List.filterMap_cons_some kept]
      constructor
      · intro found
        cases j with
        | zero => exact ⟨0, by simpa [kept] using found, by simp⟩
        | succ j =>
          obtain ⟨p, found, rank⟩ := ih.1 (by simpa using found)
          exact ⟨p + 1, by simpa using found, by simp [kept, rank]⟩
      · rintro ⟨p, found, rank⟩
        cases p with
        | zero =>
          have start : j = 0 := by simpa using rank.symm
          subst start
          simpa [kept] using found
        | succ p =>
          obtain ⟨j, rfl⟩ : ∃ i, j = i + 1 := ⟨_, by simpa [kept] using rank.symm⟩
          simpa using ih.2 ⟨p, by simpa using found, by simpa [kept] using rank⟩

namespace RoutingTable

def given (entries : List (List EndpointSet)) (vnet port : Nat) : Option EndpointSet :=
  entries[port]?.bind (·[vnet]?)

def Reaches (entries : List (List EndpointSet)) (vnet : Nat) (destination : EndpointSet) (port : Nat) : Prop :=
  ∃ set, given entries vnet port = some set ∧ set.intersects destination

/-- No port without a set for the network stands before a port that reaches something in it. -/
def Gapless (entries : List (List EndpointSet)) (vnet : Nat) : Prop :=
  ∀ p set, given entries vnet p = some set → (∃ endpoint, endpoint ∈ set) →
    ∀ q < p, (given entries vnet q).isSome

/-- The ports before `port` that were given a set for the network. -/
def rank (entries : List (List EndpointSet)) (vnet port : Nat) : Nat :=
  (entries.take port).countP fun entry => (entry[vnet]?).isSome

theorem rank_le (entries : List (List EndpointSet)) (vnet port : Nat) : rank entries vnet port ≤ port := by
  calc rank entries vnet port ≤ (entries.take port).length := List.countP_le_length
    _ ≤ port := List.length_take_le port entries

theorem rank_succ {entries : List (List EndpointSet)} {vnet p : Nat} (covered : (given entries vnet p).isSome) :
    rank entries vnet (p + 1) = rank entries vnet p + 1 := by
  obtain ⟨set, found⟩ := Option.isSome_iff_exists.1 covered
  obtain ⟨entry, at_port, for_vnet⟩ := Option.bind_eq_some_iff.1 found
  simp [rank, List.take_add_one, at_port, for_vnet]

theorem rank_mono (entries : List (List EndpointSet)) (vnet : Nat) {p q : Nat} (le : p ≤ q) :
    rank entries vnet p ≤ rank entries vnet q :=
  (List.take_sublist_take_left le).countP_le

theorem rank_lt {entries : List (List EndpointSet)} {vnet p q : Nat} (lt : p < q)
    (covered : (given entries vnet p).isSome) : rank entries vnet p < rank entries vnet q := by
  have next := rank_succ covered
  have later := rank_mono entries vnet (Nat.succ_le_of_lt lt)
  simp only [Nat.succ_eq_add_one] at later
  omega

theorem rank_eq_of_covered {entries : List (List EndpointSet)} {vnet p : Nat}
    (covered : ∀ q < p, (given entries vnet q).isSome) : rank entries vnet p = p := by
  induction p with
  | zero => simp [rank]
  | succ p ih =>
    rw [rank_succ (covered p (by omega)), ih fun q lt => covered q (by omega)]

theorem covered_of_rank_eq {entries : List (List EndpointSet)} {vnet p : Nat}
    (same : rank entries vnet p = p) : ∀ q < p, (given entries vnet q).isSome := by
  induction p with
  | zero => intro q lt; omega
  | succ p ih =>
    have covered : (given entries vnet p).isSome := by
      by_contra missing
      have bound := rank_le entries vnet p
      have unchanged : rank entries vnet (p + 1) = rank entries vnet p := by
        unfold given at missing
        cases at_port : entries[p]? <;> simp_all [rank, List.take_add_one]
      omega
    have before := ih (by have next := rank_succ covered; omega)
    intro q lt
    rcases Nat.lt_succ_iff_lt_or_eq.1 lt with earlier | rfl
    · exact before q earlier
    · exact covered

theorem Reaches.covered {entries : List (List EndpointSet)} {vnet p : Nat} {destination : EndpointSet}
    (reaches : Reaches entries vnet destination p) : (given entries vnet p).isSome := by
  obtain ⟨set, found, _⟩ := reaches
  simp [found]

theorem Gapless.rank_eq {entries : List (List EndpointSet)} {vnet p : Nat} {destination : EndpointSet}
    (gapless : Gapless entries vnet) (reaches : Reaches entries vnet destination p) :
    rank entries vnet p = p := by
  obtain ⟨set, found, meets⟩ := reaches
  obtain ⟨endpoint, member, _⟩ := EndpointSet.intersects_iff.1 meets
  exact rank_eq_of_covered (gapless p set found ⟨endpoint, member⟩)

theorem mem_reaching_ofPorts {entries : List (List EndpointSet)} {weights : List Nat}
    (size : weights.length = entries.length) {vnet j : Nat} {destination : EndpointSet} :
    j ∈ (ofPorts (entries.zip weights)).reaching vnet destination ↔
      ∃ p, Reaches entries vnet destination p ∧ rank entries vnet p = j := by
  have row : (ofPorts (entries.zip weights)).row vnet = entries.filterMap (·[vnet]?) := by
    rw [ofPorts_row]
    have entries_eq : (entries.zip weights).map Prod.fst = entries := List.map_fst_zip size.ge
    conv_rhs => rw [← entries_eq, List.filterMap_map]
    rfl
  simp only [mem_reaching, row, getElem?_filterMap_eq_some]
  constructor
  · rintro ⟨set, ⟨p, found, same⟩, meets⟩
    exact ⟨p, ⟨set, found, meets⟩, same⟩
  · rintro ⟨p, ⟨set, found, meets⟩, same⟩
    exact ⟨set, ⟨p, found, same⟩, meets⟩

theorem candidates_isLightest_ranks {entries : List (List EndpointSet)} {weights : List Nat}
    (size : weights.length = entries.length) (vnet : Nat) (destination : EndpointSet) :
    ∃ ports, (ofPorts (entries.zip weights)).candidates vnet destination = .ok ports ∧
      IsLightest (fun j => ∃ p, Reaches entries vnet destination p ∧ rank entries vnet p = j)
        (fun p => weights[p]?.getD 0) ports := by
  have stored : (ofPorts (entries.zip weights)).weights = weights := by
    rw [ofPorts_weights, List.map_snd_zip size.le]
  have weighed : ∀ j ∈ (ofPorts (entries.zip weights)).reaching vnet destination,
      j < (ofPorts (entries.zip weights)).weights.length := by
    intro j member
    obtain ⟨p, reaches, rfl⟩ := (mem_reaching_ofPorts size).1 member
    obtain ⟨set, found, _⟩ := reaches
    obtain ⟨entry, at_port, _⟩ := Option.bind_eq_some_iff.1 found
    have inside := (List.getElem?_eq_some_iff.1 at_port).1
    have low := rank_le entries vnet p
    rw [stored, size]
    omega
  obtain ⟨ports, computed, lightest⟩ := candidates_isLightest weighed
  have weight_eq : (ofPorts (entries.zip weights)).weight = fun p => weights[p]?.getD 0 := by
    funext p
    rw [weight, stored]
  refine ⟨ports, computed, lightest.increasing, fun p => ?_⟩
  simpa only [mem_reaching_ofPorts size, weight_eq] using lightest.mem_iff p

theorem rank_eq_of_ranks_reach {entries : List (List EndpointSet)} {vnet : Nat} {destination : EndpointSet}
    (closed : ∀ p, Reaches entries vnet destination p →
      Reaches entries vnet destination (rank entries vnet p)) :
    ∀ p, Reaches entries vnet destination p → rank entries vnet p = p := by
  intro p
  induction p using Nat.strong_induction_on with
  | h p ih =>
    intro reaches
    have low := rank_le entries vnet p
    by_contra moved
    -- the port that it moves to reaches too and keeps its place, so that two ports would have one rank
    have fixed := ih (rank entries vnet p) (by omega) (closed p reaches)
    have moved_down : rank entries vnet p < p := by omega
    have above := rank_lt moved_down (closed p reaches).covered
    omega

/-- The candidates of a table are the lightest ports among those whose own entry reaches the destination, for
all weights and destinations, exactly if no gap stands before an entry. -/
theorem candidates_own_ports_iff_gapless (entries : List (List EndpointSet)) (vnet : Nat) :
    (∀ weights : List Nat, weights.length = entries.length → ∀ destination, ∃ ports,
      (ofPorts (entries.zip weights)).candidates vnet destination = .ok ports ∧
        IsLightest (Reaches entries vnet destination) (fun p => weights[p]?.getD 0) ports) ↔
      Gapless entries vnet := by
  constructor
  · intro own p set found ⟨endpoint, member⟩
    -- With equal weights every port that reaches the endpoint is a candidate, and so is every rank.
    let destination := EndpointSet.single endpoint
    have size : (List.replicate entries.length 0).length = entries.length := List.length_replicate
    have equal : ∀ p q : Nat, (List.replicate entries.length 0)[p]?.getD 0 ≤
        (List.replicate entries.length 0)[q]?.getD 0 := by
      intro p q
      simp only [List.getElem?_replicate]
      split <;> simp
    obtain ⟨ports, computed, lightest⟩ := own _ size destination
    obtain ⟨ports', computed', ranked⟩ := candidates_isLightest_ranks size vnet destination
    have same : ports = ports' := Except.ok.inj (computed.symm.trans computed')
    subst same
    have closed : ∀ p, Reaches entries vnet destination p →
        Reaches entries vnet destination (rank entries vnet p) := by
      intro p reaches
      have candidate := (ranked.mem_iff (rank entries vnet p)).2 ⟨⟨p, reaches, rfl⟩, fun q _ => equal _ q⟩
      exact ((lightest.mem_iff _).1 candidate).1
    have reaches : Reaches entries vnet destination p :=
      ⟨set, found, EndpointSet.intersects_iff.2 ⟨endpoint, member, EndpointSet.mem_single.2 rfl⟩⟩
    exact covered_of_rank_eq (rank_eq_of_ranks_reach closed p reaches)
  · intro gapless weights size destination
    obtain ⟨ports, computed, ranked⟩ := candidates_isLightest_ranks size vnet destination
    have unmoved : ∀ j, (∃ p, Reaches entries vnet destination p ∧ rank entries vnet p = j) ↔
        Reaches entries vnet destination j := by
      intro j
      constructor
      · rintro ⟨p, reaches, rfl⟩
        rwa [gapless.rank_eq reaches]
      · intro reaches
        exact ⟨j, reaches, gapless.rank_eq reaches⟩
    refine ⟨ports, computed, ranked.increasing, fun p => ?_⟩
    simpa only [unmoved] using ranked.mem_iff p

/-- The entry of the second port for the second network answers at the first port, which was given none. -/
theorem entry_moves_to_gap :
    (ofPorts [([.single 1], 1), ([.single 1, .single 5], 1)]).candidates 1 (.single 5) = .ok [0] ∧
      ¬ IsLightest (Reaches [[.single 1], [.single 1, .single 5]] 1 (.single 5)) (fun _ => 1) [0] := by
  refine ⟨rfl, fun lightest => ?_⟩
  have first := ((lightest.mem_iff 0).1 (by simp)).1
  obtain ⟨set, found, _⟩ := first
  simp [given] at found

end RoutingTable

end Interconnect
