import Mathlib
import Interconnect.Proofs.Random
import Interconnect.Proofs.Routing.Table

namespace Interconnect

theorem IsLightest.unique {reaches : Nat → Prop} {weight : Nat → Nat} {ports others : List Nat}
    (lightest : IsLightest reaches weight ports) (lightest' : IsLightest reaches weight others) : ports = others := by
  apply lightest.increasing.eq_of_mem_iff lightest'.increasing
  intro p
  rw [lightest.mem_iff, lightest'.mem_iff]

theorem IsLightest.ne_nil_iff {reaches : Nat → Prop} {weight : Nat → Nat} {ports : List Nat}
    (lightest : IsLightest reaches weight ports) : ports ≠ [] ↔ ∃ p, reaches p := by
  constructor
  · intro nonempty
    rcases List.exists_mem_of_ne_nil ports nonempty with ⟨p, member⟩
    exact ⟨p, ((lightest.mem_iff p).mp member).1⟩
  · intro somewhere
    rcases exists_minimalFor_of_wellFoundedLT reaches weight somewhere with ⟨p, here, minimal⟩
    have least : ∀ q, reaches q → weight p ≤ weight q := by
      intro q there
      rcases Nat.le_total (weight p) (weight q) with le | ge
      · exact le
      · exact minimal there ge
    exact List.ne_nil_of_mem ((lightest.mem_iff p).mpr ⟨here, least⟩)

namespace RoutingTable

variable {t : RoutingTable} {vnet p : Nat} {destination : EndpointSet} {ports : List Nat}

/-- The row of the network has an entry in this place, and that has an endpoint of the destination. -/
def Meets (t : RoutingTable) (vnet : Nat) (destination : EndpointSet) (port : Nat) : Prop :=
  ∃ row set endpoint, t.rows[vnet]? = some row ∧ row[port]? = some set ∧ endpoint ∈ set ∧ endpoint ∈ destination

theorem mem_reaching_iff_meets : p ∈ t.reaching vnet destination ↔ t.Meets vnet destination p := by
  rw [mem_reaching, row]
  simp only [EndpointSet.intersects_iff, Meets]
  cases t.rows[vnet]? with
  | none => simp
  | some row => simp

theorem candidates_of_unweighted (least : IsLeast {q | t.Meets vnet destination q ∧ t.weights[q]? = none} p) :
    t.candidates vnet destination = .error (.missingWeight p) := by
  have member : p ∈ t.reaching vnet destination := mem_reaching_iff_meets.mpr least.1.1
  rcases List.append_of_mem member with ⟨before, after, split⟩
  have increasing := t.reaching_increasing vnet destination
  rw [split] at increasing
  have weighed : ∀ q ∈ before, ∃ w, t.weigh q = .ok w := by
    intro q earlier
    have lower : q < p := (List.pairwise_append.mp increasing).2.2 q earlier p List.mem_cons_self
    have meets : t.Meets vnet destination q := by
      apply mem_reaching_iff_meets.mp
      rw [split]
      exact List.mem_append_left _ earlier
    cases found : t.weights[q]? with
    | none => exact absurd (least.2 ⟨meets, found⟩) (Nat.not_le_of_lt lower)
    | some w => exact ⟨(q, w), by rw [weigh, found]; rfl⟩
  have missing : t.weigh p = .error (.missingWeight p) := by
    rw [weigh, least.1.2]
    rfl
  rw [candidates, split, mapM_eq_error_of_first weighed missing]
  rfl

theorem exists_least_unweighted (unweighted : ∃ q, t.Meets vnet destination q ∧ t.weights[q]? = none) :
    ∃ q, IsLeast {q | t.Meets vnet destination q ∧ t.weights[q]? = none} q :=
  ⟨_, Nat.sInf_mem unweighted, fun _ => Nat.sInf_le⟩

theorem exists_candidates (weighed : ∀ q, t.Meets vnet destination q → t.weights[q]? ≠ none) :
    ∃ ports, t.candidates vnet destination = .ok ports ∧ IsLightest (t.Meets vnet destination) t.weight ports := by
  have inside : ∀ q ∈ t.reaching vnet destination, q < t.weights.length := by
    intro q member
    have found := weighed q (mem_reaching_iff_meets.mp member)
    rwa [ne_eq, List.getElem?_eq_none_iff, Nat.not_le] at found
  rcases candidates_isLightest inside with ⟨ports, found, lightest⟩
  refine ⟨ports, found, lightest.increasing, fun q => ?_⟩
  simpa only [mem_reaching_iff_meets] using lightest.mem_iff q

theorem candidates_eq_ok_iff :
    t.candidates vnet destination = .ok ports ↔
      (∀ q, t.Meets vnet destination q → t.weights[q]? ≠ none) ∧
        IsLightest (t.Meets vnet destination) t.weight ports := by
  constructor
  · intro found
    have weighed : ∀ q, t.Meets vnet destination q → t.weights[q]? ≠ none := by
      intro q meets missing
      rcases exists_least_unweighted ⟨q, meets, missing⟩ with ⟨least, is_least⟩
      rw [candidates_of_unweighted is_least] at found
      cases found
    rcases exists_candidates weighed with ⟨others, found', lightest⟩
    rw [found] at found'
    cases found'
    exact ⟨weighed, lightest⟩
  · rintro ⟨weighed, lightest'⟩
    rcases exists_candidates weighed with ⟨others, found, lightest⟩
    rw [found, lightest.unique lightest']

theorem lookup_nil (found : t.candidates vnet destination = .ok []) (ordered : Bool) (random : Random) :
    t.lookup vnet destination ordered random = (.error (.missingRoute vnet destination.toList), random) := by
  rw [lookup, found]

section Found

variable (found : t.candidates vnet destination = .ok ports) (nonempty : ports ≠ [])
include found

theorem lookup_ordered_eq (random : Random) :
    t.lookup vnet destination true random = (.ok (ports.head nonempty), random) := by
  cases ports with
  | nil => exact absurd rfl nonempty
  | cons first others =>
    rw [lookup, found]
    rfl

omit nonempty in
theorem lookup_unordered_of_below {random rest : Random} {chosen : Nat}
    (drew : random.below ports.length = (chosen, rest)) (there : ports[chosen]? = some p) :
    t.lookup vnet destination false random = (.ok p, rest) := by
  cases ports with
  | nil => cases there
  | cons first others =>
    rw [List.length_cons] at drew
    rw [lookup, found]
    simp only [drew, there, Option.getD_some, Bool.false_eq_true, if_false]

include nonempty

theorem lookup_unordered_eq (random : Random) :
    ∃ inside : (random.below ports.length).1 < ports.length,
      t.lookup vnet destination false random =
        (.ok ports[(random.below ports.length).1], (random.below ports.length).2) := by
  have inside := random.below_lt (List.length_pos_of_ne_nil nonempty)
  exact ⟨inside, lookup_unordered_of_below found rfl (List.getElem?_eq_getElem inside)⟩

end Found

/-- The least index that meets the destination without a weight is an error; else to meet it nowhere is one of the
look-up; else the candidates are the lightest of those that meet it, and the look-up takes the first or draws one. -/
theorem lookup_by_rows (t : RoutingTable) (vnet : Nat) (destination : EndpointSet) :
    ((∃ p, t.Meets vnet destination p ∧ t.weights[p]? = none) →
      ∃ p, IsLeast {q | t.Meets vnet destination q ∧ t.weights[q]? = none} p ∧
        t.candidates vnet destination = .error (.missingWeight p) ∧
        ∀ ordered random, t.lookup vnet destination ordered random = (.error (.missingWeight p), random)) ∧
    ((∀ p, t.Meets vnet destination p → t.weights[p]? ≠ none) → (∀ p, ¬ t.Meets vnet destination p) →
      t.candidates vnet destination = .ok [] ∧
        ∃ endpoints : List Nat, endpoints.Pairwise (· < ·) ∧ (∀ x, x ∈ endpoints ↔ x ∈ destination) ∧
          ∀ ordered random,
            t.lookup vnet destination ordered random = (.error (.missingRoute vnet endpoints), random)) ∧
    ((∀ p, t.Meets vnet destination p → t.weights[p]? ≠ none) → (∃ p, t.Meets vnet destination p) →
      ∃ ports nonempty, t.candidates vnet destination = .ok ports ∧
        IsLightest (t.Meets vnet destination) t.weight ports ∧
        ∀ random, t.lookup vnet destination true random = (.ok (List.head ports nonempty), random) ∧
          ∃ inside : (random.below ports.length).1 < ports.length,
            t.lookup vnet destination false random =
              (.ok ports[(random.below ports.length).1], (random.below ports.length).2)) := by
  refine ⟨fun unweighted => ?_, fun weighed nowhere => ?_, fun weighed somewhere => ?_⟩
  · rcases exists_least_unweighted unweighted with ⟨p, least⟩
    have failed := candidates_of_unweighted least
    exact ⟨p, least, failed, fun ordered random => by rw [lookup, failed]⟩
  · have empty : IsLightest (t.Meets vnet destination) t.weight [] :=
      ⟨List.Pairwise.nil, fun p => iff_of_false List.not_mem_nil fun reaches => nowhere p reaches.1⟩
    have found := candidates_eq_ok_iff.mpr ⟨weighed, empty⟩
    exact ⟨found, destination.toList, destination.increasing, fun _ => EndpointSet.mem_toList, lookup_nil found⟩
  · rcases exists_candidates weighed with ⟨ports, found, lightest⟩
    have nonempty := lightest.ne_nil_iff.mpr somewhere
    exact ⟨ports, nonempty, found, lightest, fun random =>
      ⟨lookup_ordered_eq found nonempty random, lookup_unordered_eq found nonempty random⟩⟩

end RoutingTable

end Interconnect
