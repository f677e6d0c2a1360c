import Mathlib
import Interconnect.Proofs.Routing.Lookup

namespace Interconnect

namespace RoutingTable

variable {t : RoutingTable} {vnet : Nat} {destination : EndpointSet} {ports : List Nat} {w : UInt64} {port : Nat}

/-- The word decides on the port, and none after it is drawn. -/
def Draws (t : RoutingTable) (vnet : Nat) (destination : EndpointSet) (w : UInt64) (port : Nat) : Prop :=
  ∀ words drawn, t.lookup vnet destination false ⟨w :: words, drawn⟩ = (.ok port, ⟨words, drawn + 1⟩)

def PassesOver (t : RoutingTable) (vnet : Nat) (destination : EndpointSet) (w : UInt64) : Prop :=
  ∀ words drawn,
    t.lookup vnet destination false ⟨w :: words, drawn⟩ = t.lookup vnet destination false ⟨words, drawn + 1⟩

theorem lookup_passed_over {rejected : List UInt64} (passed : ∀ v ∈ rejected, t.PassesOver vnet destination v)
    (words : List UInt64) (drawn : Nat) :
    t.lookup vnet destination false ⟨rejected ++ words, drawn⟩ =
      t.lookup vnet destination false ⟨words, drawn + rejected.length⟩ := by
  induction rejected generalizing drawn with
  | nil => rfl
  | cons v rejected ih =>
    rw [List.forall_mem_cons] at passed
    rw [List.cons_append, passed.1, ih passed.2, List.length_cons, Nat.add_assoc, Nat.add_comm 1]

theorem Draws.unique {other : Nat} (draws : t.Draws vnet destination w port)
    (draws' : t.Draws vnet destination w other) : port = other := by
  have same := (draws [] 0).symm.trans (draws' [] 0)
  cases same
  rfl

section Found

variable (found : t.candidates vnet destination = .ok ports) (nonempty : ports ≠ [])
include found nonempty

theorem passesOver_of_not_accepts (rejected : ¬ Random.accepts ports.length w) :
    t.PassesOver vnet destination w := by
  intro words drawn
  rcases lookup_unordered_eq found nonempty ⟨words, drawn + 1⟩ with ⟨inside, looked⟩
  rw [looked]
  apply lookup_unordered_of_below found _ (List.getElem?_eq_getElem inside)
  rw [Random.below_cons, if_neg rejected]

omit nonempty in
theorem draws_of_accepts (accepted : Random.accepts ports.length w)
    (there : ports[Random.pick ports.length w]? = some port) : t.Draws vnet destination w port := by
  intro words drawn
  apply lookup_unordered_of_below found _ there
  rw [Random.below_cons, if_pos accepted]

theorem accepts_of_draws (draws : t.Draws vnet destination w port) : Random.accepts ports.length w := by
  by_contra rejected
  -- behind the last word a zero is drawn, so one that is passed over there is not the only draw
  have passed := passesOver_of_not_accepts found nonempty rejected [] 0
  rcases lookup_unordered_eq found nonempty ⟨[], 1⟩ with ⟨inside, looked⟩
  rw [draws, looked] at passed
  have counts := congrArg (fun answer => answer.2.drawn) passed
  cases counts

theorem draws_iff :
    t.Draws vnet destination w port ↔
      Random.accepts ports.length w ∧ ports[Random.pick ports.length w]? = some port := by
  constructor
  · intro draws
    have accepted := accepts_of_draws found nonempty draws
    have inside := Random.pick_lt (List.length_pos_of_ne_nil nonempty) w
    have there := List.getElem?_eq_getElem inside
    refine ⟨accepted, ?_⟩
    rw [draws.unique (draws_of_accepts found accepted there), there]
  · rintro ⟨accepted, there⟩
    exact draws_of_accepts found accepted there

theorem exists_draws_iff : (∃ port, t.Draws vnet destination w port) ↔ Random.accepts ports.length w := by
  constructor
  · rintro ⟨port, draws⟩
    exact accepts_of_draws found nonempty draws
  · intro accepted
    have inside := Random.pick_lt (List.length_pos_of_ne_nil nonempty) w
    exact ⟨_, draws_of_accepts found accepted (List.getElem?_eq_getElem inside)⟩

theorem draws_getElem_iff {i : Nat} (inside : i < ports.length) :
    t.Draws vnet destination w ports[i] ↔ Random.accepts ports.length w ∧ Random.pick ports.length w = i := by
  have distinct : ports.Nodup := (candidates_eq_ok_iff.mp found).2.increasing.imp Nat.ne_of_lt
  rw [draws_iff found nonempty]
  apply and_congr_right
  intro _
  rw [← List.getElem?_eq_getElem inside, eq_comm, List.getElem?_inj inside distinct, eq_comm]

end Found

/-- Where several ports are the lightest, each is drawn by one and the same number of words, out of all those of 64
bits, and what was passed over before has no say in it. A list of them is no longer than an index can tell. -/
theorem unordered_lookup_fair (found : t.candidates vnet destination = .ok ports) (nonempty : ports ≠ [])
    (counted : ports.length < UInt64.size) :
    let zeros := Random.leadingZeros ports.length
    2 ^ 63 ≤ ports.length * 2 ^ zeros ∧ ports.length * 2 ^ zeros < 2 ^ 64 ∧
      (∀ w port, t.Draws vnet destination w port ↔
        w.toNat * ports.length % 2 ^ 64 ≤ ports.length * 2 ^ zeros - 1 ∧
          ports[w.toNat * ports.length / 2 ^ 64]? = some port) ∧
      {w | ∃ port, t.Draws vnet destination w port}.ncard = ports.length * 2 ^ zeros ∧
      (∀ port ∈ ports, {w | t.Draws vnet destination w port}.ncard = 2 ^ zeros) ∧
      (∀ random, ∃ inside : (random.below ports.length).1 < ports.length,
        t.lookup vnet destination false random =
          (.ok ports[(random.below ports.length).1], (random.below ports.length).2)) ∧
      (∀ w, (∃ port ∈ ports, t.Draws vnet destination w port) ∨ t.PassesOver vnet destination w) ∧
      ∀ rejected w port words drawn, (∀ v ∈ rejected, t.PassesOver vnet destination v) →
        t.Draws vnet destination w port →
          t.lookup vnet destination false ⟨rejected ++ w :: words, drawn⟩ =
            (.ok port, ⟨words, drawn + rejected.length + 1⟩) := by
  intro zeros
  have positive := List.length_pos_of_ne_nil nonempty
  have bounds := Random.shifted_bounds positive counted
  refine ⟨bounds.1, bounds.2, ?_, ?_, ?_, lookup_unordered_eq found nonempty, ?_, ?_⟩
  · intro w port
    rw [draws_iff found nonempty, Random.accepts, decide_eq_true_iff, Random.zone_eq]
    rfl
  · simp only [exists_draws_iff found nonempty]
    exact Random.ncard_accepts counted positive
  · intro port member
    rcases List.mem_iff_getElem.mp member with ⟨i, inside, rfl⟩
    simp only [draws_getElem_iff found nonempty inside]
    exact Random.ncard_draws inside counted
  · intro w
    by_cases accepted : Random.accepts ports.length w
    · rcases (exists_draws_iff found nonempty).mpr accepted with ⟨port, draws⟩
      exact .inl ⟨port, List.mem_of_getElem? ((draws_iff found nonempty).mp draws).2, draws⟩
    · exact .inr (passesOver_of_not_accepts found nonempty accepted)
  · intro rejected w port words drawn passed draws
    rw [lookup_passed_over passed, draws]

theorem three_ports_share_words :
    let t := ofPorts [([.single 2], 1), ([.single 2], 1), ([.single 2], 1)]
    t.candidates 0 (.single 2) = .ok [0, 1, 2] ∧
      {w | ∃ port, t.Draws 0 (.single 2) w port}.ncard = 3 * 2 ^ 62 ∧
      ∀ port ∈ [0, 1, 2], {w | t.Draws 0 (.single 2) w port}.ncard = 2 ^ 62 := by
  intro t
  have found : t.candidates 0 (.single 2) = .ok [0, 1, 2] := rfl
  rcases unordered_lookup_fair found (List.cons_ne_nil _ _) (by decide) with ⟨-, -, -, all, each, -⟩
  exact ⟨found, all, each⟩

end RoutingTable

end Interconnect
