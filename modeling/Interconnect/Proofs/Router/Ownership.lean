import Mathlib
import Interconnect.Proofs.Port.Ownership
import Interconnect.Proofs.Router.Operations

namespace Interconnect

namespace Router

inductive Operation where
  | compute (route : Route) (inport : Nat) (random : Random)
  | register (update : RoutingUnit → RoutingUnit)
  | atPort (outport : Nat) (operation : Port.Operation)
  | reset (cycle : Nat)

def operate (r : Router) : Operation → Except Breach Router
  | .compute route inport random => .ok (r.compute route inport random).2
  | .register update => .ok { r with unit := update r.unit }
  | .atPort outport operation => return r.setPort outport (← (← r.port outport).operate operation)
  | .reset cycle => .ok (r.reset cycle)

/-- A breach stops an operation before it changes a channel. What else it leaves behind is open. -/
def Becomes (r : Router) (operation : Operation) (s : Router) : Prop :=
  match r.operate operation with
  | .ok t => s = t
  | .error _ => s.ports.map Port.channels = r.ports.map Port.channels

def AtPort (r : Router) (outport : Nat) (kind : Port → Port.Operation → Prop) : Operation → Prop
  | .atPort i operation => i = outport ∧ ∃ p, r.ports[i]? = some p ∧ kind p operation
  | _ => False

def Grants (r : Router) (outport channel : Nat) (operation : Operation) : Prop :=
  r.AtPort outport (fun p => p.Grants channel) operation

def Releases (r : Router) (outport channel : Nat) (operation : Operation) : Prop :=
  r.AtPort outport (fun p => p.Releases channel) operation

def Holds (r : Router) (outport channel : Nat) : Prop := ∃ p, r.ports[outport]? = some p ∧ p.Holds channel

variable {r s : Router} {outport channel : Nat} {operation : Operation}

theorem grants_of_selectFree {route : Route} (selected : r.selectFree outport route = .ok (some channel, s)) :
    r.Grants outport channel (.atPort outport (.act (.select route.vnet (r.unit.selection route)))) := by
  obtain ⟨p, present, rest⟩ := bind_eq_ok.mp selected
  obtain ⟨⟨_, q⟩, done, same⟩ := bind_eq_ok.mp rest
  cases same
  exact ⟨rfl, p, orBreach_eq_ok.mp present, q, done⟩

theorem Holds.of_channels (held : r.Holds outport channel)
    (same : s.ports.map Port.channels = r.ports.map Port.channels) : s.Holds outport channel := by
  obtain ⟨p, present, c, found, active⟩ := held
  have kept := congrArg (·[outport]?) same
  simp only [List.getElem?_map, present, Option.map_some] at kept
  obtain ⟨q, at_place, channels⟩ := Option.map_eq_some_iff.mp kept
  exact ⟨q, at_place, c, by rw [channels, found], active⟩

theorem setPort_holds {p : Port} (present : r.ports[outport]? = some p) {q : Port} (held : q.Holds channel) :
    (r.setPort outport q).Holds outport channel :=
  ⟨q, List.getElem?_set_self (List.getElem?_eq_some_iff.mp present).1, held⟩

theorem Holds.becomes (held : r.Holds outport channel) (step : r.Becomes operation s)
    (kept : ¬ r.Releases outport channel operation) : s.Holds outport channel := by
  unfold Becomes at step
  split at step
  · rename_i t done
    subst step
    cases operation with
    | compute route inport random =>
      cases done
      apply held.of_channels
      unfold compute
      split <;> rfl
    | register update =>
      cases done
      exact held
    | atPort i operation =>
      obtain ⟨p, present, rest⟩ := bind_eq_ok.mp done
      obtain ⟨q, operated, same⟩ := bind_eq_ok.mp rest
      cases same
      have at_place := orBreach_eq_ok.mp present
      obtain ⟨own, found, holds⟩ := held
      by_cases here : i = outport
      · subst here
        rw [at_place] at found
        cases found
        apply setPort_holds at_place
        exact holds.operate operated fun releases => kept ⟨rfl, p, at_place, releases⟩
      · exact ⟨own, (List.getElem?_set_ne here).trans found, holds⟩
    | reset cycle =>
      cases done
      apply held.of_channels
      rw [reset, List.map_map]
      rfl
  · exact held.of_channels step

theorem Grants.exists_atPort (granted : r.Grants outport channel operation) :
    ∃ p action, operation = .atPort outport action ∧ r.ports[outport]? = some p ∧ p.Grants channel action := by
  cases operation with
  | atPort i action =>
    obtain ⟨rfl, p, present, granted⟩ := granted
    exact ⟨p, action, rfl, present, granted⟩
  | _ => cases granted

theorem Grants.not_holds (granted : r.Grants outport channel operation) : ¬ r.Holds outport channel := by
  obtain ⟨p, action, rfl, present, granted⟩ := granted.exists_atPort
  rintro ⟨own, found, held⟩
  rw [present] at found
  cases found
  exact granted.not_holds held

theorem Grants.becomes (granted : r.Grants outport channel operation) (step : r.Becomes operation s) :
    s.Holds outport channel := by
  obtain ⟨p, action, rfl, present, granted⟩ := granted.exists_atPort
  obtain ⟨q, done, held⟩ := granted.exists_operate
  have operated : r.operate (.atPort outport action) = .ok (r.setPort outport q) :=
    bind_eq_ok.mpr ⟨p, orBreach_eq_ok.mpr present, bind_eq_ok.mpr ⟨q, done, rfl⟩⟩
  rw [Becomes, operated] at step
  subst step
  exact setPort_holds present held

def oneChannel : Router :=
  ⟨1, ⟨0, .table, .empty, [], ⟨[(.localPort, 0)]⟩, ⟨[(.localPort, 0)]⟩, .zero⟩, [.idle 0 .localPort 1 1 1], 0⟩

set_option maxRecDepth 4000 in
theorem oneChannel_built : ∃ v, ofValue 0 v = .ok oneChannel := by
  refine ⟨.object "Router" [("virtual_networks", .number .one), ("virtual_channels_per_vnet", .number .one),
    ("buffer_depth", .number .one), ("routing", .object "Table" []), ("ports", .array [.literal "Local"])], ?_⟩
  rfl

/-- The operations on a router, one after another, and the states between them. -/
structure History where
  router : Nat → Router
  operation : Nat → Operation

namespace History

def Runs (h : History) (last : Nat) : Prop := ∀ k < last, (h.router k).Becomes (h.operation k) (h.router (k + 1))

variable {h : History} {first last : Nat}

theorem Runs.holds (runs : h.Runs last) (earlier : first ≤ last) (held : (h.router first).Holds outport channel)
    (kept : ∀ k, first ≤ k → k < last → ¬ (h.router k).Releases outport channel (h.operation k)) :
    (h.router last).Holds outport channel := by
  induction last, earlier using Nat.le_induction with
  | base => exact held
  | succ last later ih =>
    have before := ih (fun k short => runs k (by omega)) fun k from_first short => kept k from_first (by omega)
    exact before.becomes (runs last (by omega)) (kept last later (by omega))

/-- Between two grants of a channel it is released. Until then it is active, and counted as free for no packet. -/
theorem channel_has_one_owner {grant : Nat} (runs : h.Runs last) (earlier : grant < last)
    (granted : (h.router grant).Grants outport channel (h.operation grant)) :
    ((h.router last).Grants outport channel (h.operation last) →
      ∃ k, grant < k ∧ k < last ∧ (h.router k).Releases outport channel (h.operation k)) ∧
    ((∀ k, grant < k → k < last → ¬ (h.router k).Releases outport channel (h.operation k)) →
      ∃ p c, (h.router last).ports[outport]? = some p ∧ p.channels[channel]? = some c ∧ c.state = .active ∧
        ∀ vnet selection,
          (∀ count, p.countFree vnet selection = .ok count →
            count = {i ∈ Finset.range p.channels.length | i ≠ channel ∧ p.Offers vnet selection i}.card) ∧
          ∀ free, p.hasFree vnet selection = .ok free → (free ↔ ∃ i, i ≠ channel ∧ p.Offers vnet selection i)) := by
  have taken := granted.becomes (runs grant earlier)
  have holds (kept : ∀ k, grant < k → k < last → ¬ (h.router k).Releases outport channel (h.operation k)) :
      (h.router last).Holds outport channel := runs.holds earlier taken fun k after => kept k after
  constructor
  · intro again
    by_contra unreleased
    push Not at unreleased
    exact again.not_holds (holds unreleased)
  · intro kept
    obtain ⟨p, present, held⟩ := holds kept
    obtain ⟨c, found, active⟩ := held
    refine ⟨p, c, present, found, active, fun vnet selection => ⟨?_, ?_⟩⟩
    · intro count counted
      exact Port.Holds.countFree ⟨c, found, active⟩ counted
    · intro free asked
      exact Port.Holds.hasFree ⟨c, found, active⟩ asked

def of (r : Router) (operation : Nat → Operation) : History where
  router := Nat.rec r fun k s => match s.operate (operation k) with
    | .ok t => t
    | .error _ => s
  operation := operation

theorem of_runs (r : Router) (operation : Nat → Operation) (last : Nat) : (of r operation).Runs last := by
  intro k _
  change ((of r operation).router k).Becomes (operation k)
    (match ((of r operation).router k).operate (operation k) with
      | .ok t => t
      | .error _ => (of r operation).router k)
  unfold Becomes
  split <;> rfl

def passedOn : History := of oneChannel fun
  | 0 | 3 => .atPort 0 (.act (.select 0 .any))
  | 1 => .atPort 0 (.applyCredit ⟨0, false⟩)
  | _ => .atPort 0 (.applyCredit ⟨0, true⟩)

theorem channel_passes_on :
    (∃ v, ofValue 0 v = .ok (passedOn.router 0)) ∧ passedOn.Runs 3 ∧
      (passedOn.router 0).Grants 0 0 (passedOn.operation 0) ∧ (passedOn.router 3).Grants 0 0 (passedOn.operation 3) ∧
      (∃ k, 0 < k ∧ k < 3 ∧ (passedOn.router k).Releases 0 0 (passedOn.operation k)) ∧
      ∃ p c, (passedOn.router 2).ports[0]? = some p ∧ p.channels[0]? = some c ∧ c.state = .active := by
  have runs : passedOn.Runs 3 := of_runs _ _ 3
  have first : (passedOn.router 0).Grants 0 0 (passedOn.operation 0) := ⟨rfl, _, rfl, _, rfl⟩
  have second : (passedOn.router 3).Grants 0 0 (passedOn.operation 3) := ⟨rfl, _, rfl, _, rfl⟩
  refine ⟨oneChannel_built, runs, first, second, (channel_has_one_owner runs (by decide) first).1 second, ?_⟩
  have kept : ∀ k, 0 < k → k < 2 → ¬ (passedOn.router k).Releases 0 0 (passedOn.operation k) := by
    intro k after before
    have plain : k = 1 := by omega
    subst plain
    rintro ⟨_, _, _, same⟩
    cases same
  obtain ⟨p, c, present, found, active, _⟩ := (channel_has_one_owner (of_runs _ _ 2) (by decide) first).2 kept
  exact ⟨p, c, present, found, active⟩

end History

end Router

end Interconnect
