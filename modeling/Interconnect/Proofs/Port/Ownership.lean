import Mathlib
import Interconnect.Proofs.Port.Ledger

namespace Interconnect

namespace Port

inductive Operation where
  | act (action : Action)
  | applyCredit (credit : Credit)
  | restoreCredit (channel : Nat)
  | spendCredit (channel : Nat)
  | pushFlit (flit : Nat)
  | resetCounts

def operate (p : Port) : Operation → Except Breach Port
  | .act action => p.perform action
  | .applyCredit credit => p.applyCredit credit
  | .restoreCredit channel => p.restoreCredit channel
  | .spendCredit channel => p.spendCredit channel
  | .pushFlit flit => .ok (p.pushFlit flit).2
  | .resetCounts => .ok p.resetCounts

def Grants (p : Port) (channel : Nat) : Operation → Prop
  | .act (.select vnet selection) => ∃ q, p.selectFree vnet selection = .ok (some channel, q)
  | _ => False

def Releases (p : Port) (channel : Nat) : Operation → Prop
  | .act (.wake cycle) => (p.credits.consume cycle).1 = some ⟨channel, true⟩
  | .act (.setState i state) => i = channel ∧ state = .idle
  | .applyCredit credit => credit = ⟨channel, true⟩
  | _ => False

def Holds (p : Port) (channel : Nat) : Prop := ∃ c, p.channels[channel]? = some c ∧ c.state = .active

/-- The channel is idle and open to the packet. -/
def Offers (p : Port) (vnet : Nat) (selection : Selection) (channel : Nat) : Prop :=
  p.channels[channel]?.any Channel.isIdle ∧
    let (first, second) := selection.spans p.direction.dimension? vnet p.poolSize
    channel ∈ first ∨ channel ∈ second

instance (p : Port) (vnet : Nat) (selection : Selection) : DecidablePred (p.Offers vnet selection) := fun _ =>
  inferInstanceAs (Decidable (_ ∧ _))

end Port

theorem Channel.restore_state (c : Channel) : c.restore.state = c.state := by
  unfold restore
  split <;> rfl

namespace Port

variable {p q : Port} {vnet channel : Nat} {selection : Selection}

theorem offers_iff :
    p.Offers vnet selection channel ↔
      ∃ c, p.channels[channel]? = some c ∧ c.isIdle ∧
        (channel ∈ (selection.spans p.direction.dimension? vnet p.poolSize).1 ∨
          channel ∈ (selection.spans p.direction.dimension? vnet p.poolSize).2) := by
  unfold Offers
  cases found : p.channels[channel]? <;> simp

theorem Offers.not_holds (offered : p.Offers vnet selection channel) : ¬ p.Holds channel := by
  rintro ⟨c, found, active⟩
  obtain ⟨own, same, idle, _⟩ := offers_iff.mp offered
  rw [found] at same
  cases same
  rw [Channel.isIdle, active] at idle
  exact absurd idle (by decide)

section Free

variable {channels : List Nat} (free : p.free vnet selection = .ok channels)
include free

theorem mem_free : channel ∈ channels ↔ p.Offers vnet selection channel := by
  obtain ⟨ranges, opened, -, rfl⟩ := free_eq_ok.mp free
  rw [offers_iff, ← Selection.eq_spans_of_ranges opened]
  simp only [List.mem_map, List.mem_filter, Bool.and_eq_true, decide_eq_true_eq, Prod.exists,
    List.mem_zipIdx_iff_getElem?]
  constructor
  · rintro ⟨c, i, member, rfl⟩
    exact ⟨c, member⟩
  · rintro ⟨c, member⟩
    exact ⟨c, channel, member, rfl⟩

theorem free_nodup : channels.Nodup := by
  obtain ⟨ranges, -, -, rfl⟩ := free_eq_ok.mp free
  have numbered : (p.channels.zipIdx.map Prod.snd).Nodup := by
    rw [List.zipIdx_map_snd]
    exact List.nodup_range'
  exact numbered.sublist ((List.filter_sublist).map Prod.snd)

end Free

theorem offers_of_selectFree (selected : p.selectFree vnet selection = .ok (some channel, q)) :
    p.Offers vnet selection channel := by
  obtain ⟨channels, free, chosen⟩ := bind_eq_ok.mp selected
  cases channels with
  | nil => cases chosen
  | cons first others =>
    obtain ⟨_, _, same⟩ := bind_eq_ok.mp chosen
    cases same
    exact (mem_free free).mp List.mem_cons_self

theorem Holds.setChannel (held : p.Holds channel) {i : Nat} {c new : Channel} (found : p.channels[i]? = some c)
    (keeps : i = channel → c.state = .active → new.state = .active) : (p.setChannel i new).Holds channel := by
  obtain ⟨own, at_place, active⟩ := held
  by_cases same : i = channel
  · subst same
    rw [found] at at_place
    cases at_place
    have inside := (List.getElem?_eq_some_iff.mp found).1
    exact ⟨new, List.getElem?_set_self inside, keeps rfl active⟩
  · exact ⟨own, (List.getElem?_set_ne same).trans at_place, active⟩

theorem Holds.credited (held : p.Holds channel) {credit : Credit} {c : Channel}
    (found : p.channels[credit.channel]? = some c) (other : credit ≠ ⟨channel, true⟩) :
    (p.credited credit c).Holds channel := by
  apply held.setChannel found
  intro same active
  cases frees : credit.frees with
  | false => exact c.restore_state.trans active
  | true =>
    apply absurd _ other
    rw [← same, ← frees]

theorem Holds.perform (held : p.Holds channel) {action : Action} (performed : p.perform action = .ok q)
    (kept : ¬ p.Releases channel (.act action)) : q.Holds channel := by
  cases action with
  | send traffic flit =>
    obtain ⟨⟨request, sent⟩, sending, same⟩ := bind_eq_ok.mp performed
    cases same
    rcases sendFlit_ok sending with rfl | ⟨i, c, found, rfl⟩
    · exact held
    · exact held.setChannel found fun _ active => active
  | deliver credit cycle delay =>
    cases performed
    exact held
  | wake cycle =>
    obtain ⟨⟨requests, woken⟩, waking, same⟩ := bind_eq_ok.mp performed
    cases same
    rcases wakeup_ok waking with ⟨_, rfl⟩ | ⟨credit, rest, c, consumed, found, rfl⟩
    · exact held
    · apply Holds.credited (p := { p with credits := rest }) held found
      rintro rfl
      apply kept
      rw [Releases, consumed]
  | select vnet selection =>
    obtain ⟨⟨result, selected⟩, selecting, same⟩ := bind_eq_ok.mp performed
    cases same
    rcases selectFree_ok selecting with ⟨_, rfl⟩ | ⟨i, c, _, found, rfl⟩
    · exact held
    · exact held.setChannel found fun _ _ => rfl
  | setState i state =>
    obtain ⟨c, found, rfl⟩ := setState_ok performed
    apply held.setChannel found
    intro same _
    cases state with
    | idle => exact absurd ⟨same, rfl⟩ kept
    | active => rfl
  | pop =>
    cases performed
    unfold popFlit
    split <;> exact held

theorem Holds.operate (held : p.Holds channel) {operation : Operation} (done : p.operate operation = .ok q)
    (kept : ¬ p.Releases channel operation) : q.Holds channel := by
  cases operation with
  | act action => exact held.perform done kept
  | applyCredit credit =>
    obtain ⟨c, found, rfl⟩ := applyCredit_ok done
    exact held.credited found kept
  | restoreCredit i =>
    obtain ⟨c, found, rfl⟩ := restoreCredit_ok done
    exact held.setChannel found fun _ active => c.restore_state.trans active
  | spendCredit i =>
    obtain ⟨c, found, rfl⟩ := spendCredit_ok done
    exact held.setChannel found fun _ active => active
  | pushFlit flit =>
    cases done
    exact held
  | resetCounts =>
    cases done
    exact held

theorem Grants.exists_select {operation : Operation} (granted : p.Grants channel operation) :
    ∃ vnet selection q, operation = .act (.select vnet selection) ∧
      p.selectFree vnet selection = .ok (some channel, q) := by
  cases operation with
  | act action =>
    cases action with
    | select vnet selection =>
      obtain ⟨q, selected⟩ := granted
      exact ⟨vnet, selection, q, rfl, selected⟩
    | _ => cases granted
  | _ => cases granted

theorem Grants.not_holds {operation : Operation} (granted : p.Grants channel operation) : ¬ p.Holds channel := by
  obtain ⟨vnet, selection, q, rfl, selected⟩ := granted.exists_select
  exact (offers_of_selectFree selected).not_holds

theorem Grants.exists_operate {operation : Operation} (granted : p.Grants channel operation) :
    ∃ q, p.operate operation = .ok q ∧ q.Holds channel := by
  obtain ⟨vnet, selection, q, rfl, selected⟩ := granted.exists_select
  refine ⟨q, bind_eq_ok.mpr ⟨_, selected, rfl⟩, ?_⟩
  rcases selectFree_ok selected with ⟨none, _⟩ | ⟨i, c, same, found, rfl⟩
  · cases none
  · cases same
    have inside := (List.getElem?_eq_some_iff.mp found).1
    exact ⟨c.setState .active, List.getElem?_set_self inside, rfl⟩

theorem Holds.countFree (held : p.Holds channel) {count : Nat} (counted : p.countFree vnet selection = .ok count) :
    count = {i ∈ Finset.range p.channels.length | i ≠ channel ∧ p.Offers vnet selection i}.card := by
  obtain ⟨channels, free, same⟩ := bind_eq_ok.mp counted
  cases same
  rw [← List.toFinset_card_of_nodup (free_nodup free)]
  congr 1
  ext i
  rw [List.mem_toFinset, mem_free free, Finset.mem_filter, Finset.mem_range]
  constructor
  · intro offered
    refine ⟨?_, ?_, offered⟩
    · obtain ⟨c, found, _⟩ := offers_iff.mp offered
      exact (List.getElem?_eq_some_iff.mp found).1
    · rintro rfl
      exact offered.not_holds held
  · exact fun ⟨_, _, offered⟩ => offered

theorem Holds.hasFree (held : p.Holds channel) {some : Bool} (asked : p.hasFree vnet selection = .ok some) :
    some ↔ ∃ i, i ≠ channel ∧ p.Offers vnet selection i := by
  obtain ⟨channels, free, same⟩ := bind_eq_ok.mp asked
  cases same
  rw [Bool.not_eq_true', List.isEmpty_eq_false_iff_exists_mem]
  constructor
  · rintro ⟨i, member⟩
    have offered := (mem_free free).mp member
    refine ⟨i, ?_, offered⟩
    rintro rfl
    exact offered.not_holds held
  · rintro ⟨i, _, offered⟩
    exact ⟨i, (mem_free free).mpr offered⟩

end Port

end Interconnect
