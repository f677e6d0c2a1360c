import Mathlib
import Interconnect.Proofs.Failure
import Interconnect.CalendarQueue

namespace Interconnect

namespace CalendarQueue

variable {q next : CalendarQueue} {request : Request} {delay later : Nat} {phase : Phase}

def slot (q : CalendarQueue) (delay : Nat) : Nat := (q.current + delay) % q.size

def due (q : CalendarQueue) (phase : Phase) (delay : Nat) : List Event :=
  (q.slots[q.slot delay]?.map fun s => s.events phase).getD []

theorem slot_lt (short : delay < q.size) : q.slot delay < q.size := Nat.mod_lt _ (Nat.zero_lt_of_lt short)

theorem slot_injective (short : delay < q.size) (short' : later < q.size) :
    q.slot delay = q.slot later ↔ delay = later := by
  constructor
  · intro same
    have congruent : delay ≡ later [MOD q.size] := Nat.ModEq.add_left_cancel' q.current same
    rwa [Nat.ModEq, Nat.mod_eq_of_lt short, Nat.mod_eq_of_lt short'] at congruent
  · rintro rfl
    rfl

theorem slot_zero (current : q.current < q.size) : q.slot 0 = q.current := Nat.mod_eq_of_lt current

theorem events_eq (current : q.current < q.size) (phase : Phase) : q.events phase = .ok (q.due phase 0) := by
  have present : q.present = .ok q.slots[q.current] := orBreach_eq_ok.mpr (List.getElem?_eq_getElem current)
  rw [due, slot_zero current, List.getElem?_eq_getElem current, events, present]
  rfl

theorem due_empty (size : Nat) (phase : Phase) (delay : Nat) : (empty size).due phase delay = [] := by
  unfold due empty
  rw [List.getElem?_replicate]
  split <;> cases phase <;> rfl

theorem enqueue_eq_ok :
    q.enqueue request = .ok next ↔
      request.delay < q.size ∧
        { q with slots := q.slots.modify (q.slot request.delay) (·.push request.event request.phase) } = next := by
  unfold enqueue
  split
  · rename_i long
    exact ⟨nofun, fun ⟨short, _⟩ => absurd short (Nat.not_lt.mpr long)⟩
  · rename_i short
    exact ⟨fun same => ⟨Nat.lt_of_not_le short, Except.ok.inj same⟩, fun ⟨_, same⟩ => congrArg _ same⟩

theorem size_enqueue (entered : q.enqueue request = .ok next) : next.size = q.size := by
  obtain ⟨_, rfl⟩ := enqueue_eq_ok.mp entered
  exact List.length_modify ..

theorem current_enqueue (entered : q.enqueue request = .ok next) : next.current = q.current := by
  obtain ⟨_, rfl⟩ := enqueue_eq_ok.mp entered
  rfl

theorem cycle_enqueue (entered : q.enqueue request = .ok next) : next.cycle = q.cycle := by
  obtain ⟨_, rfl⟩ := enqueue_eq_ok.mp entered
  rfl

theorem slot_enqueue (entered : q.enqueue request = .ok next) (later : Nat) : next.slot later = q.slot later := by
  rw [slot, slot, size_enqueue entered, current_enqueue entered]

theorem due_enqueue (entered : q.enqueue request = .ok next) (phase : Phase) (short : later < q.size) :
    next.due phase later =
      q.due phase later ++ if later = request.delay ∧ phase = request.phase then [request.event] else [] := by
  have slots := slot_enqueue entered later
  obtain ⟨bound, rfl⟩ := enqueue_eq_ok.mp entered
  have inside : q.slot later < q.slots.length := slot_lt short
  rw [due, slots, due]
  dsimp only
  rw [List.getElem?_modify, List.getElem?_eq_getElem inside]
  by_cases same : later = request.delay
  · subst same
    rcases request with ⟨_, asked, event⟩
    cases phase <;> cases asked <;> simp [Slot.push, Slot.events]
  · have other : q.slot request.delay ≠ q.slot later := fun slots =>
      same ((slot_injective bound short).mp slots).symm
    simp [same, other]

theorem advance_eq (current : q.current < q.size) :
    q.advance = .ok ⟨q.slots.set q.current .empty, (q.current + 1) % q.size, q.cycle + 1⟩ :=
  bind_eq_ok.mpr ⟨_, orBreach_eq_ok.mpr (List.getElem?_eq_getElem current), rfl⟩

theorem size_advance (current : q.current < q.size) (advanced : q.advance = .ok next) : next.size = q.size := by
  rw [advance_eq current] at advanced
  cases advanced
  exact List.length_set

theorem exists_advance (current : q.current < q.size) :
    ∃ next, q.advance = .ok next ∧ next.current < next.size ∧ next.cycle = q.cycle + 1 := by
  have advanced := advance_eq current
  refine ⟨_, advanced, ?_, rfl⟩
  rw [size_advance current advanced]
  exact Nat.mod_lt _ (Nat.zero_lt_of_lt current)

theorem slot_advance (current : q.current < q.size) (advanced : q.advance = .ok next) :
    next.slot delay = q.slot (delay + 1) := by
  have size := size_advance current advanced
  rw [advance_eq current] at advanced
  cases advanced
  rw [slot, size, slot, Nat.mod_add_mod, Nat.add_assoc, Nat.add_comm 1 delay]

theorem due_advance (current : q.current < q.size) (advanced : q.advance = .ok next) (phase : Phase)
    (short : delay < q.size) :
    next.due phase delay = if delay + 1 < q.size then q.due phase (delay + 1) else [] := by
  rw [due, slot_advance current advanced]
  rw [advance_eq current] at advanced
  cases advanced
  dsimp only
  by_cases before : delay + 1 < q.size
  · have other : q.current ≠ q.slot (delay + 1) := by
      rw [← slot_zero current]
      intro same
      have zero := (slot_injective (by omega) before).mp same
      omega
    rw [if_pos before, List.getElem?_set_ne other]
    rfl
  · have last : delay + 1 = q.size := by omega
    have present : q.slot (delay + 1) = q.current := by
      rw [slot, last, Nat.add_mod_right, Nat.mod_eq_of_lt current]
    rw [if_neg before, present, List.getElem?_set_self current]
    cases phase <;> rfl

/-- What some requests make of a calendar that they are entered in. -/
structure Enters (q : CalendarQueue) (requests : List Request) (next : CalendarQueue) : Prop where
  size : next.size = q.size
  current : next.current = q.current
  cycle : next.cycle = q.cycle
  due : ∀ phase, ∀ delay < q.size, next.due phase delay =
    q.due phase delay ++ (requests.filter fun r => delay = r.delay ∧ phase = r.phase).map Request.event

theorem Enters.nil (q : CalendarQueue) : q.Enters [] q where
  size := rfl
  current := rfl
  cycle := rfl
  due := fun _ _ _ => (List.append_nil _).symm

theorem Enters.cons {requests : List Request} {last : CalendarQueue} (entered : q.enqueue request = .ok next)
    (others : next.Enters requests last) : q.Enters (request :: requests) last where
  size := others.size.trans (size_enqueue entered)
  current := others.current.trans (current_enqueue entered)
  cycle := others.cycle.trans (cycle_enqueue entered)
  due := by
    intro phase delay short
    have first := due_enqueue entered phase short
    rw [others.due phase delay (size_enqueue entered ▸ short), first]
    by_cases here : delay = request.delay ∧ phase = request.phase
    · rw [if_pos here, List.filter_cons_of_pos (by simpa using here), List.map_cons, List.append_assoc]
      rfl
    · rw [if_neg here, List.filter_cons_of_neg (by simpa using here), List.append_nil]

theorem exists_enqueue (short : request.delay < q.size) :
    ∃ next, q.enqueue request = .ok next ∧ q.Enters [request] next := by
  have entered := enqueue_eq_ok.mpr ⟨short, rfl⟩
  exact ⟨_, entered, .cons entered (.nil _)⟩

def ahead (q : CalendarQueue) (answered delay : Nat) : List Event :=
  (q.due .first delay).drop (if delay = 0 then answered else 0)

def wakeups (q : CalendarQueue) (answered outport delay : Nat) : Nat :=
  (q.ahead answered delay).count (.creditWakeup outport)

variable {answered outport : Nat} {event : Event}

theorem wakeups_enters {requests : List Request} (entered : q.Enters requests next)
    (known : answered ≤ (q.due .first 0).length) (short : delay < q.size) :
    next.wakeups answered outport delay = q.wakeups answered outport delay +
      ((requests.filter fun r => delay = r.delay ∧ .first = r.phase).map Request.event).count
        (.creditWakeup outport) := by
  have within : (if delay = 0 then answered else 0) ≤ (q.due .first delay).length := by
    split
    · rename_i now
      rwa [now]
    · exact Nat.zero_le _
  rw [wakeups, ahead, entered.due .first delay short, List.drop_append_of_le_length within, List.count_append]
  rfl

theorem wakeups_answer (found : (q.due .first 0)[answered]? = some event) :
    q.wakeups answered outport delay =
      q.wakeups (answered + 1) outport delay + if delay = 0 then [event].count (.creditWakeup outport) else 0 := by
  unfold wakeups ahead
  by_cases now : delay = 0
  · subst now
    obtain ⟨inside, rfl⟩ := List.getElem?_eq_some_iff.mp found
    simp only [if_true]
    rw [List.drop_eq_getElem_cons inside, ← List.singleton_append, List.count_append, Nat.add_comm]
  · simp only [if_neg now, Nat.add_zero]

theorem wakeups_answered {requests : List Request} {i : Nat}
    (found : (q.due .first 0)[answered]? = some (.creditWakeup i)) (enters : q.Enters requests next)
    (short : delay < q.size) (outport : Nat) :
    q.wakeups answered outport delay ≤
      next.wakeups (answered + 1) outport delay + if delay = 0 ∧ i = outport then 1 else 0 := by
  have inside : answered < (q.due .first 0).length := (List.getElem?_eq_some_iff.mp found).1
  rw [wakeups_answer found, wakeups_enters enters inside short]
  by_cases now : delay = 0
  · by_cases here : i = outport <;> simp [now, here]
  · simp [now]

theorem wakeups_closed (none : (q.due .first 0).length ≤ answered) : q.wakeups answered outport 0 = 0 := by
  rw [wakeups, ahead, if_pos rfl, List.drop_eq_nil_of_le none]
  rfl

theorem wakeups_advance (current : q.current < q.size) (advanced : q.advance = .ok next) (short : delay + 1 < q.size)
    (answered : Nat) : next.wakeups 0 outport delay = q.wakeups answered outport (delay + 1) := by
  have due := due_advance current advanced .first (Nat.lt_of_succ_lt short)
  rw [if_pos short] at due
  rw [wakeups, ahead, wakeups, ahead, due, if_neg (Nat.succ_ne_zero delay), ite_self]

end CalendarQueue

end Interconnect
