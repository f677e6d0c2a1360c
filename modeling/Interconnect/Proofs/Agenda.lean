import Mathlib
import Interconnect.Proofs.Calendar

namespace Interconnect

/-- A request with the cycle it was made in. -/
structure Entry where
  made : Nat
  request : Request

def Entry.due (e : Entry) : Nat := e.made + e.request.delay

structure Agenda where
  cycle : Nat
  entries : List Entry

namespace Agenda

def empty : Agenda := ⟨0, []⟩

def enqueue (a : Agenda) (request : Request) : Agenda := { a with entries := a.entries ++ [⟨a.cycle, request⟩] }

def advance (a : Agenda) : Agenda := { a with cycle := a.cycle + 1 }

def events (a : Agenda) (phase : Phase) (cycle : Nat) : List Event :=
  (a.entries.filter fun e => e.due = cycle ∧ e.request.phase = phase).map fun e => e.request.event

variable {a : Agenda} {request : Request} {phase : Phase} {cycle : Nat}

theorem events_enqueue :
    (a.enqueue request).events phase cycle =
      a.events phase cycle ++
        if a.cycle + request.delay = cycle ∧ request.phase = phase then [request.event] else [] := by
  rw [events, enqueue, List.filter_append, List.map_append]
  by_cases here : a.cycle + request.delay = cycle ∧ request.phase = phase
  · rw [if_pos here, List.filter_cons_of_pos (by exact decide_eq_true here)]
    rfl
  · rw [if_neg here, List.filter_cons_of_neg (by exact fun due => here (of_decide_eq_true due))]
    rfl

theorem events_eq_nil_iff :
    a.events phase cycle = [] ↔ ∀ e ∈ a.entries, e.due = cycle → e.request.phase ≠ phase := by
  simp [events]

end Agenda

namespace CalendarQueue

inductive Operation where
  | enqueue (request : Request)
  | advance

def operate (q : CalendarQueue) : Operation → Except Breach CalendarQueue
  | .enqueue request => q.enqueue request
  | .advance => q.advance

def enqueueInPlace (request : Request) : ExceptT Breach (StateM CalendarQueue) Unit := do
  if (← get).size ≤ request.delay then throw .delayTooLong
  let slot := ((← get).current + request.delay) % (← get).size
  modify fun q => { q with slots := q.slots.modify slot (·.push request.event request.phase) }

variable {q next : CalendarQueue} {a : Agenda} {operation : Operation} {request : Request}

theorem enqueueInPlace_eq (q : CalendarQueue) (request : Request) :
    (enqueueInPlace request).run.run q =
      match q.enqueue request with
      | .ok next => (.ok (), next)
      | .error b => (.error b, q) := by
  have read : (get : ExceptT Breach (StateM CalendarQueue) CalendarQueue).run.run q = (.ok q, q) := rfl
  simp only [enqueueInPlace, enqueue, run_bind, read]
  split <;> rfl

end CalendarQueue

def Agenda.operate (a : Agenda) : CalendarQueue.Operation → Agenda
  | .enqueue request => a.enqueue request
  | .advance => a.advance

namespace CalendarQueue

variable {q next : CalendarQueue} {a : Agenda} {operation : Operation} {request : Request}

/-- Each slot holds what the agenda has for its cycle, and no request is due beyond the ring. -/
structure Shows (q : CalendarQueue) (a : Agenda) : Prop where
  current : q.current < q.size
  cycle : q.cycle = a.cycle
  due : ∀ phase, ∀ delay < q.size, q.due phase delay = a.events phase (a.cycle + delay)
  near : ∀ e ∈ a.entries, e.due < a.cycle + q.size

theorem shows_empty {size : Nat} (positive : 0 < size) : (empty size).Shows .empty where
  current := positive.trans_eq List.length_replicate.symm
  cycle := rfl
  due := fun phase delay _ => due_empty size phase delay
  near := nofun

theorem Shows.enqueue (shows : q.Shows a) (entered : q.enqueue request = .ok next) :
    next.Shows (a.enqueue request) := by
  have size := size_enqueue entered
  have short := (enqueue_eq_ok.mp entered).1
  refine ⟨?_, (cycle_enqueue entered).trans shows.cycle, fun phase delay near => ?_, fun e member => ?_⟩
  · rw [current_enqueue entered, size]
    exact shows.current
  · rw [size] at near
    rw [due_enqueue entered phase near, shows.due phase delay near, Agenda.events_enqueue]
    congr 1
    simp [Agenda.enqueue, eq_comm]
  · rw [size]
    rcases List.mem_append.mp member with old | new
    · exact shows.near e old
    · rw [List.mem_singleton.mp new]
      exact Nat.add_lt_add_left short _

theorem Shows.advance (shows : q.Shows a) (advanced : q.advance = .ok next) : next.Shows a.advance := by
  have size := size_advance shows.current advanced
  obtain ⟨other, advanced', current, cycle⟩ := exists_advance shows.current
  rw [advanced] at advanced'
  cases advanced'
  refine ⟨current, by rw [cycle, shows.cycle]; rfl, fun phase delay near => ?_, fun e member => ?_⟩
  · rw [size] at near
    rw [due_advance shows.current advanced phase near]
    -- the slot given up becomes that of the furthest cycle, which no request was near enough to reach
    have later : a.advance.cycle + delay = a.cycle + (delay + 1) := by
      simp only [Agenda.advance]
      omega
    rw [later]
    split
    · rename_i within
      exact shows.due phase (delay + 1) within
    · rename_i beyond
      symm
      rw [Agenda.events_eq_nil_iff]
      intro e member now
      have bound := shows.near e member
      omega
  · have bound := shows.near e member
    simp only [Agenda.advance]
    omega

theorem exists_slot_eq {i : Nat} (current : q.current < q.size) (inside : i < q.size) :
    ∃ delay < q.size, q.slot delay = i := by
  refine ⟨(i + q.size - q.current) % q.size, Nat.mod_lt _ (Nat.zero_lt_of_lt inside), ?_⟩
  have around : q.current + (i + q.size - q.current) = i + q.size := by omega
  rw [slot, Nat.add_mod_mod, around, Nat.add_mod_right, Nat.mod_eq_of_lt inside]

theorem isEmpty_iff (current : q.current < q.size) :
    q.isEmpty = true ↔ ∀ phase, ∀ delay < q.size, q.due phase delay = [] := by
  rw [isEmpty, List.all_eq_true]
  constructor
  · intro none phase delay short
    have inside : q.slot delay < q.slots.length := slot_lt short
    have listed := List.getElem?_eq_getElem inside
    have clear := none _ (List.mem_of_getElem? listed)
    rw [Slot.isEmpty, Bool.and_eq_true, List.isEmpty_iff, List.isEmpty_iff] at clear
    rw [due, listed]
    cases phase with
    | first => exact clear.1
    | second => exact clear.2
  · intro none s member
    obtain ⟨i, inside, rfl⟩ := List.mem_iff_getElem.mp member
    obtain ⟨delay, short, rfl⟩ := exists_slot_eq current inside
    have clear (phase : Phase) : (q.slots[q.slot delay]).events phase = [] := by
      have shown := none phase delay short
      rwa [due, List.getElem?_eq_getElem inside] at shown
    rw [Slot.isEmpty, Bool.and_eq_true, List.isEmpty_iff, List.isEmpty_iff]
    exact ⟨clear .first, clear .second⟩

theorem Shows.isEmpty_iff (shows : q.Shows a) : q.isEmpty = true ↔ ∀ e ∈ a.entries, e.due < a.cycle := by
  rw [CalendarQueue.isEmpty_iff shows.current]
  constructor
  · intro none e member
    by_contra coming
    have bound := shows.near e member
    have short : e.due - a.cycle < q.size := by omega
    have now : e.due = a.cycle + (e.due - a.cycle) := by omega
    have clear := none e.request.phase _ short
    rw [shows.due _ _ short, Agenda.events_eq_nil_iff] at clear
    exact clear e member now rfl
  · intro past phase delay short
    rw [shows.due phase delay short, Agenda.events_eq_nil_iff]
    intro e member now
    have before := past e member
    omega

def Operation.Fits (size : Nat) : Operation → Prop
  | .enqueue request => request.delay < size
  | .advance => True

theorem Shows.exists_operate (shows : q.Shows a) (fits : operation.Fits q.size) :
    ∃ next, q.operate operation = .ok next ∧ next.size = q.size ∧ next.Shows (a.operate operation) := by
  cases operation with
  | enqueue request =>
    obtain ⟨next, entered, _⟩ := exists_enqueue fits
    exact ⟨next, entered, size_enqueue entered, shows.enqueue entered⟩
  | advance =>
    obtain ⟨next, advanced, _⟩ := exists_advance shows.current
    exact ⟨next, advanced, size_advance shows.current advanced, shows.advance advanced⟩

theorem Shows.exists_run (shows : q.Shows a) {operations : List Operation}
    (fit : ∀ operation ∈ operations, operation.Fits q.size) :
    ∃ next, operations.foldlM operate q = .ok next ∧ next.size = q.size ∧
      next.Shows (operations.foldl Agenda.operate a) := by
  induction operations generalizing q a with
  | nil => exact ⟨q, rfl, rfl, shows⟩
  | cons operation operations ih =>
    obtain ⟨first, operated, size, shown⟩ := shows.exists_operate (fit operation List.mem_cons_self)
    have fit_later : ∀ later ∈ operations, later.Fits first.size :=
      fun later member => size ▸ fit later (List.mem_cons_of_mem _ member)
    obtain ⟨last, run, size', shown'⟩ := ih shown fit_later
    refine ⟨last, ?_, size'.trans size, shown'⟩
    rw [List.foldlM_cons]
    exact bind_eq_ok.mpr ⟨first, operated, run⟩

/-- Over every run the calendar shows what was asked for the present cycle, in order and nothing else, and is empty
once nothing is asked for any more. A delay that is too long is refused, and leaves the calendar as it was. -/
theorem calendar_shows_agenda {size : Nat} (positive : 0 < size) (operations : List Operation)
    (fit : ∀ operation ∈ operations, operation.Fits size) :
    let a := operations.foldl Agenda.operate .empty
    ∃ q, operations.foldlM operate (empty size) = .ok q ∧ q.cycle = a.cycle ∧
      (∀ phase, q.events phase = .ok (a.events phase a.cycle)) ∧
      (q.isEmpty = true ↔ ∀ e ∈ a.entries, e.due < a.cycle) ∧
      ∀ request : Request, size ≤ request.delay →
        q.enqueue request = .error .delayTooLong ∧
        (enqueueInPlace request).run.run q = (.error .delayTooLong, q) := by
  intro a
  have started : (empty size).size = size := List.length_replicate
  obtain ⟨q, run, size_eq, shows⟩ := (shows_empty positive).exists_run (by rwa [started])
  refine ⟨q, run, shows.cycle, fun phase => ?_, shows.isEmpty_iff, fun request long => ?_⟩
  · rw [events_eq shows.current, shows.due phase 0 (Nat.zero_lt_of_lt shows.current), Nat.add_zero]
  · have refused : q.enqueue request = .error .delayTooLong := if_pos (by rwa [size_eq, started])
    exact ⟨refused, by rw [enqueueInPlace_eq, refused]⟩

theorem calendar_shows_agenda_around :
    let operations : List Operation :=
      [.enqueue ⟨1, .first, .creditWakeup 7⟩, .enqueue ⟨0, .second, .linkTraversal 3⟩, .advance,
        .enqueue ⟨1, .first, .creditWakeup 5⟩, .enqueue ⟨0, .first, .creditWakeup 8⟩]
    (∀ operation ∈ operations, operation.Fits 2) ∧
      ∃ q, operations.foldlM operate (empty 2) = .ok q ∧
        q.events .first = .ok [.creditWakeup 7, .creditWakeup 8] ∧ q.events .second = .ok [] := by
  intro operations
  have fit : ∀ operation ∈ operations, operation.Fits 2 := by simp [operations, Operation.Fits]
  obtain ⟨q, run, _, shown, _⟩ := calendar_shows_agenda (by decide : 0 < 2) operations fit
  exact ⟨fit, q, run, shown .first, shown .second⟩

end CalendarQueue

end Interconnect
