import Mathlib
import Interconnect.Proofs.Calendar
import Interconnect.Proofs.Router.Ownership
import Interconnect.Router.Cycle

namespace Interconnect

namespace Port

def Operation.OnLink : Operation → Prop
  | .act (.deliver ..) | .act (.wake _) => True
  | _ => False

structure SameLink (p q : Port) : Prop where
  index : p.index = q.index
  credits : p.credits = q.credits
  channels : p.channels.length = q.channels.length

variable {p q : Port}

theorem SameLink.refl (p : Port) : p.SameLink p := ⟨rfl, rfl, rfl⟩

theorem setChannel_sameLink (p : Port) (i : Nat) (c : Channel) : (p.setChannel i c).SameLink p :=
  ⟨rfl, rfl, List.length_set⟩

theorem operate_sameLink {operation : Operation} (done : p.operate operation = .ok q) (off : ¬ operation.OnLink) :
    q.SameLink p := by
  cases operation with
  | act action =>
    cases action with
    | send traffic flit =>
      obtain ⟨⟨request, sent⟩, sending, same⟩ := bind_eq_ok.mp done
      cases same
      rcases sendFlit_ok sending with rfl | ⟨i, c, _, rfl⟩
      · exact ⟨rfl, rfl, rfl⟩
      · exact ⟨rfl, rfl, List.length_set⟩
    | deliver credit cycle delay => exact absurd trivial off
    | wake cycle => exact absurd trivial off
    | select vnet selection =>
      obtain ⟨⟨result, selected⟩, selecting, same⟩ := bind_eq_ok.mp done
      cases same
      rcases selectFree_ok selecting with ⟨_, rfl⟩ | ⟨i, c, _, _, rfl⟩
      · exact .refl _
      · exact setChannel_sameLink _ i _
    | setState i state =>
      obtain ⟨c, _, rfl⟩ := setState_ok done
      exact setChannel_sameLink p i _
    | pop =>
      cases done
      unfold popFlit
      split <;> exact ⟨rfl, rfl, rfl⟩
  | applyCredit credit =>
    obtain ⟨c, _, rfl⟩ := applyCredit_ok done
    exact ⟨rfl, rfl, List.length_set⟩
  | restoreCredit i =>
    obtain ⟨c, _, rfl⟩ := restoreCredit_ok done
    exact setChannel_sameLink p i _
  | spendCredit i =>
    obtain ⟨c, _, rfl⟩ := spendCredit_ok done
    exact setChannel_sameLink p i _
  | pushFlit flit =>
    cases done
    exact ⟨rfl, rfl, rfl⟩
  | resetCounts =>
    cases done
    exact ⟨rfl, rfl, rfl⟩

end Port

namespace Router

def Operation.OnLink : Operation → Prop
  | .atPort _ operation => operation.OnLink
  | _ => False

variable {r s : Router} {outport i : Nat} {p q : Port}

theorem ports_setPort (found : (r.setPort outport p).ports[i]? = some q) :
    outport = i ∧ q = p ∨ outport ≠ i ∧ r.ports[i]? = some q := by
  rw [setPort, List.getElem?_set] at found
  split at found
  · rename_i same
    split at found
    · cases found
      exact .inl ⟨same, rfl⟩
    · cases found
  · rename_i other
    exact .inr ⟨other, found⟩

theorem operate_sameLink {operation : Operation} (done : r.operate operation = .ok s) (off : ¬ operation.OnLink) :
    s.ports.length = r.ports.length ∧
      ∀ (i : Nat) (q : Port), s.ports[i]? = some q → ∃ p, r.ports[i]? = some p ∧ q.SameLink p := by
  cases operation with
  | compute route inport random =>
    cases done
    unfold compute
    split <;> exact ⟨rfl, fun i q found => ⟨q, found, .refl q⟩⟩
  | register update =>
    cases done
    exact ⟨rfl, fun i q found => ⟨q, found, .refl q⟩⟩
  | atPort outport operation =>
    obtain ⟨p, present, rest⟩ := bind_eq_ok.mp done
    obtain ⟨operated, doing, same⟩ := bind_eq_ok.mp rest
    cases same
    refine ⟨List.length_set, fun i q found => ?_⟩
    rcases ports_setPort found with ⟨rfl, rfl⟩ | ⟨_, found⟩
    · exact ⟨p, orBreach_eq_ok.mp present, Port.operate_sameLink doing off⟩
    · exact ⟨q, found, .refl q⟩
  | reset cycle =>
    cases done
    refine ⟨List.length_map _, fun i q found => ?_⟩
    obtain ⟨p, present, rfl⟩ := Option.map_eq_some_iff.mp ((List.getElem?_map ..).symm.trans found)
    exact ⟨p, present, rfl, rfl, rfl⟩

end Router

theorem ScheduledRouter.schedule_all {s : ScheduledRouter} {requests : List Request}
    (short : ∀ request ∈ requests, request.delay < s.queue.size) :
    ∃ queue, requests.foldlM schedule s = .ok { s with queue } ∧ s.queue.Enters requests queue := by
  induction requests generalizing s with
  | nil => exact ⟨s.queue, rfl, .nil s.queue⟩
  | cons request requests ih =>
    have entered := CalendarQueue.enqueue_eq_ok.mpr ⟨short request List.mem_cons_self, rfl⟩
    have size := CalendarQueue.size_enqueue entered
    obtain ⟨queue, others, enters⟩ := ih (s := { s with queue := _ }) fun other member => by
      rw [size]
      exact short other (List.mem_cons_of_mem _ member)
    refine ⟨queue, ?_, .cons entered enters⟩
    rw [List.foldlM_cons]
    exact bind_eq_ok.mpr ⟨_, bind_eq_ok.mpr ⟨_, entered, rfl⟩, others⟩

structure CreditEntry where
  outport : Nat
  cycle : Nat
  credit : Credit

def creditsAt (entries : List CreditEntry) (outport : Nat) : List (Nat × Credit) :=
  (entries.filter (·.outport = outport)).map fun e => (e.cycle, e.credit)

@[simp] theorem creditsAt_nil (outport : Nat) : creditsAt [] outport = [] := rfl

theorem creditsAt_append (entries others : List CreditEntry) (outport : Nat) :
    creditsAt (entries ++ others) outport = creditsAt entries outport ++ creditsAt others outport := by
  simp [creditsAt]

theorem creditsAt_own (outport cycle : Nat) (credit : Credit) :
    creditsAt [⟨outport, cycle, credit⟩] outport = [(cycle, credit)] := by simp [creditsAt]

theorem creditsAt_foreign {entries : List CreditEntry} {outport : Nat}
    (foreign : ∀ e ∈ entries, e.outport ≠ outport) : creditsAt entries outport = [] := by
  simpa [creditsAt] using foreign

/-- A router in the course of a cycle. -/
structure Watch where
  scheduled : ScheduledRouter
  /-- The number of events of the first phase that were answered in this cycle. -/
  answered : Nat
  /-- Whether the first phase of this cycle came to its end. -/
  closed : Bool
  delivered : List CreditEntry
  applied : List CreditEntry

namespace Watch

def start (r : Router) (size : Nat) : Watch := ⟨⟨r, .empty size⟩, 0, false, [], []⟩

def router (w : Watch) : Router := w.scheduled.router

def queue (w : Watch) : CalendarQueue := w.scheduled.queue

inductive Action where
  | deliver (outport : Nat) (credit : Credit) (delay : Nat)
  | answer
  | operate (operation : Router.Operation)
  | schedule (request : Request)
  | advance

def taken (w : Watch) : Event → Option CreditEntry
  | .creditWakeup outport => do
    let p ← w.router.ports[outport]?
    let credit ← (p.credits.consume w.queue.cycle).1
    return ⟨outport, w.queue.cycle, credit⟩
  | .linkTraversal _ => none

def perform (w : Watch) : Action → Except Breach Watch
  | .deliver outport credit delay => do
    let (_, scheduled) ← w.scheduled.deliverCredit outport credit delay
    return { w with scheduled, delivered := w.delivered ++ [⟨outport, w.queue.cycle + delay, credit⟩] }
  | .answer => do
    match (← w.queue.events .first)[w.answered]? with
    | none => return { w with closed := true }
    | some event =>
      let (_, scheduled) ← w.scheduled.wake event
      return { w with scheduled, answered := w.answered + 1, applied := w.applied ++ (w.taken event).toList }
  | .operate operation => do
    return { w with scheduled := { w.scheduled with router := ← w.router.operate operation } }
  | .schedule request => return { w with scheduled := ← w.scheduled.schedule request }
  | .advance => do
    return { w with scheduled := { w.scheduled with queue := ← w.queue.advance }, answered := 0, closed := false }

def step (w : Watch) (action : Action) : Watch :=
  match w.perform action with
  | .ok next => next
  | .error _ => w

def run (w : Watch) (actions : List Action) : Watch := actions.foldl step w

/-- Credits for channels that there are come with delays that the calendar has room for, in the present cycle before
its first phase is closed. The calendar goes on when it is. Links are left alone otherwise. -/
def Admits (w : Watch) : Action → Prop
  | .deliver outport credit delay =>
    (∃ p, w.router.ports[outport]? = some p ∧ credit.channel < p.channels.length) ∧ delay < w.queue.size ∧
      (delay = 0 → w.closed = false)
  | .answer => True
  | .operate operation => ¬ operation.OnLink
  | .schedule request => request.phase = .second ∧ request.delay < w.queue.size
  | .advance => w.closed = true

def AdmitsAll (w : Watch) : List Action → Prop
  | [] => True
  | action :: actions => w.Admits action ∧ (w.step action).AdmitsAll actions

end Watch

end Interconnect
