import Mathlib
import Interconnect.Proofs.Port.Operations

namespace Interconnect

structure InOrder (credits sent : List (Nat × Credit)) : Prop where
  sorted : credits.Pairwise fun m n => m.1 ≤ n.1
  stable : ∀ arrival, credits.filter (·.1 = arrival) = sent.filter (·.1 = arrival)

namespace CreditLink

variable {l rest : CreditLink} {credits sent before : List (Nat × Credit)} {arrival cycle : Nat} {credit : Credit}

def arriving (l : CreditLink) (cycle : Nat) : Nat := l.pending.countP (·.1 = cycle)

theorem mem_insertInto {m : Nat × Credit} :
    m ∈ insertInto arrival credit credits ↔ m = (arrival, credit) ∨ m ∈ credits := by
  rw [(insertInto_perm arrival credit credits).mem_iff, List.mem_cons]

theorem insertInto_append (earlier : ∀ m ∈ before, m.1 ≤ arrival) :
    insertInto arrival credit (before ++ credits) = before ++ insertInto arrival credit credits := by
  induction before with
  | nil => rfl
  | cons first before ih =>
    have passed : ¬ arrival < first.1 := Nat.not_lt.mpr (earlier first List.mem_cons_self)
    rw [List.cons_append, insertInto, if_neg passed, ih fun m member => earlier m (List.mem_cons_of_mem _ member)]
    rfl

theorem sorted_insertInto (sorted : credits.Pairwise fun m n => m.1 ≤ n.1) :
    (insertInto arrival credit credits).Pairwise fun m n => m.1 ≤ n.1 := by
  induction credits with
  | nil => exact List.pairwise_singleton _ _
  | cons first credits ih =>
    obtain ⟨least, others⟩ := List.pairwise_cons.mp sorted
    unfold insertInto
    split
    · rename_i sooner
      refine List.pairwise_cons.mpr ⟨fun m member => ?_, sorted⟩
      rcases List.mem_cons.mp member with rfl | member
      · exact Nat.le_of_lt sooner
      · exact Nat.le_trans (Nat.le_of_lt sooner) (least m member)
    · rename_i passed
      refine List.pairwise_cons.mpr ⟨fun m member => ?_, ih others⟩
      rcases mem_insertInto.mp member with rfl | member
      · exact Nat.le_of_not_lt passed
      · exact least m member

theorem filter_insertInto (sorted : credits.Pairwise fun m n => m.1 ≤ n.1) (time : Nat) :
    (insertInto arrival credit credits).filter (·.1 = time) =
      credits.filter (·.1 = time) ++ [(arrival, credit)].filter (·.1 = time) := by
  induction credits with
  | nil => rfl
  | cons first credits ih =>
    obtain ⟨least, others⟩ := List.pairwise_cons.mp sorted
    unfold insertInto
    split
    · rename_i sooner
      by_cases now : arrival = time
      · -- everything in the list is later than the message, so that nothing of it is left
        have none : (first :: credits).filter (·.1 = time) = [] := by
          apply List.filter_eq_nil_iff.mpr
          intro m member
          rcases List.mem_cons.mp member with rfl | member
          · simp only [decide_eq_true_eq]
            omega
          · have after := least m member
            simp only [decide_eq_true_eq]
            omega
        rw [List.filter_cons, none]
        simp [now]
      · simp [List.filter_cons, now]
    · by_cases now : first.1 = time
      · rw [List.filter_cons_of_pos (by simpa), List.filter_cons_of_pos (by simpa), ih others]
        rfl
      · rw [List.filter_cons_of_neg (by simpa), List.filter_cons_of_neg (by simpa), ih others]

end CreditLink

namespace InOrder

open CreditLink

variable {credits sent : List (Nat × Credit)}

theorem send (ordered : InOrder credits sent) (credit : Credit) (arrival : Nat) :
    InOrder (insertInto arrival credit credits) (sent ++ [(arrival, credit)]) where
  sorted := sorted_insertInto ordered.sorted
  stable := by
    intro time
    rw [filter_insertInto ordered.sorted, ordered.stable, List.filter_append]

end InOrder

namespace CreditLink

variable {l rest : CreditLink} {arrival cycle : Nat} {credit : Credit}

theorem arriving_send (l : CreditLink) (credit : Credit) (arrival cycle : Nat) :
    (l.send credit arrival).arriving cycle = l.arriving cycle + if cycle = arrival then 1 else 0 := by
  rw [arriving, send, (insertInto_perm arrival credit l.pending).countP_eq, List.countP_cons]
  simp [arriving, eq_comm]

theorem arriving_eq_zero_iff : l.arriving cycle = 0 ↔ ∀ m ∈ l.pending, m.1 ≠ cycle := by
  simp [arriving, List.countP_eq_zero]

theorem consume_none (nothing : (l.consume cycle).1 = none) (sorted : l.pending.Pairwise fun m n => m.1 ≤ n.1) :
    ∀ m ∈ l.pending, cycle < m.1 := by
  unfold consume at nothing
  split at nothing
  · rename_i empty
    rw [empty]
    exact nofun
  · rename_i arrival first others pending
    split at nothing
    · cases nothing
    · rename_i later
      rw [pending] at sorted ⊢
      intro m member
      rcases List.mem_cons.mp member with rfl | member
      · exact Nat.lt_of_not_le later
      · exact Nat.lt_of_lt_of_le (Nat.lt_of_not_le later) ((List.pairwise_cons.mp sorted).1 m member)

end CreditLink

namespace Port

/-- What a port is judged by: the cycle and how far the calendar goes, how many wakeups of the port it holds for each
of the coming cycles, and what was applied at the port and delivered to it. -/
structure Timetable where
  cycle : Nat
  size : Nat
  wakeups : Nat → Nat
  applied : List (Nat × Credit)
  delivered : List (Nat × Credit)

/-- The credits of the port were applied when they arrived, and there is a wakeup for each that is under way. -/
structure OnTime (p : Port) (t : Timetable) : Prop where
  known : ∀ m ∈ p.credits.pending, m.2.channel < p.channels.length
  ahead : ∀ m ∈ p.credits.pending, t.cycle ≤ m.1 ∧ m.1 < t.cycle + t.size
  awaited : ∀ delay < t.size, p.credits.arriving (t.cycle + delay) ≤ t.wakeups delay
  past : ∀ m ∈ t.applied, m.1 ≤ t.cycle
  record : InOrder (t.applied ++ p.credits.pending) t.delivered

namespace OnTime

variable {p q : Port} {t : Timetable} {wakeups : Nat → Nat} {credit : Credit} {rest : CreditLink} {delay : Nat}

theorem unused (unused : p.credits = .empty) (nothing : t.applied = [] ∧ t.delivered = []) : p.OnTime t where
  known := by rw [unused]; exact nofun
  ahead := by rw [unused]; exact nofun
  awaited := by
    intro delay _
    rw [unused]
    exact Nat.zero_le _
  past := by rw [nothing.1]; exact nofun
  record := by
    rw [nothing.1, nothing.2, unused]
    exact ⟨List.Pairwise.nil, fun _ => rfl⟩

theorem sorted (punctual : p.OnTime t) : p.credits.pending.Pairwise fun m n => m.1 ≤ n.1 :=
  (List.pairwise_append.mp punctual.record.sorted).2.1

theorem same_link (punctual : p.OnTime t) (link : q.credits = p.credits)
    (channels : q.channels.length = p.channels.length)
    (enough : ∀ delay < t.size, t.wakeups delay ≤ wakeups delay) : q.OnTime { t with wakeups } where
  known := by rw [link, channels]; exact punctual.known
  ahead := by rw [link]; exact punctual.ahead
  awaited := by
    intro delay short
    rw [link]
    exact Nat.le_trans (punctual.awaited delay short) (enough delay short)
  past := punctual.past
  record := by rw [link]; exact punctual.record

theorem deliver (punctual : p.OnTime t) (known : credit.channel < p.channels.length) (short : delay < t.size)
    (enough : ∀ later < t.size, t.wakeups later + (if later = delay then 1 else 0) ≤ wakeups later) :
    { p with credits := p.credits.send credit (t.cycle + delay) }.OnTime
      { t with wakeups, delivered := t.delivered ++ [(t.cycle + delay, credit)] } where
  known := by
    intro m member
    rcases CreditLink.mem_insertInto.mp member with rfl | member
    · exact known
    · exact punctual.known m member
  ahead := by
    intro m member
    rcases CreditLink.mem_insertInto.mp member with rfl | member
    · dsimp only
      omega
    · exact punctual.ahead m member
  awaited := by
    intro later near
    have before := punctual.awaited later near
    have added := enough later near
    dsimp only
    rw [CreditLink.arriving_send]
    by_cases same : later = delay
    · rw [if_pos same] at added
      rw [if_pos (by omega)]
      omega
    · rw [if_neg same] at added
      rw [if_neg (by omega)]
      omega
  past := punctual.past
  record := by
    have earlier : ∀ m ∈ t.applied, m.1 ≤ t.cycle + delay := fun m member =>
      Nat.le_trans (punctual.past m member) (Nat.le_add_right _ _)
    have sent := punctual.record.send credit (t.cycle + delay)
    rwa [CreditLink.insertInto_append earlier] at sent

theorem consumed_now (punctual : p.OnTime t) (consumed : p.credits.consume t.cycle = (some credit, rest)) :
    p.credits.pending = (t.cycle, credit) :: rest.pending ∧ ∃ c, p.channels[credit.channel]? = some c := by
  obtain ⟨arrival, arrived, pending⟩ := CreditLink.consume_some consumed
  have member : (arrival, credit) ∈ p.credits.pending := by
    rw [pending]
    exact List.mem_cons_self
  have now : arrival = t.cycle := Nat.le_antisymm arrived (punctual.ahead _ member).1
  subst now
  exact ⟨pending, _, List.getElem?_eq_getElem (punctual.known _ member)⟩

theorem take (punctual : p.OnTime t) (consumed : p.credits.consume t.cycle = (some credit, rest))
    (link : q.credits = rest) (channels : q.channels.length = p.channels.length)
    (enough : ∀ later < t.size, t.wakeups later ≤ wakeups later + if later = 0 then 1 else 0) :
    q.OnTime { t with wakeups, applied := t.applied ++ [(t.cycle, credit)] } := by
  obtain ⟨pending, _⟩ := punctual.consumed_now consumed
  have others : ∀ m ∈ rest.pending, m ∈ p.credits.pending := fun m member => by
    rw [pending]
    exact List.mem_cons_of_mem _ member
  constructor
  case known =>
    rw [link, channels]
    exact fun m member => punctual.known m (others m member)
  case ahead =>
    rw [link]
    exact fun m member => punctual.ahead m (others m member)
  case awaited =>
    intro later near
    have before := punctual.awaited later near
    have left := enough later near
    have arriving : p.credits.arriving (t.cycle + later) =
        rest.arriving (t.cycle + later) + if later = 0 then 1 else 0 := by
      rw [CreditLink.arriving, pending, List.countP_cons, CreditLink.arriving]
      simp
    dsimp only
    rw [link]
    omega
  case past =>
    intro m member
    rcases List.mem_append.mp member with old | new
    · exact punctual.past m old
    · rw [List.mem_singleton.mp new]
  case record =>
    have record := punctual.record
    rw [pending] at record
    rw [link]
    simpa only [List.append_assoc, List.singleton_append] using record

theorem miss (punctual : p.OnTime t) (nothing : (p.credits.consume t.cycle).1 = none)
    (enough : ∀ later < t.size, t.wakeups later ≤ wakeups later + if later = 0 then 1 else 0) :
    p.OnTime { t with wakeups } where
  known := punctual.known
  ahead := punctual.ahead
  awaited := by
    intro later near
    have before := punctual.awaited later near
    have left := enough later near
    dsimp only
    by_cases now : later = 0
    · subst now
      have none : p.credits.arriving (t.cycle + 0) = 0 := by
        apply CreditLink.arriving_eq_zero_iff.mpr
        intro m member
        exact Nat.ne_of_gt (CreditLink.consume_none nothing punctual.sorted m member)
      omega
    · rw [if_neg now] at left
      omega
  past := punctual.past
  record := punctual.record

theorem cleared (punctual : p.OnTime t) (room : 0 < t.size) (answered : t.wakeups 0 = 0) :
    ∀ m ∈ p.credits.pending, t.cycle < m.1 := by
  have none := punctual.awaited 0 room
  rw [answered] at none
  intro m member
  have other := CreditLink.arriving_eq_zero_iff.mp (Nat.le_zero.mp none) m member
  have ahead := punctual.ahead m member
  omega

theorem advance (punctual : p.OnTime t) (cleared : ∀ m ∈ p.credits.pending, t.cycle < m.1)
    (enough : ∀ delay, delay + 1 < t.size → t.wakeups (delay + 1) ≤ wakeups delay) :
    p.OnTime { t with cycle := t.cycle + 1, wakeups } where
  known := punctual.known
  ahead := by
    intro m member
    have ahead := punctual.ahead m member
    have later := cleared m member
    dsimp only
    omega
  awaited := by
    intro delay short
    dsimp only at short ⊢
    by_cases last : delay + 1 < t.size
    · have before := punctual.awaited (delay + 1) last
      have kept := enough delay last
      rw [Nat.add_assoc, Nat.add_comm 1 delay]
      omega
    · -- no credit is that far ahead
      have none : p.credits.arriving (t.cycle + 1 + delay) = 0 := by
        apply CreditLink.arriving_eq_zero_iff.mpr
        intro m member
        have ahead := punctual.ahead m member
        omega
      omega
  past := fun m member => Nat.le_succ_of_le (punctual.past m member)
  record := punctual.record

end OnTime

end Port

end Interconnect
