import Mathlib
import Interconnect.Proofs.Port.Punctuality

namespace Interconnect

inductive LinkCall
  | send (credit : Credit) (arrival : Nat)
  | consume (cycle : Nat)

/-- The messages sent over a link, each with its arrival, and of those the ones that wait and the ones taken. The first
two are in order of sending. -/
structure Backlog where
  sent : List (Nat × Credit)
  waiting : List (Nat × Credit)
  taken : List (Nat × Credit)

namespace Backlog

def empty : Backlog := ⟨[], [], []⟩

/-- The first sent of the waiting messages that arrive the earliest. -/
def foremost? (b : Backlog) : Option (Nat × Credit) := b.waiting.find? fun m => b.waiting.all fun n => m.1 ≤ n.1

def due? (b : Backlog) (cycle : Nat) : Option (Nat × Credit) := b.foremost?.filter (·.1 ≤ cycle)

def call (b : Backlog) : LinkCall → Backlog
  | .send credit arrival =>
    { b with sent := b.sent ++ [(arrival, credit)], waiting := b.waiting ++ [(arrival, credit)] }
  | .consume cycle =>
    match b.due? cycle with
    | none => b
    | some m => { b with waiting := b.waiting.erase m, taken := b.taken ++ [m] }

end Backlog

namespace CreditLink

theorem filter_erase (m : Nat × Credit) (messages : List (Nat × Credit)) (p : Nat × Credit → Bool) :
    (messages.erase m).filter p = (messages.filter p).erase m := by
  induction messages with
  | nil => rfl
  | cons n messages ih =>
    by_cases same : n = m
    · subst same
      by_cases kept : p n
      · rw [List.erase_cons_head, List.filter_cons_of_pos kept, List.erase_cons_head]
      · rw [List.erase_cons_head, List.filter_cons_of_neg kept, List.erase_of_not_mem]
        exact fun member => kept (List.mem_filter.mp member).2
    · rw [List.erase_cons_tail (by simpa using same)]
      by_cases kept : p n
      · rw [List.filter_cons_of_pos kept, List.filter_cons_of_pos kept, List.erase_cons_tail (by simpa using same), ih]
      · rw [List.filter_cons_of_neg kept, List.filter_cons_of_neg kept, ih]

end CreditLink

namespace InOrder

variable {credits rest sent : List (Nat × Credit)} {m : Nat × Credit}

theorem mem_iff (ordered : InOrder credits sent) (m : Nat × Credit) : m ∈ credits ↔ m ∈ sent := by
  have same : m ∈ credits.filter (·.1 = m.1) ↔ m ∈ sent.filter (·.1 = m.1) := by rw [ordered.stable]
  simpa using same

theorem least (ordered : InOrder (m :: rest) sent) : ∀ n ∈ sent, m.1 ≤ n.1 := by
  intro n member
  rcases List.mem_cons.mp ((ordered.mem_iff n).mpr member) with rfl | later
  · exact Nat.le_refl _
  · exact (List.pairwise_cons.mp ordered.sorted).1 n later

theorem erase_first (ordered : InOrder (m :: rest) sent) : InOrder rest (sent.erase m) where
  sorted := (List.pairwise_cons.mp ordered.sorted).2
  stable := by
    intro time
    rw [CreditLink.filter_erase, ← ordered.stable, ← CreditLink.filter_erase, List.erase_cons_head]

end InOrder

namespace Backlog

variable {b : Backlog} {m : Nat × Credit} {rest : List (Nat × Credit)}

theorem foremost?_of_inOrder (ordered : InOrder (m :: rest) b.waiting) : b.foremost? = some m := by
  have among : m ∈ b.waiting := (ordered.mem_iff m).mp List.mem_cons_self
  have earliest : ∀ n ∈ b.waiting, (b.waiting.all fun k => n.1 ≤ k.1) = decide (n.1 = m.1) := by
    intro n member
    have bound := ordered.least n member
    rw [Bool.eq_iff_iff, List.all_eq_true, decide_eq_true_eq]
    constructor
    · intro first
      exact Nat.le_antisymm (of_decide_eq_true (first m among)) bound
    · intro same k other
      rw [same]
      exact decide_eq_true (ordered.least k other)
  rw [foremost?, List.find?_congr earliest, ← List.head?_filter, ← ordered.stable,
    List.filter_cons_of_pos (by simp), List.head?_cons]

end Backlog

namespace CreditLink

/-- A link that holds what waits, in order of arrival, and is missing nothing of what was sent. -/
structure Serves (l : CreditLink) (b : Backlog) : Prop where
  ordered : InOrder l.pending b.waiting
  complete : b.sent.Perm (b.taken ++ l.pending)
  waits : b.waiting.Sublist b.sent

def call (l : CreditLink) : LinkCall → Option Credit × CreditLink
  | .send credit arrival => (none, l.send credit arrival)
  | .consume cycle => l.consume cycle

def run (l : CreditLink) : List LinkCall → List (Option Credit) × CreditLink
  | [] => ([], l)
  | c :: calls => ((l.call c).1 :: ((l.call c).2.run calls).1, ((l.call c).2.run calls).2)

namespace Serves

variable {l : CreditLink} {b : Backlog}

theorem unused : CreditLink.empty.Serves .empty where
  ordered := ⟨List.Pairwise.nil, fun _ => rfl⟩
  complete := List.Perm.refl _
  waits := List.Sublist.refl _

theorem due? (serves : l.Serves b) (cycle : Nat) : b.due? cycle = l.pending.head?.filter (·.1 ≤ cycle) := by
  have ordered := serves.ordered
  cases pending : l.pending with
  | nil =>
    rw [pending] at ordered
    have none : b.waiting = [] := List.eq_nil_iff_forall_not_mem.mpr fun m member =>
      List.not_mem_nil ((ordered.mem_iff m).mpr member)
    rw [Backlog.due?, Backlog.foremost?, none]
    rfl
  | cons m rest =>
    rw [pending] at ordered
    rw [Backlog.due?, Backlog.foremost?_of_inOrder ordered, List.head?_cons]

theorem consume (serves : l.Serves b) (cycle : Nat) :
    l.consume cycle = match b.due? cycle with
      | none => (none, l)
      | some m => (some m.2, ⟨l.pending.erase m⟩) := by
  rw [serves.due? cycle, CreditLink.consume]
  cases l.pending with
  | nil => rfl
  | cons m rest =>
    by_cases arrived : m.1 ≤ cycle
    · rw [List.head?_cons, Option.filter_some, if_pos (decide_eq_true arrived)]
      simp only [if_pos arrived, List.erase_cons_head]
    · rw [List.head?_cons, Option.filter_some, if_neg (by simpa using arrived)]
      simp only [if_neg arrived]

theorem isReady_iff (serves : l.Serves b) (cycle : Nat) :
    l.isReady cycle = true ↔ ∃ m ∈ l.pending, m.1 ≤ cycle := by
  have sorted := serves.ordered.sorted
  rw [CreditLink.isReady]
  cases pending : l.pending with
  | nil => simp
  | cons m rest =>
    rw [pending] at sorted
    constructor
    · intro arrived
      exact ⟨m, List.mem_cons_self, of_decide_eq_true arrived⟩
    · intro ⟨n, member, arrived⟩
      rcases List.mem_cons.mp member with rfl | later
      · exact decide_eq_true arrived
      · exact decide_eq_true (Nat.le_trans ((List.pairwise_cons.mp sorted).1 n later) arrived)

theorem send (serves : l.Serves b) (credit : Credit) (arrival : Nat) :
    (l.send credit arrival).Serves (b.call (.send credit arrival)) where
  ordered := serves.ordered.send credit arrival
  complete := by
    have added : (b.sent ++ [(arrival, credit)]).Perm ((arrival, credit) :: (b.taken ++ l.pending)) :=
      List.perm_append_singleton _ _ |>.trans (serves.complete.cons _)
    apply added.trans
    apply List.perm_middle.symm.trans
    exact (insertInto_perm arrival credit l.pending).symm.append_left b.taken
  waits := serves.waits.append (List.Sublist.refl _)

theorem take (serves : l.Serves b) {cycle : Nat} {m : Nat × Credit} (due : b.due? cycle = some m) :
    (⟨l.pending.erase m⟩ : CreditLink).Serves { b with waiting := b.waiting.erase m, taken := b.taken ++ [m] } := by
  rw [serves.due? cycle, Option.filter_eq_some_iff] at due
  obtain ⟨rest, pending⟩ := List.head?_eq_some_iff.mp due.1
  have ordered := serves.ordered
  have complete := serves.complete
  rw [pending] at ordered complete
  rw [pending, List.erase_cons_head]
  constructor
  case ordered => exact ordered.erase_first
  case complete => simpa only [List.append_assoc, List.singleton_append] using complete
  case waits => exact List.erase_sublist.trans serves.waits

theorem call (serves : l.Serves b) (c : LinkCall) :
    (l.call c).2.Serves (b.call c) ∧
      (b.call c).taken.map Prod.snd = b.taken.map Prod.snd ++ (l.call c).1.toList := by
  cases c with
  | send credit arrival => exact ⟨serves.send credit arrival, (List.append_nil _).symm⟩
  | consume cycle =>
    rw [CreditLink.call, serves.consume cycle, Backlog.call]
    cases due : b.due? cycle with
    | none => exact ⟨serves, (List.append_nil _).symm⟩
    | some m => exact ⟨serves.take due, List.map_append⟩

theorem run (serves : l.Serves b) (calls : List LinkCall) :
    (l.run calls).2.Serves (calls.foldl Backlog.call b) ∧
      (calls.foldl Backlog.call b).taken.map Prod.snd = b.taken.map Prod.snd ++ (l.run calls).1.reduceOption := by
  induction calls generalizing l b with
  | nil => exact ⟨serves, (List.append_nil _).symm⟩
  | cons c calls ih =>
    obtain ⟨next, answer⟩ := serves.call c
    obtain ⟨last, answers⟩ := ih next
    rw [List.foldl_cons, CreditLink.run]
    refine ⟨last, ?_⟩
    rw [answers, answer, List.append_assoc]
    cases (l.call c).1 with
    | none => rfl
    | some credit => rfl

end Serves

/-- Every sequence of calls leaves the messages in order of arrival and of sending; the next call takes the first sent
of the earliest if it has arrived, and none was lost on the way. -/
theorem served_in_turn (calls : List LinkCall) :
    let link := (CreditLink.empty.run calls).2
    let backlog := calls.foldl Backlog.call .empty
    InOrder link.pending backlog.waiting ∧ backlog.waiting.Sublist backlog.sent ∧
    (∀ cycle, link.consume cycle = match backlog.due? cycle with
      | none => (none, link)
      | some m => (some m.2, ⟨link.pending.erase m⟩)) ∧
    (∀ cycle, link.isReady cycle = true ↔ ∃ m ∈ link.pending, m.1 ≤ cycle) ∧
    backlog.sent.Perm (backlog.taken ++ link.pending) ∧
    backlog.taken.map Prod.snd = (CreditLink.empty.run calls).1.reduceOption := by
  obtain ⟨serves, answers⟩ := Serves.unused.run calls
  exact ⟨serves.ordered, serves.waits, serves.consume, serves.isReady_iff, serves.complete, answers⟩

end CreditLink

end Interconnect
