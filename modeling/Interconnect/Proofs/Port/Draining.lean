import Mathlib
import Interconnect.Proofs.Port.Backlog

namespace Interconnect

namespace CreditLink

def sendAll (l : CreditLink) (messages : List (Nat × Credit)) : CreditLink :=
  messages.foldl (fun l m => l.send m.2 m.1) l

theorem inOrder_sendAll {l : CreditLink} {sent : List (Nat × Credit)} (ordered : InOrder l.pending sent)
    (messages : List (Nat × Credit)) : InOrder (l.sendAll messages).pending (sent ++ messages) := by
  induction messages generalizing l sent with
  | nil =>
    rw [List.append_nil]
    exact ordered
  | cons m messages ih =>
    have later := ih (ordered.send m.2 m.1)
    rwa [List.append_assoc] at later

theorem consume_of_unready {l : CreditLink} {cycle : Nat} (unready : l.isReady cycle = false) :
    (l.consume cycle).1 = none := by
  rw [isReady] at unready
  unfold consume
  split
  · rfl
  · rename_i arrival credit rest pending
    rw [pending] at unready
    rw [if_neg (of_decide_eq_false unready)]

end CreditLink

namespace Port

variable {p q r : Port} {cycle : Nat} {between : List Port} {m : Nat × Credit} {rest : List (Nat × Credit)}
  {c : Channel}

/-- Wakeups in one cycle after another, as long as each asks for the next: the ports between them, and the port after
the last, which asks for none. -/
inductive Rearmed : Port → Nat → List Port → Port → Prop
  | stops {p q : Port} {cycle : Nat} : p.wakeup cycle = .ok ([], q) → Rearmed p cycle [] q
  | goesOn {p q r : Port} {cycle : Nat} {between : List Port} :
      p.wakeup cycle = .ok ([p.wakeupAfter 1], q) → Rearmed q (cycle + 1) between r →
        Rearmed p cycle (q :: between) r

def taking (p : Port) (count : Nat) : Except Breach Port :=
  ((p.credits.pending.take count).map Prod.snd).foldlM applyCredit
    { p with credits := ⟨p.credits.pending.drop count⟩ }

theorem Rearmed.unique (chain : p.Rearmed cycle between r) {between' : List Port} {r' : Port}
    (other : p.Rearmed cycle between' r') : between' = between ∧ r' = r := by
  induction chain generalizing between' r' with
  | stops woken =>
    cases other with
    | stops woken' =>
      cases woken.symm.trans woken'
      exact ⟨rfl, rfl⟩
    | goesOn woken' _ => cases woken.symm.trans woken'
  | goesOn woken later ih =>
    cases other with
    | stops woken' => cases woken.symm.trans woken'
    | goesOn woken' later' =>
      cases woken.symm.trans woken'
      obtain ⟨rfl, rfl⟩ := ih later'
      exact ⟨rfl, rfl⟩

def served (p : Port) (m : Nat × Credit) (rest : List (Nat × Credit)) (c : Channel) : Port :=
  { p with credits := ⟨rest⟩ }.credited m.2 c

theorem length_served : (p.served m rest c).channels.length = p.channels.length := List.length_set ..

theorem taking_succ (content : p.credits.pending = m :: rest) (found : p.channels[m.2.channel]? = some c)
    (count : Nat) : p.taking (count + 1) = (p.served m rest c).taking count := by
  have applied : applyCredit { p with credits := ⟨rest.drop count⟩ } m.2 = .ok (p.served m (rest.drop count) c) :=
    applyCredit_eq found
  rw [taking, content, List.take_succ_cons, List.map_cons, List.drop_succ_cons, List.foldlM_cons, applied]
  rfl

theorem wakeup_of_due (content : p.credits.pending = m :: rest) (found : p.channels[m.2.channel]? = some c)
    (due : m.1 ≤ cycle) :
    p.wakeup cycle =
      .ok (if (⟨rest⟩ : CreditLink).isReady cycle then [p.wakeupAfter 1] else [], p.served m rest c) := by
  apply wakeup_some _ found
  rw [CreditLink.consume, content]
  exact if_pos due

/-- A chain of wakeups from a cycle on in which a message is due: as many messages as calls are taken, in order, and
in the cycle of the last call no other one is due. -/
structure Drains (p : Port) (cycle : Nat) (between : List Port) (r : Port) : Prop where
  rearmed : p.Rearmed cycle between r
  calls : between.length < p.credits.pending.length
  takes : ∀ i after, (between ++ [r])[i]? = some after → p.taking (i + 1) = .ok after
  stops : (r.credits.consume (cycle + between.length)).1 = none
  left : r.credits.pending = p.credits.pending.drop (between.length + 1)

section Due

variable (content : p.credits.pending = m :: rest) (found : p.channels[m.2.channel]? = some c)
include content found

theorem Drains.last (woken : p.wakeup cycle = .ok ([], p.served m rest c))
    (none_due : (⟨rest⟩ : CreditLink).isReady cycle = false) : p.Drains cycle [] (p.served m rest c) where
  rearmed := .stops woken
  calls := by
    rw [content]
    exact Nat.succ_pos _
  takes := by
    intro i after called
    cases i with
    | zero =>
      cases called
      exact taking_succ content found 0
    | succ i => cases called
  stops := CreditLink.consume_of_unready none_due
  left := by
    rw [content]
    rfl

theorem Drains.cons (woken : p.wakeup cycle = .ok ([p.wakeupAfter 1], p.served m rest c))
    (later : (p.served m rest c).Drains (cycle + 1) between r) :
    p.Drains cycle (p.served m rest c :: between) r where
  rearmed := .goesOn woken later.rearmed
  calls := by
    rw [content]
    exact Nat.succ_lt_succ later.calls
  takes := by
    intro i after called
    rw [taking_succ content found]
    cases i with
    | zero =>
      cases called
      rfl
    | succ i => exact later.takes i after called
  stops := by
    have stops := later.stops
    rwa [Nat.add_right_comm] at stops
  left := by
    rw [content]
    exact later.left

end Due

theorem exists_drains (known : ∀ m ∈ p.credits.pending, m.2.channel < p.channels.length)
    (content : p.credits.pending = m :: rest) (due : m.1 ≤ cycle) : ∃ between r, p.Drains cycle between r := by
  induction rest generalizing p cycle m with
  | nil =>
    rw [content] at known
    obtain ⟨c, found⟩ : ∃ c, p.channels[m.2.channel]? = some c :=
      ⟨_, List.getElem?_eq_getElem (known m List.mem_cons_self)⟩
    exact ⟨[], _, .last content found (wakeup_of_due content found due) rfl⟩
  | cons next rest ih =>
    rw [content] at known
    obtain ⟨c, found⟩ : ∃ c, p.channels[m.2.channel]? = some c :=
      ⟨_, List.getElem?_eq_getElem (known m List.mem_cons_self)⟩
    have woken := wakeup_of_due content found due
    by_cases another : next.1 ≤ cycle
    · have ready : (⟨next :: rest⟩ : CreditLink).isReady cycle = true := decide_eq_true another
      rw [if_pos ready] at woken
      have known_rest : ∀ n ∈ next :: rest, n.2.channel < (p.served m (next :: rest) c).channels.length := by
        rw [length_served]
        exact fun n member => known n (List.mem_cons_of_mem m member)
      obtain ⟨between, r, later⟩ := ih (p := p.served m (next :: rest) c) known_rest rfl (Nat.le_succ_of_le another)
      exact ⟨_, r, later.cons content found woken⟩
    · have none_due : (⟨next :: rest⟩ : CreditLink).isReady cycle = false := decide_eq_false another
      rw [none_due] at woken
      exact ⟨[], _, .last content found woken none_due⟩

/-- From any cycle on, wakeups that ask for one another take a message each, in order of arrival and of sending, and
stop when no message is left that has arrived. If none has arrived at first, there is one wakeup, which changes
nothing. -/
theorem rearmed_wakeups_drain {sent : List (Nat × Credit)} (link : p.credits = CreditLink.empty.sendAll sent)
    (known : ∀ m ∈ sent, m.2.channel < p.channels.length) (cycle : Nat) :
    InOrder p.credits.pending sent ∧
    ∃ between r, p.Rearmed cycle between r ∧
      (∀ between' r', p.Rearmed cycle between' r' → between' = between ∧ r' = r) ∧
      ((∀ m ∈ sent, cycle < m.1) → between = [] ∧ r = p) ∧
      ((∃ m ∈ sent, m.1 ≤ cycle) → between.length + 1 ≤ p.credits.pending.length ∧
        ∀ i after, (between ++ [r])[i]? = some after → p.taking (i + 1) = .ok after) ∧
      ∀ m ∈ r.credits.pending, cycle + between.length < m.1 := by
  have ordered : InOrder p.credits.pending sent := by
    rw [link]
    exact CreditLink.inOrder_sendAll ⟨List.Pairwise.nil, fun _ => rfl⟩ sent
  have waiting : ∀ m, m ∈ p.credits.pending ↔ m ∈ sent := ordered.mem_iff
  refine ⟨ordered, ?_⟩
  rcases consumed : p.credits.consume cycle with ⟨_ | credit, rest⟩
  · have nothing : (p.credits.consume cycle).1 = none := by rw [consumed]
    have later := CreditLink.consume_none nothing ordered.sorted
    have chain : p.Rearmed cycle [] p := .stops (wakeup_none nothing)
    refine ⟨[], p, chain, fun _ _ other => chain.unique other, fun _ => ⟨rfl, rfl⟩, ?_, later⟩
    intro ⟨m, member, due⟩
    have after := later m ((waiting m).mpr member)
    omega
  · obtain ⟨arrival, due, content⟩ := CreditLink.consume_some consumed
    obtain ⟨between, r, drains⟩ := exists_drains (fun m member => known m ((waiting m).mp member)) content due
    refine ⟨between, r, drains.rearmed, fun _ _ other => drains.rearmed.unique other, ?_, ?_, ?_⟩
    · intro later
      have after := later (arrival, credit) ((waiting _).mp (content ▸ List.mem_cons_self))
      omega
    · exact fun _ => ⟨drains.calls, drains.takes⟩
    · apply CreditLink.consume_none drains.stops
      rw [drains.left]
      exact ordered.sorted.sublist (List.drop_sublist _ _)

theorem two_due_messages_drain :
    let sent : List (Nat × Credit) := [(6, ⟨0, true⟩), (9, ⟨0, false⟩), (5, ⟨0, false⟩)]
    let p : Port :=
      { idle 4 .localPort 1 1 3 with
        channels := [⟨0, 3, 0, by decide, .active⟩], credits := CreditLink.empty.sendAll sent }
    (∀ m ∈ sent, m.2.channel < p.channels.length) ∧
    ∃ q r, p.Rearmed 6 [q] r ∧ p.taking 1 = .ok q ∧ p.taking 2 = .ok r ∧
      (q.creditsOf 0, r.creditsOf 0) = (1, 2) ∧ r.credits.pending = [(9, ⟨0, false⟩)] := by
  intro sent p
  have known : ∀ m ∈ sent, m.2.channel < p.channels.length := by decide
  let q := p.served (5, ⟨0, false⟩) [(6, ⟨0, true⟩), (9, ⟨0, false⟩)] ⟨0, 3, 0, by decide, .active⟩
  let r := q.served (6, ⟨0, true⟩) [(9, ⟨0, false⟩)] ⟨0, 3, 1, by decide, .active⟩
  have chain : p.Rearmed 6 [q] r := .goesOn rfl (.stops rfl)
  obtain ⟨-, between, last, -, unique, -, takes, -⟩ := rearmed_wakeups_drain rfl known 6
  obtain ⟨rfl, rfl⟩ := unique _ _ chain
  have taken := (takes ⟨(5, ⟨0, false⟩), by decide, by decide⟩).2
  exact ⟨known, q, r, chain, taken 0 q rfl, taken 1 r rfl, by decide, by decide⟩

end Port

end Interconnect
