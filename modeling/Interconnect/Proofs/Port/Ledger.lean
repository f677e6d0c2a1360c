import Mathlib
import Interconnect.Proofs.Port.Operations

namespace Interconnect

namespace Port

inductive Action where
  | send (traffic : Traffic) (flit : Nat)
  | deliver (credit : Credit) (cycle delay : Nat)
  | wake (cycle : Nat)
  | select (vnet : Nat) (selection : Selection)
  | setState (channel : Nat) (state : ChannelState)
  | pop

def perform (p : Port) : Action → Except Breach Port
  | .send traffic flit => return (← p.sendFlit traffic flit).2
  | .deliver credit cycle delay => return (p.deliverCredit credit cycle delay).2
  | .wake cycle => return (← p.wakeup cycle).2
  | .select vnet selection => return (← p.selectFree vnet selection).2
  | .setState channel state => p.setState channel state
  | .pop => return p.popFlit.2

namespace Action

def sent : Action → List Nat
  | send traffic flit => (traffic.channel? flit).toList
  | _ => []

def returned : Action → List Nat
  | deliver credit _ _ => [credit.channel]
  | _ => []

end Action

def sendInPlace (traffic : Traffic) (flit : Nat) : ExceptT Breach (StateM Port) Request := do
  if let some channel := traffic.channel? flit then
    let c ← liftExcept ((← get).channel channel)
    let c ← liftExcept c.spend
    modify (·.setChannel channel c)
  modify fun p => { p with egress := p.egress ++ [flit] }
  modify fun p => { p with counts := { p.counts with forwardedFlits := p.counts.forwardedFlits + 1 } }
  return ⟨1, .second, .linkTraversal (← get).index⟩

theorem sendInPlace_eq (p : Port) (traffic : Traffic) (flit : Nat) :
    (sendInPlace traffic flit).run.run p =
      match p.sendFlit traffic flit with
      | .ok (request, q) => (.ok request, q)
      | .error b => (.error b, p) := by
  cases tagged : traffic.channel? flit with
  | none =>
    simp only [sendInPlace, sendFlit, tagged]
    rfl
  | some channel =>
    have read : (get : ExceptT Breach (StateM Port) Port).run.run p = (.ok p, p) := rfl
    simp only [sendInPlace, sendFlit, tagged, spendCredit, run_bind, read, run_liftExcept]
    cases found : p.channel channel with
    | error b => rfl
    | ok c =>
      cases spent : c.spend with
      | error b => simp only [bind, Except.bind, spent]
      | ok new =>
        simp only [bind, Except.bind, spent]
        rfl

end Port

/-- A port with the history of its account. -/
structure Ledger where
  port : Port
  /-- The channels of the flits that were sent, the last first. -/
  sent : List Nat
  /-- The channels of the credits that were handed to the link, the last first. -/
  returned : List Nat

namespace Ledger

def opened (p : Port) : Ledger := ⟨p, [], []⟩

def step (l : Ledger) (action : Port.Action) : Ledger :=
  match l.port.perform action with
  | .ok p => ⟨p, action.sent ++ l.sent, action.returned ++ l.returned⟩
  | .error _ => l

def run (l : Ledger) (actions : List Port.Action) : Ledger := actions.foldl step l

/-- Flits are sent to channels of the port, and no more credits are handed back for a channel than flits were
sent to it. -/
def Admits (l : Ledger) : Port.Action → Prop
  | .send traffic flit => ∃ channel < l.port.channels.length, traffic.channel? flit = some channel
  | .deliver credit _ _ => l.returned.count credit.channel < l.sent.count credit.channel
  | _ => True

def AdmitsAll (l : Ledger) : List Port.Action → Prop
  | [] => True
  | action :: actions => l.Admits action ∧ (l.step action).AdmitsAll actions

def outstanding (l : Ledger) (channel : Nat) : Nat := l.sent.count channel - l.returned.count channel

-- the balance is kept as a sum of both histories, since `outstanding` would lose a surplus of returned credits
structure Balanced (l : Ledger) (count depth : Nat) : Prop where
  plan : l.port.plan = (List.range count).map fun channel => (channel, depth)
  balance : ∀ channel < count,
    l.port.creditsOf channel + l.port.credits.toward channel + l.sent.count channel =
      depth + l.returned.count channel
  inside : ∀ channel ∈ l.sent, channel < count
  toward_le : ∀ channel, l.port.credits.toward channel ≤ l.returned.count channel
  returned_le : ∀ channel, l.returned.count channel ≤ l.sent.count channel

variable {l : Ledger} {count depth : Nat}

theorem opened_balanced (index : Nat) (direction : Direction) (vnets poolSize depth : Nat) :
    (opened (.idle index direction vnets poolSize depth)).Balanced (vnets * poolSize) depth where
  plan := by simp [opened, Port.idle, Port.plan, Channel.idle, Function.comp_def]
  balance := by
    intro channel inside
    simp [opened, Port.idle, Port.creditsOf, CreditLink.empty, CreditLink.toward, Channel.idle, inside]
  inside := by simp [opened]
  toward_le := by simp [opened, Port.idle, CreditLink.empty, CreditLink.toward]
  returned_le := by simp [opened]

theorem Balanced.length (balanced : l.Balanced count depth) : l.port.channels.length = count := by
  have size := congrArg List.length balanced.plan
  simpa [Port.plan] using size

theorem Balanced.found (balanced : l.Balanced count depth) {channel : Nat} (inside : channel < count) :
    ∃ c, l.port.channels[channel]? = some c ∧ c.index = channel ∧ c.depth = depth := by
  have bound : channel < l.port.channels.length := by rwa [balanced.length]
  have planned := congrArg (·[channel]?) balanced.plan
  simp [Port.plan, inside, bound] at planned
  exact ⟨l.port.channels[channel], List.getElem?_eq_getElem bound, planned.1, planned.2⟩

theorem Balanced.awaited (balanced : l.Balanced count depth) {cycle : Nat} {credit : Credit} {rest : CreditLink}
    (consumed : l.port.credits.consume cycle = (some credit, rest)) :
    credit.channel < count ∧ l.port.creditsOf credit.channel < depth := by
  have taken := CreditLink.toward_consume consumed credit.channel
  have known := balanced.toward_le credit.channel
  have owed := balanced.returned_le credit.channel
  have self : [credit.channel].count credit.channel = 1 := by simp
  have positive : 0 < l.sent.count credit.channel := by omega
  have inside := balanced.inside _ (List.count_pos_iff.1 positive)
  have balance := balanced.balance _ inside
  exact ⟨inside, by omega⟩

theorem Balanced.wakeup (balanced : l.Balanced count depth) {cycle : Nat} {credit : Credit} {rest : CreditLink}
    (consumed : l.port.credits.consume cycle = (some credit, rest)) :
    ∃ requests q, l.port.wakeup cycle = .ok (requests, q) ∧ q.plan = l.port.plan ∧ q.credits = rest ∧
      ∀ channel, q.creditsOf channel = l.port.creditsOf channel + [credit.channel].count channel := by
  obtain ⟨inside, room⟩ := balanced.awaited consumed
  obtain ⟨c, found, _, at_depth⟩ := balanced.found inside
  rw [Port.creditsOf_eq found] at room
  refine ⟨_, _, Port.wakeup_some consumed found, ?_, rfl, ?_⟩
  · exact Port.plan_setChannel found (c.credited_index _) (c.credited_depth _)
  · intro channel
    have updated := Port.creditsOf_setChannel found (c.credited credit.frees) channel
    rw [Channel.credited_credits, at_depth] at updated
    have counted : [credit.channel].count channel = if credit.channel = channel then 1 else 0 := by
      simp [List.count_cons]
    change (l.port.setChannel credit.channel (c.credited credit.frees)).creditsOf channel = _
    rw [updated, counted]
    split
    · rename_i same
      subst same
      rw [Port.creditsOf_eq found]
      omega
    · omega

theorem Balanced.same_account (balanced : l.Balanced count depth) {q : Port} (plan : q.plan = l.port.plan)
    (credits : ∀ channel, q.creditsOf channel = l.port.creditsOf channel)
    (link : q.credits = l.port.credits) : (Ledger.mk q l.sent l.returned).Balanced count depth where
  plan := plan.trans balanced.plan
  balance := by
    intro channel inside
    simpa only [credits, link] using balanced.balance channel inside
  inside := balanced.inside
  toward_le := by simpa only [link] using balanced.toward_le
  returned_le := balanced.returned_le

theorem Balanced.relabelled (balanced : l.Balanced count depth) {channel : Nat} {c : Channel}
    (found : l.port.channels[channel]? = some c) (state : ChannelState) :
    (Ledger.mk (l.port.setChannel channel (c.setState state)) l.sent l.returned).Balanced count depth :=
  balanced.same_account (Port.plan_setChannel found rfl rfl) (Port.setChannel_setState found state) rfl

theorem Balanced.after_send (balanced : l.Balanced count depth) {traffic : Traffic} {flit channel : Nat}
    {request : Request} {q : Port} (tagged : traffic.channel? flit = some channel) (inside : channel < count)
    (h : l.port.sendFlit traffic flit = .ok (request, q)) :
    (Ledger.mk q ([channel] ++ l.sent) l.returned).Balanced count depth := by
  obtain ⟨c, found, _, _⟩ := balanced.found inside
  rw [Port.sendFlit_eq tagged found] at h
  split at h
  · cases h
  have sent : q = ((l.port.setChannel channel c.spent).pushFlit flit).2 :=
    congrArg Prod.snd (Except.ok.inj h).symm
  subst sent
  have spent : ∀ other, l.port.creditsOf other =
      (l.port.setChannel channel c.spent).creditsOf other + [channel].count other := by
    intro other
    have counted : [channel].count other = if channel = other then 1 else 0 := by simp [List.count_cons]
    rw [Port.creditsOf_setChannel found, counted]
    split
    · rename_i same
      subst same
      rw [Port.creditsOf_eq found]
      change c.credits = c.credits - 1 + 1
      omega
    · rfl
  have plan : (l.port.setChannel channel c.spent).plan = l.port.plan := Port.plan_setChannel found rfl rfl
  constructor
  case plan => exact plan.trans balanced.plan
  case balance =>
    intro other bound
    have before := balanced.balance other bound
    have change := spent other
    change (l.port.setChannel channel c.spent).creditsOf other + l.port.credits.toward other +
      ([channel] ++ l.sent).count other = depth + l.returned.count other
    rw [List.count_append]
    omega
  case inside =>
    intro other member
    rcases List.mem_append.1 member with new | old
    · rw [List.mem_singleton.1 new]
      exact inside
    · exact balanced.inside other old
  case toward_le => exact balanced.toward_le
  case returned_le =>
    intro other
    calc l.returned.count other ≤ l.sent.count other := balanced.returned_le other
      _ ≤ ([channel] ++ l.sent).count other := (List.sublist_append_right _ _).count_le other

theorem Balanced.after_delivery (balanced : l.Balanced count depth) {credit : Credit} {cycle delay : Nat}
    (owed : l.returned.count credit.channel < l.sent.count credit.channel) :
    (Ledger.mk (l.port.deliverCredit credit cycle delay).2 l.sent ([credit.channel] ++ l.returned)).Balanced
      count depth := by
  have linked : ∀ channel, (l.port.deliverCredit credit cycle delay).2.credits.toward channel =
      [credit.channel].count channel + l.port.credits.toward channel :=
    CreditLink.toward_send l.port.credits credit (cycle + delay)
  constructor
  case plan => exact balanced.plan
  case balance =>
    intro channel inside
    have before := balanced.balance channel inside
    change l.port.creditsOf channel + (l.port.deliverCredit credit cycle delay).2.credits.toward channel +
      l.sent.count channel = depth + ([credit.channel] ++ l.returned).count channel
    rw [linked, List.count_append]
    omega
  case inside => exact balanced.inside
  case toward_le =>
    intro channel
    have before := balanced.toward_le channel
    rw [linked, List.count_append]
    omega
  case returned_le =>
    intro channel
    have before := balanced.returned_le channel
    rw [List.count_append]
    by_cases same : credit.channel = channel
    · subst same
      simp only [List.count_singleton_self]
      omega
    · simp only [List.count_singleton, beq_iff_eq, same, if_false]
      omega

theorem Balanced.after_wakeup (balanced : l.Balanced count depth) {cycle : Nat} {requests : List Request}
    {q : Port} (h : l.port.wakeup cycle = .ok (requests, q)) :
    (Ledger.mk q l.sent l.returned).Balanced count depth := by
  rcases consumed : l.port.credits.consume cycle with ⟨_ | credit, rest⟩
  · rw [Port.wakeup_none (by rw [consumed])] at h
    cases h
    exact balanced
  · obtain ⟨_, _, computed, plan, link, credits⟩ := balanced.wakeup consumed
    rw [computed] at h
    cases h
    have taken := CreditLink.toward_consume consumed
    constructor
    case plan => exact plan.trans balanced.plan
    case balance =>
      intro channel inside
      have before := balanced.balance channel inside
      have moved := taken channel
      simp only [credits, link]
      omega
    case inside => exact balanced.inside
    case toward_le =>
      intro channel
      have before := balanced.toward_le channel
      have moved := taken channel
      simp only [link]
      omega
    case returned_le => exact balanced.returned_le

theorem Balanced.step (balanced : l.Balanced count depth) {action : Port.Action} (admits : l.Admits action) :
    (l.step action).Balanced count depth := by
  unfold Ledger.step
  split
  · rename_i q performed
    cases action with
    | send traffic flit =>
      obtain ⟨channel, inside, tagged⟩ := admits
      obtain ⟨⟨request, q⟩, sent, same⟩ := bind_eq_ok.1 performed
      cases same
      simp only [Port.Action.sent, tagged]
      exact balanced.after_send tagged (balanced.length ▸ inside) sent
    | deliver credit cycle delay =>
      cases performed
      exact balanced.after_delivery admits
    | wake cycle =>
      obtain ⟨⟨requests, q⟩, woken, same⟩ := bind_eq_ok.1 performed
      cases same
      exact balanced.after_wakeup woken
    | select vnet selection =>
      obtain ⟨⟨result, q⟩, selected, same⟩ := bind_eq_ok.1 performed
      cases same
      rcases Port.selectFree_ok selected with ⟨_, rfl⟩ | ⟨channel, c, _, found, rfl⟩
      · exact balanced
      · exact balanced.relabelled found .active
    | setState channel state =>
      obtain ⟨c, found, rfl⟩ := Port.setState_ok performed
      exact balanced.relabelled found state
    | pop =>
      cases performed
      unfold Port.popFlit
      split
      · exact balanced
      · exact balanced.same_account rfl (fun _ => rfl) rfl
  · exact balanced

theorem Balanced.run (balanced : l.Balanced count depth) {actions : List Port.Action}
    (admits : l.AdmitsAll actions) : (l.run actions).Balanced count depth := by
  induction actions generalizing l with
  | nil => exact balanced
  | cons action actions ih => exact ih (balanced.step admits.1) admits.2

theorem Balanced.refuses_iff (balanced : l.Balanced count depth) {traffic : Traffic} {flit channel : Nat}
    (tagged : traffic.channel? flit = some channel) (inside : channel < count) :
    ((∃ b, l.port.sendFlit traffic flit = .error b) ↔ l.port.creditsOf channel = 0) ∧
      (l.port.creditsOf channel = 0 →
        (Port.sendInPlace traffic flit).run.run l.port = (.error (.noCredit channel), l.port)) := by
  obtain ⟨c, found, index, _⟩ := balanced.found inside
  rw [Port.sendInPlace_eq, Port.sendFlit_eq tagged found, Port.creditsOf_eq found]
  by_cases empty : c.credits = 0
  · simp [empty, index]
  · simp [empty]

/-- Credits are neither lost nor made up, over every run of a port in which no more credits come back for a
channel than flits were sent to it. -/
theorem credits_conserved (index : Nat) (direction : Direction) (vnets poolSize depth : Nat)
    (actions : List Port.Action) (admits : (opened (.idle index direction vnets poolSize depth)).AdmitsAll actions) :
    let l := (opened (.idle index direction vnets poolSize depth)).run actions
    l.port.channels.length = vnets * poolSize ∧
    (∀ channel < vnets * poolSize,
      l.port.creditsOf channel + l.port.credits.toward channel + l.outstanding channel = depth ∧
      l.returned.count channel ≤ l.sent.count channel ∧
      l.port.credits.toward channel + l.outstanding channel ≤ depth) ∧
    (∀ cycle credit rest, l.port.credits.consume cycle = (some credit, rest) →
      l.port.creditsOf credit.channel < depth ∧
      ∃ requests q, l.port.wakeup cycle = .ok (requests, q) ∧
        q.creditsOf credit.channel = l.port.creditsOf credit.channel + 1) ∧
    (∀ traffic flit channel, traffic.channel? flit = some channel → channel < vnets * poolSize →
      ((∃ b, l.port.sendFlit traffic flit = .error b) ↔ l.port.creditsOf channel = 0) ∧
      (l.port.creditsOf channel = 0 →
        (Port.sendInPlace traffic flit).run.run l.port = (.error (.noCredit channel), l.port))) := by
  intro l
  have balanced : l.Balanced (vnets * poolSize) depth :=
    (opened_balanced index direction vnets poolSize depth).run admits
  refine ⟨balanced.length, ?_, ?_, ?_⟩
  · intro channel inside
    have balance := balanced.balance channel inside
    have owed := balanced.returned_le channel
    have held : l.outstanding channel = l.sent.count channel - l.returned.count channel := rfl
    exact ⟨by omega, owed, by omega⟩
  · intro cycle credit rest consumed
    obtain ⟨requests, q, woken, _, _, credits⟩ := balanced.wakeup consumed
    refine ⟨(balanced.awaited consumed).2, requests, q, woken, ?_⟩
    simpa using credits credit.channel
  · intro traffic flit channel tagged inside
    exact balanced.refuses_iff tagged inside

theorem credits_conserved_refilled :
    let port : Port := .idle 0 .localPort 1 1 2
    let traffic : Traffic := ⟨[], [], [⟨0, 0, some 0⟩]⟩
    let actions : List Port.Action :=
      [.send traffic 0, .send traffic 0, .deliver ⟨0, true⟩ 3 1, .wake 4, .send traffic 0]
    let l := (opened port).run actions
    (opened port).AdmitsAll actions ∧
      l.port.creditsOf 0 + l.port.credits.toward 0 + l.outstanding 0 = 2 ∧ l.outstanding 0 = 2 := by
  intro port traffic actions l
  have admits : (opened port).AdmitsAll actions :=
    ⟨⟨0, by decide, rfl⟩, ⟨0, by decide, rfl⟩, show [].count 0 < [0, 0].count 0 by decide, trivial,
      ⟨0, by decide, rfl⟩, trivial⟩
  exact ⟨admits, ((credits_conserved 0 .localPort 1 1 2 actions admits).2.1 0 (by decide)).1, by decide⟩

end Ledger

end Interconnect
