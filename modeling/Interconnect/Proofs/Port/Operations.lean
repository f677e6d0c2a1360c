import Mathlib
import Interconnect.Proofs.Failure
import Interconnect.Port.Basic
import Interconnect.Proofs.Port.Ranges

namespace Interconnect

namespace CreditLink

def toward (l : CreditLink) (channel : Nat) : Nat := (l.pending.map fun p => p.2.channel).count channel

theorem insertInto_perm (arrival : Nat) (credit : Credit) (pending : List (Nat × Credit)) :
    (insertInto arrival credit pending).Perm ((arrival, credit) :: pending) := by
  induction pending with
  | nil => exact List.Perm.refl _
  | cons p pending ih =>
    unfold insertInto
    split
    · exact List.Perm.refl _
    · exact (ih.cons p).trans (List.Perm.swap _ _ _)

theorem toward_send (l : CreditLink) (credit : Credit) (arrival channel : Nat) :
    (l.send credit arrival).toward channel = [credit.channel].count channel + l.toward channel := by
  have inserted := (insertInto_perm arrival credit l.pending).map fun p => p.2.channel
  rw [toward, send, inserted.count_eq]
  simp [toward, List.count_cons, Nat.add_comm]

theorem consume_some {l rest : CreditLink} {cycle : Nat} {credit : Credit}
    (consumed : l.consume cycle = (some credit, rest)) :
    ∃ arrival, arrival ≤ cycle ∧ l.pending = (arrival, credit) :: rest.pending := by
  unfold consume at consumed
  split at consumed
  · cases consumed
  · rename_i arrival first others pending
    split at consumed
    · rename_i arrived
      cases consumed
      exact ⟨arrival, arrived, pending⟩
    · cases consumed

theorem toward_consume {l rest : CreditLink} {cycle : Nat} {credit : Credit}
    (consumed : l.consume cycle = (some credit, rest)) (channel : Nat) :
    l.toward channel = [credit.channel].count channel + rest.toward channel := by
  obtain ⟨arrival, _, pending⟩ := consume_some consumed
  simp [toward, pending, List.count_cons, Nat.add_comm]

end CreditLink

namespace Channel

def credited (c : Channel) (frees : Bool) : Channel := if frees then c.restore.setState .idle else c.restore

theorem spent_credits_le (c : Channel) : c.credits - 1 ≤ c.depth := Nat.le_trans (Nat.sub_le _ 1) c.credits_le

def spent (c : Channel) : Channel := { c with credits := c.credits - 1, credits_le := c.spent_credits_le }

theorem spend_eq (c : Channel) : c.spend = if c.credits = 0 then .error (.noCredit c.index) else .ok c.spent := rfl

theorem restore_credits (c : Channel) : c.restore.credits = min c.depth (c.credits + 1) := by
  have bound := c.credits_le
  unfold restore
  split
  · dsimp only
    omega
  · omega

@[simp] theorem restore_index (c : Channel) : c.restore.index = c.index := by
  unfold restore
  split <;> rfl

@[simp] theorem restore_depth (c : Channel) : c.restore.depth = c.depth := by
  unfold restore
  split <;> rfl

@[simp] theorem credited_credits (c : Channel) (frees : Bool) :
    (c.credited frees).credits = min c.depth (c.credits + 1) := by
  cases frees <;> exact restore_credits c

@[simp] theorem credited_index (c : Channel) (frees : Bool) : (c.credited frees).index = c.index := by
  cases frees <;> exact restore_index c

@[simp] theorem credited_depth (c : Channel) (frees : Bool) : (c.credited frees).depth = c.depth := by
  cases frees <;> exact restore_depth c

end Channel

namespace Port

theorem channel_eq_ok {p : Port} {i : Nat} {c : Channel} : p.channel i = .ok c ↔ p.channels[i]? = some c :=
  orBreach_eq_ok

theorem spendCredit_eq {p : Port} {i : Nat} {c : Channel} (found : p.channels[i]? = some c) :
    p.spendCredit i = if c.credits = 0 then .error (.noCredit c.index) else .ok (p.setChannel i c.spent) := by
  have present := channel_eq_ok.2 found
  simp only [spendCredit, present, Channel.spend_eq, bind, Except.bind, pure, Except.pure]
  by_cases empty : c.credits = 0 <;> simp [empty]

theorem spendCredit_ok {p q : Port} {i : Nat} (spent : p.spendCredit i = .ok q) :
    ∃ c, p.channels[i]? = some c ∧ q = p.setChannel i c.spent := by
  obtain ⟨c, present, _⟩ := bind_eq_ok.1 spent
  have found := channel_eq_ok.1 present
  rw [spendCredit_eq found] at spent
  split at spent
  · cases spent
  · cases spent
    exact ⟨c, found, rfl⟩

theorem restoreCredit_ok {p q : Port} {i : Nat} (restored : p.restoreCredit i = .ok q) :
    ∃ c, p.channels[i]? = some c ∧ q = p.setChannel i c.restore := by
  obtain ⟨c, present, same⟩ := bind_eq_ok.1 restored
  cases same
  exact ⟨c, channel_eq_ok.1 present, rfl⟩

theorem setState_eq {p : Port} {i : Nat} {c : Channel} (found : p.channels[i]? = some c) (state : ChannelState) :
    p.setState i state = .ok (p.setChannel i (c.setState state)) := by
  have present := channel_eq_ok.2 found
  simp only [setState, present, bind, Except.bind, pure, Except.pure]

theorem setState_ok {p q : Port} {i : Nat} {state : ChannelState} (h : p.setState i state = .ok q) :
    ∃ c, p.channels[i]? = some c ∧ q = p.setChannel i (c.setState state) := by
  obtain ⟨c, present, same⟩ := bind_eq_ok.1 h
  cases same
  exact ⟨c, channel_eq_ok.1 present, rfl⟩

theorem sendFlit_eq {p : Port} {traffic : Traffic} {flit i : Nat} {c : Channel}
    (tagged : traffic.channel? flit = some i) (found : p.channels[i]? = some c) :
    p.sendFlit traffic flit =
      if c.credits = 0 then .error (.noCredit c.index) else .ok ((p.setChannel i c.spent).pushFlit flit) := by
  simp only [sendFlit, tagged, spendCredit_eq found, bind, Except.bind, pure, Except.pure]
  by_cases empty : c.credits = 0 <;> simp [empty]

theorem sendFlit_ok {p q : Port} {traffic : Traffic} {flit : Nat} {request : Request}
    (sent : p.sendFlit traffic flit = .ok (request, q)) :
    q = (p.pushFlit flit).2 ∨ ∃ i c, p.channels[i]? = some c ∧ q = ((p.setChannel i c.spent).pushFlit flit).2 := by
  cases tagged : traffic.channel? flit with
  | none =>
    rw [sendFlit, tagged] at sent
    cases sent
    exact .inl rfl
  | some i =>
    rw [sendFlit, tagged] at sent
    obtain ⟨spent, spending, same⟩ := bind_eq_ok.1 sent
    cases same
    obtain ⟨c, found, rfl⟩ := spendCredit_ok spending
    exact .inr ⟨i, c, found, rfl⟩

def credited (p : Port) (credit : Credit) (c : Channel) : Port :=
  { p with
    channels := p.channels.set credit.channel (c.credited credit.frees)
    counts := { p.counts with
      receivedCredits := p.counts.receivedCredits + 1
      freeSignals := p.counts.freeSignals + credit.frees.toNat } }

theorem applyCredit_eq {p : Port} {credit : Credit} {c : Channel} (found : p.channels[credit.channel]? = some c) :
    p.applyCredit credit = .ok (p.credited credit c) := by
  have present : p.countCredit.channel credit.channel = .ok c := channel_eq_ok.2 found
  have inside := (List.getElem?_eq_some_iff.1 found).1
  have restored : p.countCredit.restoreCredit credit.channel =
      .ok (p.countCredit.setChannel credit.channel c.restore) := by
    simp only [restoreCredit, present, bind, Except.bind, pure, Except.pure]
  have updated : (p.countCredit.setChannel credit.channel c.restore).countFreeSignal.channels[credit.channel]? =
      some c.restore := by
    simp [countFreeSignal, setChannel, countCredit, inside]
  rw [applyCredit, restored]
  cases frees : credit.frees with
  | false => simp [bind, Except.bind, pure, Except.pure, credited, Channel.credited, setChannel, countCredit, frees]
  | true =>
    have freed := setState_eq updated .idle
    simp only [bind, Except.bind, if_true, freed]
    simp [credited, Channel.credited, setChannel, countCredit, countFreeSignal, frees]

theorem applyCredit_ok {p q : Port} {credit : Credit} (applied : p.applyCredit credit = .ok q) :
    ∃ c, p.channels[credit.channel]? = some c ∧ q = p.credited credit c := by
  obtain ⟨restored, first, _⟩ := bind_eq_ok.1 applied
  obtain ⟨c, present, _⟩ := restoreCredit_ok first
  have found : p.channels[credit.channel]? = some c := present
  rw [applyCredit_eq found] at applied
  cases applied
  exact ⟨c, found, rfl⟩

theorem wakeup_none {p : Port} {cycle : Nat} (nothing : (p.credits.consume cycle).1 = none) :
    p.wakeup cycle = .ok ([], p) := by
  rcases consumed : p.credits.consume cycle with ⟨_ | credit, rest⟩
  · simp [wakeup, consumed, pure, Except.pure]
  · simp [consumed] at nothing

theorem wakeup_some {p : Port} {cycle : Nat} {credit : Credit} {rest : CreditLink} {c : Channel}
    (consumed : p.credits.consume cycle = (some credit, rest)) (found : p.channels[credit.channel]? = some c) :
    p.wakeup cycle =
      .ok (if rest.isReady cycle then [p.wakeupAfter 1] else [], { p with credits := rest }.credited credit c) := by
  have applied : { p with credits := rest }.applyCredit credit = .ok ({ p with credits := rest }.credited credit c) :=
    applyCredit_eq found
  simp only [wakeup, consumed, applied, bind, Except.bind, pure, Except.pure]

theorem wakeup_ok {p q : Port} {cycle : Nat} {requests : List Request} (woken : p.wakeup cycle = .ok (requests, q)) :
    (p.credits.consume cycle).1 = none ∧ q = p ∨
      ∃ credit rest c, p.credits.consume cycle = (some credit, rest) ∧ p.channels[credit.channel]? = some c ∧
        q = { p with credits := rest }.credited credit c := by
  rcases consumed : p.credits.consume cycle with ⟨_ | credit, rest⟩
  · rw [wakeup_none (by rw [consumed])] at woken
    cases woken
    exact .inl ⟨rfl, rfl⟩
  · simp only [wakeup, consumed] at woken
    obtain ⟨taken, applied, same⟩ := bind_eq_ok.1 woken
    cases same
    obtain ⟨c, found, rfl⟩ := applyCredit_ok applied
    exact .inr ⟨credit, rest, c, rfl, found, rfl⟩

theorem free_eq_ok {p : Port} {vnet : Nat} {selection : Selection} {free : List Nat} :
    p.free vnet selection = .ok free ↔
      ∃ opened, selection.ranges p.direction.dimension? vnet p.poolSize = .ok opened ∧
        (opened.1.fits p.channels.length ∧ opened.2.fits p.channels.length) ∧
        free = (p.channels.zipIdx.filter fun (c, channel) =>
          c.isIdle && decide (channel ∈ opened.1 ∨ channel ∈ opened.2)).map Prod.snd := by
  rw [Port.free, bind_eq_ok]
  refine exists_congr fun opened => and_congr_right fun _ => ?_
  rw [← Bool.and_eq_true]
  dsimp only
  split
  · rename_i fits
    rw [and_iff_right fits, Except.ok.injEq, eq_comm]
  · rename_i outside
    exact iff_of_false nofun fun inside => outside inside.1

theorem exists_free {p : Port} {vnets vnet : Nat} (channels : Word.mul vnets p.poolSize = .ok p.channels.length)
    (known : vnet < vnets) (selection : Selection) : ∃ free, p.free vnet selection = .ok free := by
  obtain ⟨bounded, count⟩ := Word.mul_eq_ok.mp channels
  have room : vnet * p.poolSize + p.poolSize ≤ p.channels.length := by
    rw [count, ← Nat.succ_mul]
    exact Nat.mul_le_mul_right _ known
  have opened := selection.ranges_eq p.direction.dimension? (show vnet * p.poolSize + p.poolSize < 2 ^ 64 by omega)
  exact ⟨_, free_eq_ok.mpr ⟨_, opened, selection.spans_fits p.direction.dimension? room, rfl⟩⟩

theorem exists_countFree {p : Port} {vnets vnet : Nat} (channels : Word.mul vnets p.poolSize = .ok p.channels.length)
    (known : vnet < vnets) (selection : Selection) : ∃ count, p.countFree vnet selection = .ok count := by
  obtain ⟨free, found⟩ := exists_free channels known selection
  exact ⟨free.length, bind_eq_ok.mpr ⟨free, found, rfl⟩⟩

theorem selectFree_ok {p q : Port} {vnet : Nat} {selection : Selection} {result : Option Nat}
    (h : p.selectFree vnet selection = .ok (result, q)) :
    result = none ∧ q = p ∨
      ∃ i c, result = some i ∧ p.channels[i]? = some c ∧ q = p.setChannel i (c.setState .active) := by
  obtain ⟨free, computed, chosen⟩ := bind_eq_ok.1 h
  cases free with
  | nil =>
    cases chosen
    exact .inl ⟨rfl, rfl⟩
  | cons i others =>
    obtain ⟨set, updated, same⟩ := bind_eq_ok.1 chosen
    cases same
    obtain ⟨c, found, rfl⟩ := setState_ok updated
    exact .inr ⟨i, c, rfl, found, rfl⟩

def plan (p : Port) : List (Nat × Nat) := p.channels.map fun c => (c.index, c.depth)

def creditsOf (p : Port) (channel : Nat) : Nat := (p.channels[channel]?.map Channel.credits).getD 0

theorem creditsOf_eq {p : Port} {i : Nat} {c : Channel} (found : p.channels[i]? = some c) :
    p.creditsOf i = c.credits := by simp [creditsOf, found]

theorem plan_setChannel {p : Port} {i : Nat} {c new : Channel} (found : p.channels[i]? = some c)
    (index : new.index = c.index) (depth : new.depth = c.depth) : (p.setChannel i new).plan = p.plan := by
  apply List.ext_getElem?
  intro j
  by_cases same : i = j
  · subst same
    obtain ⟨inside, rfl⟩ := List.getElem?_eq_some_iff.1 found
    simp [plan, setChannel, inside, index, depth]
  · simp [plan, setChannel, List.getElem?_set_ne same]

theorem creditsOf_setChannel {p : Port} {i : Nat} {c : Channel} (found : p.channels[i]? = some c)
    (new : Channel) (j : Nat) : (p.setChannel i new).creditsOf j = if i = j then new.credits else p.creditsOf j := by
  have inside := (List.getElem?_eq_some_iff.1 found).1
  by_cases same : i = j
  · subst same
    simp [creditsOf, setChannel, inside]
  · simp [creditsOf, setChannel, List.getElem?_set_ne same, same]

theorem setChannel_setState {p : Port} {i : Nat} {c : Channel} (found : p.channels[i]? = some c)
    (state : ChannelState) (j : Nat) : (p.setChannel i (c.setState state)).creditsOf j = p.creditsOf j := by
  rw [creditsOf_setChannel found]
  split
  · rename_i same
    subst same
    exact (creditsOf_eq found).symm
  · rfl

end Port

end Interconnect
