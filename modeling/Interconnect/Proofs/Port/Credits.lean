import Mathlib
import Interconnect.Proofs.Port.Ownership

namespace Interconnect

namespace Channel

/-- The channel behind so many credits, where it is told whether one of them frees it. -/
def creditedBy (c : Channel) (count : Nat) (freed : Bool) : Channel where
  index := c.index
  depth := c.depth
  credits := min c.depth (c.credits + count)
  credits_le := Nat.min_le_left _ _
  state := if freed then .idle else c.state

theorem creditedBy_zero (c : Channel) : c.creditedBy 0 false = c := by
  have all : min c.depth c.credits = c.credits := Nat.min_eq_right c.credits_le
  simp only [creditedBy, Nat.add_zero, all, Bool.false_eq_true, if_false]

theorem credited_state (c : Channel) (frees : Bool) :
    (c.credited frees).state = if frees then .idle else c.state := by
  cases frees with
  | false => exact c.restore_state
  | true => rfl

theorem creditedBy_credited (c : Channel) (frees : Bool) (count : Nat) (freed : Bool) :
    (c.credited frees).creditedBy count freed = c.creditedBy (count + 1) (frees || freed) := by
  -- a credit that is dropped for want of room is made up for by the bound on the sum
  have credits : min c.depth (min c.depth (c.credits + 1) + count) = min c.depth (c.credits + (count + 1)) := by
    omega
  simp only [creditedBy, credited_index, credited_depth, credited_credits, credited_state, credits]
  cases frees <;> simp

end Channel

namespace Port

variable {p : Port} {credits order : List Credit} {credit : Credit} {i : Nat} {c : Channel}

def anyFrees (credits : List Credit) (channel : Nat) : Bool :=
  credits.any fun credit => credit.channel == channel && credit.frees

theorem anyFrees_iff : anyFrees credits i ↔ ∃ credit ∈ credits, credit.channel = i ∧ credit.frees := by
  simp only [anyFrees, List.any_eq_true, Bool.and_eq_true, beq_iff_eq]

def creditedBy (p : Port) (credits : List Credit) : Port :=
  { p with
    channels := p.channels.mapIdx fun i c => c.creditedBy (credits.countP (·.channel == i)) (anyFrees credits i)
    counts := { p.counts with
      receivedCredits := p.counts.receivedCredits + credits.length
      freeSignals := p.counts.freeSignals + credits.countP (·.frees) } }

theorem creditedBy_nil (p : Port) : p.creditedBy [] = p := by
  have channels : p.channels.mapIdx (fun _ c => c.creditedBy 0 false) = p.channels := by
    apply List.ext_getElem?
    intro i
    simp [Channel.creditedBy_zero]
  simp only [creditedBy, anyFrees, List.countP_nil, List.any_nil, channels, List.length_nil, Nat.add_zero]

theorem creditedBy_cons (found : p.channels[credit.channel]? = some c) :
    p.creditedBy (credit :: credits) = (p.credited credit c).creditedBy credits := by
  have channels :
      (p.creditedBy (credit :: credits)).channels = ((p.credited credit c).creditedBy credits).channels := by
    apply List.ext_getElem?
    intro i
    simp only [creditedBy, anyFrees, credited, List.getElem?_mapIdx, List.countP_cons, List.any_cons]
    by_cases here : credit.channel = i
    · subst here
      have inside := (List.getElem?_eq_some_iff.mp found).1
      rw [found, List.getElem?_set_self inside]
      simp [Channel.creditedBy_credited]
    · have other : (credit.channel == i) = false := beq_false_of_ne here
      simp only [List.getElem?_set_ne here, other, Bool.false_and, Bool.false_or, Bool.false_eq_true, if_false,
        Nat.add_zero]
  have counts : (p.creditedBy (credit :: credits)).counts = ((p.credited credit c).creditedBy credits).counts := by
    simp only [creditedBy, credited, List.length_cons, List.countP_cons, PortCounts.mk.injEq, true_and]
    cases credit.frees <;> simp <;> omega
  exact congrArg₂ (fun channels counts => { p with channels, counts }) channels counts

theorem creditedBy_perm (perm : order.Perm credits) : p.creditedBy order = p.creditedBy credits := by
  simp only [creditedBy, anyFrees, perm.countP_eq, perm.any_eq, perm.length_eq]

theorem foldlM_applyCredit (known : ∀ credit ∈ credits, credit.channel < p.channels.length) :
    credits.foldlM applyCredit p = .ok (p.creditedBy credits) := by
  induction credits generalizing p with
  | nil =>
    rw [creditedBy_nil]
    rfl
  | cons credit credits ih =>
    rw [List.forall_mem_cons] at known
    have found := List.getElem?_eq_getElem known.1
    have kept : (p.credited credit p.channels[credit.channel]).channels.length = p.channels.length := List.length_set ..
    rw [List.foldlM_cons, applyCredit_eq found, creditedBy_cons found]
    apply ih
    rw [kept]
    exact known.2

theorem creditedBy_getElem? (found : p.channels[i]? = some c) (credits : List Credit) :
    (p.creditedBy credits).channels[i]? =
      some (c.creditedBy (credits.countP (·.channel == i)) (anyFrees credits i)) := by
  rw [creditedBy, List.getElem?_mapIdx, found]
  rfl

theorem creditedBy_getElem?_of_unnamed (unnamed : ∀ credit ∈ credits, credit.channel ≠ i) :
    (p.creditedBy credits).channels[i]? = p.channels[i]? := by
  have count : credits.countP (·.channel == i) = 0 := by
    rw [List.countP_eq_zero]
    intro credit member
    simpa using unnamed credit member
  have freed : anyFrees credits i = false := by
    rw [Bool.eq_false_iff, ne_eq, anyFrees_iff]
    intro ⟨credit, member, here, _⟩
    exact unnamed credit member here
  rw [creditedBy, List.getElem?_mapIdx, count, freed]
  simp only [Channel.creditedBy_zero, Option.map_id']

/-- What some credits make of a port: each channel has the credits for it, as far as its buffer goes, and is idle if one
of them frees it. The port counts them all, and all but its channels and counts stays as it is. -/
structure Credited (p : Port) (credits : List Credit) (q : Port) : Prop where
  length : q.channels.length = p.channels.length
  channel : ∀ i c, p.channels[i]? = some c → ∃ c' : Channel, q.channels[i]? = some c' ∧ c'.index = c.index ∧
    c'.depth = c.depth ∧ c'.credits = min c.depth (c.credits + credits.countP (·.channel == i)) ∧
    ((∃ credit ∈ credits, credit.channel = i ∧ credit.frees) → c'.state = .idle) ∧
    ((∀ credit ∈ credits, credit.channel = i → ¬ credit.frees) → c'.state = c.state)
  unnamed : ∀ i, (∀ credit ∈ credits, credit.channel ≠ i) → q.channels[i]? = p.channels[i]?
  counts : q.counts = ⟨p.counts.forwardedFlits, p.counts.receivedCredits + credits.length,
    p.counts.freeSignals + credits.countP (·.frees)⟩
  egress : q.egress = p.egress
  credits : q.credits = p.credits
  index : q.index = p.index
  direction : q.direction = p.direction
  poolSize : q.poolSize = p.poolSize

theorem credited_creditedBy (p : Port) (credits : List Credit) : p.Credited credits (p.creditedBy credits) := by
  refine ⟨List.length_mapIdx, ?_, ?_, rfl, rfl, rfl, rfl, rfl, rfl⟩
  · intro i c found
    refine ⟨_, creditedBy_getElem? found credits, rfl, rfl, rfl, ?_, ?_⟩
    · intro freed
      exact if_pos (anyFrees_iff.mpr freed)
    · intro kept
      apply if_neg
      rw [anyFrees_iff]
      intro ⟨credit, member, here, frees⟩
      exact kept credit member here frees
  · intro i unnamed
    exact creditedBy_getElem?_of_unnamed unnamed

/-- In whichever order credits for channels of a port are applied, it ends up the same: each channel has its credits,
as far as its buffer goes, and is idle if one of them frees it. -/
theorem credits_in_any_order (known : ∀ credit ∈ credits, credit.channel < p.channels.length) :
    ∃ q : Port, (∀ order : List Credit, order.Perm credits → order.foldlM applyCredit p = .ok q) ∧
      q.channels.length = p.channels.length ∧
      (∀ i c, p.channels[i]? = some c → ∃ c' : Channel, q.channels[i]? = some c' ∧ c'.index = c.index ∧
        c'.depth = c.depth ∧ c'.credits = min c.depth (c.credits + credits.countP (·.channel == i)) ∧
        ((∃ credit ∈ credits, credit.channel = i ∧ credit.frees) → c'.state = .idle) ∧
        ((∀ credit ∈ credits, credit.channel = i → ¬ credit.frees) → c'.state = c.state)) ∧
      (∀ i, (∀ credit ∈ credits, credit.channel ≠ i) → q.channels[i]? = p.channels[i]?) ∧
      q.counts = ⟨p.counts.forwardedFlits, p.counts.receivedCredits + credits.length,
        p.counts.freeSignals + credits.countP (·.frees)⟩ ∧
      q.egress = p.egress ∧ q.credits = p.credits ∧
      q.index = p.index ∧ q.direction = p.direction ∧ q.poolSize = p.poolSize := by
  have credited := p.credited_creditedBy credits
  refine ⟨p.creditedBy credits, fun order perm => ?_, credited.length, credited.channel, credited.unnamed,
    credited.counts, credited.egress, credited.credits, credited.index, credited.direction, credited.poolSize⟩
  have listed : ∀ credit ∈ order, credit.channel < p.channels.length :=
    fun credit member => known credit (perm.mem_iff.mp member)
  rw [foldlM_applyCredit listed, creditedBy_perm perm]

theorem credits_of_two_channels_in_any_order :
    let held : Channel := ⟨0, 2, 1, by decide, .active⟩
    let empty : Channel := ⟨1, 2, 0, by decide, .active⟩
    let p : Port := { idle 0 .localPort 1 2 2 with channels := [held, empty] }
    let credits : List Credit := [⟨0, false⟩, ⟨1, true⟩, ⟨0, false⟩]
    (∀ credit ∈ credits, credit.channel < p.channels.length) ∧
    ∃ q : Port, (∀ order : List Credit, order.Perm credits → order.foldlM applyCredit p = .ok q) ∧
      (∃ c : Channel, q.channels[0]? = some c ∧ c.credits = 2 ∧ c.state = .active) ∧
      (∃ c : Channel, q.channels[1]? = some c ∧ c.credits = 1 ∧ c.state = .idle) ∧
      q.counts = ⟨0, 3, 1⟩ := by
  intro held empty p credits
  have known : ∀ credit ∈ credits, credit.channel < p.channels.length := by decide
  rcases credits_in_any_order known with ⟨q, same, _, channels, _, counts, _⟩
  rcases channels 0 held rfl with ⟨c, found, _, _, credited, _, kept⟩
  rcases channels 1 empty rfl with ⟨d, found', _, _, credited', freed, _⟩
  exact ⟨known, q, same, ⟨c, found, credited, kept (by decide)⟩, ⟨d, found', credited', freed (by decide)⟩, counts⟩

end Port

end Interconnect
