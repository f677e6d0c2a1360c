import Mathlib
import Interconnect.Proofs.Port.Ownership

namespace Interconnect

theorem Span.fits_iff {s : Span} {count : Nat} : s.fits count ↔ ∀ channel ∈ s, channel < count := by
  unfold fits
  rw [decide_eq_true_iff]
  constructor
  · intro bounded channel inside
    have inside : s.start ≤ channel ∧ channel < s.stop := inside
    omega
  · intro bounded
    by_contra beyond
    have last : s.stop - 1 ∈ s := show s.start ≤ s.stop - 1 ∧ s.stop - 1 < s.stop by omega
    have below := bounded _ last
    omega

def Span.pool (vnet size : Nat) : Span := ⟨vnet * size, (vnet + 1) * size⟩

theorem Span.eq_of_mem_pool {vnet other size channel : Nat} (inside : channel ∈ pool vnet size)
    (inside' : channel ∈ pool other size) : vnet = other := by
  have place : channel / size = vnet := Nat.div_eq_of_lt_le inside.1 inside.2
  have place' : channel / size = other := Nat.div_eq_of_lt_le inside'.1 inside'.2
  exact place.symm.trans place'

namespace Port

def pool (p : Port) (vnet : Nat) : Span := ⟨vnet * p.poolSize, (vnet + 1) * p.poolSize⟩

def state? (p : Port) (channel : Nat) : Option ChannelState := p.channels[channel]?.map Channel.state

/-- The channel is open to the packet, idle or not. -/
def Opens (p : Port) (vnet : Nat) (selection : Selection) (channel : Nat) : Prop :=
  channel ∈ (selection.spans p.direction.dimension? vnet p.poolSize).1 ∨
    channel ∈ (selection.spans p.direction.dimension? vnet p.poolSize).2

/-- Two states of a port differ at most in the pools of the other virtual networks, and in what was counted, waits for
the link or is on its way back. -/
structure AgreesOn (vnet : Nat) (p q : Port) : Prop where
  direction : p.direction = q.direction
  poolSize : p.poolSize = q.poolSize
  states : ∀ channel ∈ p.pool vnet, p.state? channel = q.state? channel

variable {p q p' : Port} {vnet other channel i : Nat} {selection : Selection} {c c' new new' : Channel}

theorem eq_of_mem_pool (inside : channel ∈ p.pool vnet) (inside' : channel ∈ p.pool other) : vnet = other :=
  Span.eq_of_mem_pool inside inside'

theorem Opens.mem_pool (opened : p.Opens vnet selection channel) : channel ∈ p.pool vnet := by
  have inside := Selection.mem_of_mem_spans opened
  rw [← Nat.succ_mul] at inside
  exact inside

theorem offers_iff_state? :
    p.Offers vnet selection channel ↔ p.state? channel = some .idle ∧ p.Opens vnet selection channel := by
  rw [offers_iff, state?, Option.map_eq_some_iff]
  simp only [Channel.isIdle, beq_iff_eq, Opens, exists_and_right, ← and_assoc]

theorem isSome_state? : (p.state? channel).isSome ↔ channel < p.channels.length := by
  rw [state?, Option.isSome_map, isSome_getElem?]

theorem exists_free_iff :
    (∃ channels, p.free vnet selection = .ok channels) ↔
      (∃ opened, selection.ranges p.direction.dimension? vnet p.poolSize = .ok opened) ∧
        ∀ channel, p.Opens vnet selection channel → (p.state? channel).isSome := by
  have bounds : ∀ opened, selection.ranges p.direction.dimension? vnet p.poolSize = .ok opened →
      (opened.1.fits p.channels.length ∧ opened.2.fits p.channels.length ↔
        ∀ channel, p.Opens vnet selection channel → (p.state? channel).isSome) := by
    intro opened found
    rw [Selection.eq_spans_of_ranges found, Span.fits_iff, Span.fits_iff]
    simp only [isSome_state?, Opens, or_imp, forall_and]
  simp only [free_eq_ok]
  constructor
  · rintro ⟨channels, opened, found, fits, -⟩
    exact ⟨⟨opened, found⟩, (bounds opened found).mp fits⟩
  · rintro ⟨⟨opened, found⟩, present⟩
    exact ⟨_, opened, found, (bounds opened found).mpr present, rfl⟩

theorem free_sorted {channels : List Nat} (free : p.free vnet selection = .ok channels) :
    channels.Pairwise (· < ·) := by
  obtain ⟨opened, -, -, rfl⟩ := free_eq_ok.mp free
  have numbered : (p.channels.zipIdx.map Prod.snd).Pairwise (· < ·) := by
    rw [List.zipIdx_map_snd]
    exact List.pairwise_lt_range'
  exact numbered.sublist ((List.filter_sublist).map Prod.snd)

theorem free_eq_error {b : Breach} (failed : p.free vnet selection = .error b) :
    b = match selection.ranges p.direction.dimension? vnet p.poolSize with
      | .error overflow => overflow
      | .ok _ => .indexOutOfBounds := by
  rcases bind_eq_error.mp failed with overflow | ⟨opened, found, outside⟩
  · rw [overflow]
  · rw [found]
    dsimp only at outside
    split at outside <;> cases outside
    rfl

theorem free_error_unique {b b' : Breach} (direction : p.direction = q.direction) (poolSize : p.poolSize = q.poolSize)
    (failed : p.free vnet selection = .error b) (failed' : q.free vnet selection = .error b') : b = b' := by
  rw [free_eq_error failed, free_eq_error failed', direction, poolSize]

namespace AgreesOn

theorem refl (vnet : Nat) (p : Port) : p.AgreesOn vnet p := ⟨rfl, rfl, fun _ _ => rfl⟩

variable (agree : p.AgreesOn vnet q)
include agree

theorem opens_iff : p.Opens vnet selection channel ↔ q.Opens vnet selection channel := by
  unfold Opens
  rw [agree.direction, agree.poolSize]

theorem offers_iff : p.Offers vnet selection channel ↔ q.Offers vnet selection channel := by
  rw [offers_iff_state?, offers_iff_state?, agree.opens_iff]
  apply and_congr_left
  intro opened
  rw [agree.states channel (agree.opens_iff.mpr opened).mem_pool]

theorem free_eq (selection : Selection) : p.free vnet selection = q.free vnet selection := by
  have bounds :
      (∃ channels, p.free vnet selection = .ok channels) ↔ ∃ channels, q.free vnet selection = .ok channels := by
    rw [exists_free_iff, exists_free_iff, agree.direction, agree.poolSize]
    apply and_congr_right
    intro _
    apply forall_congr'
    intro channel
    rw [agree.opens_iff]
    apply imp_congr_right
    intro opened
    rw [agree.states channel (agree.opens_iff.mpr opened).mem_pool]
  cases found : p.free vnet selection with
  | ok channels =>
    obtain ⟨channels', found'⟩ := bounds.mp ⟨channels, found⟩
    rw [found']
    have same : ∀ channel, channel ∈ channels ↔ channel ∈ channels' := by
      intro channel
      rw [mem_free found, mem_free found', agree.offers_iff]
    rw [(free_sorted found).eq_of_mem_iff (free_sorted found') same]
  | error b =>
    cases found' : q.free vnet selection with
    | ok channels' =>
      obtain ⟨channels, present⟩ := bounds.mpr ⟨channels', found'⟩
      rw [found] at present
      cases present
    | error b' => rw [free_error_unique agree.direction agree.poolSize found found']

theorem countFree_eq (selection : Selection) : p.countFree vnet selection = q.countFree vnet selection := by
  unfold countFree
  rw [agree.free_eq]

theorem hasFree_eq (selection : Selection) : p.hasFree vnet selection = q.hasFree vnet selection := by
  unfold hasFree
  rw [agree.free_eq]

end AgreesOn

theorem selectFree_given (p : Port) (vnet : Nat) (selection : Selection) :
    Prod.fst <$> p.selectFree vnet selection = List.head? <$> p.free vnet selection := by
  unfold selectFree
  rw [map_bind]
  cases found : p.free vnet selection with
  | error b => rfl
  | ok channels =>
    cases channels with
    | nil => rfl
    | cons first others =>
      obtain ⟨c, present, -⟩ := Port.offers_iff.mp ((mem_free found).mp List.mem_cons_self)
      show Prod.fst <$> (do return (some first, ← p.setState first .active)) = pure (some first)
      rw [setState_eq present .active]
      rfl

theorem AgreesOn.given_eq (agree : p.AgreesOn vnet q) (selection : Selection) :
    Prod.fst <$> p.selectFree vnet selection = Prod.fst <$> q.selectFree vnet selection := by
  rw [selectFree_given, selectFree_given, agree.free_eq]

theorem exists_selectFree {vnets : Nat} (channels : Word.mul vnets p.poolSize = .ok p.channels.length)
    (known : vnet < vnets) (selection : Selection) : ∃ given q, p.selectFree vnet selection = .ok (given, q) := by
  obtain ⟨free, found⟩ := exists_free channels known selection
  have given := selectFree_given p vnet selection
  rw [found] at given
  obtain ⟨⟨result, q⟩, selected, -⟩ := map_eq_ok.mp given
  exact ⟨result, q, selected⟩

theorem state?_setChannel (found : p.channels[i]? = some c) (new : Channel) (channel : Nat) :
    (p.setChannel i new).state? channel = if i = channel then some new.state else p.state? channel := by
  have inside := (List.getElem?_eq_some_iff.mp found).1
  by_cases same : i = channel
  · subst same
    simp [state?, setChannel, inside]
  · simp [state?, setChannel, List.getElem?_set_ne same, same]

theorem selectFree_changes {result : Option Nat} (selected : p.selectFree vnet selection = .ok (result, q))
    (changed : q.state? channel ≠ p.state? channel) : result = some channel ∧ channel ∈ p.pool vnet := by
  rcases selectFree_ok selected with ⟨rfl, rfl⟩ | ⟨i, c, rfl, found, rfl⟩
  · exact absurd rfl changed
  · have opened := (offers_iff_state?.mp (offers_of_selectFree selected)).2
    rw [state?_setChannel found] at changed
    by_cases same : i = channel
    · subst same
      exact ⟨rfl, opened.mem_pool⟩
    · rw [if_neg same] at changed
      exact absurd rfl changed

def shareOfState (p : Port) (vnet channel : Nat) (state : ChannelState) : Option Action :=
  if channel ∈ p.pool vnet then some (.setState channel state) else none

def shareOfCredit (p : Port) (vnet : Nat) (credit : Credit) : Option Action :=
  if credit.frees then p.shareOfState vnet credit.channel .idle else none

def share (p : Port) (vnet : Nat) : Operation → Option Action
  | .act (.select other selection) => if other = vnet then some (.select vnet selection) else none
  | .act (.setState channel state) => p.shareOfState vnet channel state
  | .act (.wake cycle) => (p.credits.consume cycle).1.bind (p.shareOfCredit vnet)
  | .applyCredit credit => p.shareOfCredit vnet credit
  | _ => none

namespace AgreesOn

variable (agree : p.AgreesOn vnet p')
include agree

theorem setChannel_left (found : p.channels[i]? = some c) (kept : i ∈ p.pool vnet → new.state = c.state) :
    (p.setChannel i new).AgreesOn vnet p' := by
  refine ⟨agree.direction, agree.poolSize, fun channel inside => ?_⟩
  rw [state?_setChannel found, ← agree.states channel inside]
  split
  · rename_i same
    subst same
    rw [kept inside, state?, found]
    rfl
  · rfl

theorem setChannel (found : p.channels[i]? = some c) (found' : p'.channels[i]? = some c')
    (same : new.state = new'.state) : (p.setChannel i new).AgreesOn vnet (p'.setChannel i new') := by
  refine ⟨agree.direction, agree.poolSize, fun channel inside => ?_⟩
  rw [state?_setChannel found, state?_setChannel found', agree.states channel inside, same]

theorem exists_channel (found : p.channels[i]? = some c) (inside : i ∈ p.pool vnet) :
    ∃ c', p'.channels[i]? = some c' := by
  have states := agree.states i inside
  rw [state?, found] at states
  obtain ⟨c', found', -⟩ := Option.map_eq_some_iff.mp states.symm
  exact ⟨c', found'⟩

theorem shareOfState (found : p.channels[i]? = some c) (new : Channel) :
    ∃ q', (p.shareOfState vnet i new.state).toList.foldlM perform p' = .ok q' ∧
      (p.setChannel i new).AgreesOn vnet q' := by
  unfold Port.shareOfState
  split
  · rename_i inside
    obtain ⟨c', found'⟩ := agree.exists_channel found inside
    refine ⟨p'.setChannel i (c'.setState new.state), ?_, agree.setChannel found found' rfl⟩
    exact bind_eq_ok.mpr ⟨_, setState_eq found' new.state, rfl⟩
  · rename_i outside
    exact ⟨p', rfl, agree.setChannel_left found fun inside => absurd inside outside⟩

theorem shareOfCredit {credit : Credit} (found : p.channels[credit.channel]? = some c) :
    ∃ q', (p.shareOfCredit vnet credit).toList.foldlM perform p' = .ok q' ∧
      (p.credited credit c).AgreesOn vnet q' := by
  have setting : ∃ q', (p.shareOfCredit vnet credit).toList.foldlM perform p' = .ok q' ∧
      (p.setChannel credit.channel (c.credited credit.frees)).AgreesOn vnet q' := by
    unfold Port.shareOfCredit
    cases frees : credit.frees with
    | false => exact ⟨p', rfl, agree.setChannel_left found fun _ => c.restore_state⟩
    | true => exact agree.shareOfState found (c.credited true)
  obtain ⟨q', done, agree'⟩ := setting
  exact ⟨q', done, agree'.direction, agree'.poolSize, agree'.states⟩

theorem select {result : Option Nat} (selected : p.selectFree other selection = .ok (result, q)) :
    ∃ q', (p.share vnet (.act (.select other selection))).toList.foldlM perform p' = .ok q' ∧ q.AgreesOn vnet q' := by
  unfold share
  dsimp only
  split
  · rename_i same
    subst same
    have given := agree.given_eq selection
    rw [selected] at given
    obtain ⟨⟨result', q'⟩, selected', same⟩ := map_eq_ok.mp given.symm
    cases same
    refine ⟨q', bind_eq_ok.mpr ⟨q', bind_eq_ok.mpr ⟨_, selected', rfl⟩, rfl⟩, ?_⟩
    rcases selectFree_ok selected with ⟨rfl, rfl⟩ | ⟨i, c, rfl, found, rfl⟩
    · rcases selectFree_ok selected' with ⟨-, rfl⟩ | ⟨i', c', absent, -⟩
      · exact agree
      · cases absent
    · rcases selectFree_ok selected' with ⟨absent, -⟩ | ⟨i', c', same, found', rfl⟩
      · cases absent
      · cases same
        exact agree.setChannel found found' rfl
  · rename_i foreign
    refine ⟨p', rfl, ?_⟩
    rcases selectFree_ok selected with ⟨-, rfl⟩ | ⟨i, c, rfl, found, rfl⟩
    · exact agree
    · have opened := (offers_iff_state?.mp (offers_of_selectFree selected)).2
      apply agree.setChannel_left found
      intro inside
      exact absurd (eq_of_mem_pool opened.mem_pool inside) foreign

theorem operate {operation : Operation} (done : p.operate operation = .ok q) :
    ∃ q', (p.share vnet operation).toList.foldlM perform p' = .ok q' ∧ q.AgreesOn vnet q' := by
  cases operation with
  | act action =>
    cases action with
    | send traffic flit =>
      obtain ⟨⟨request, sent⟩, sending, same⟩ := bind_eq_ok.mp done
      cases same
      refine ⟨p', rfl, ?_⟩
      rcases sendFlit_ok sending with rfl | ⟨i, c, found, rfl⟩
      · exact ⟨agree.direction, agree.poolSize, agree.states⟩
      · have agree : (p.setChannel i c.spent).AgreesOn vnet p' := agree.setChannel_left found fun _ => rfl
        exact ⟨agree.direction, agree.poolSize, agree.states⟩
    | deliver credit cycle delay =>
      cases done
      exact ⟨p', rfl, agree.direction, agree.poolSize, agree.states⟩
    | wake cycle =>
      obtain ⟨⟨requests, woken⟩, waking, same⟩ := bind_eq_ok.mp done
      cases same
      unfold share
      dsimp only
      rcases wakeup_ok waking with ⟨nothing, rfl⟩ | ⟨credit, rest, c, consumed, found, rfl⟩
      · rw [nothing]
        exact ⟨p', rfl, agree⟩
      · rw [consumed]
        have taken : { p with credits := rest }.AgreesOn vnet p' := ⟨agree.direction, agree.poolSize, agree.states⟩
        exact taken.shareOfCredit found
    | select other selection =>
      obtain ⟨⟨result, selected⟩, selecting, same⟩ := bind_eq_ok.mp done
      cases same
      exact agree.select selecting
    | setState i state =>
      obtain ⟨c, found, rfl⟩ := setState_ok done
      exact agree.shareOfState found (c.setState state)
    | pop =>
      cases done
      refine ⟨p', rfl, ?_⟩
      unfold popFlit
      split <;> exact ⟨agree.direction, agree.poolSize, agree.states⟩
  | applyCredit credit =>
    obtain ⟨c, found, rfl⟩ := applyCredit_ok done
    exact agree.shareOfCredit found
  | restoreCredit i =>
    obtain ⟨c, found, rfl⟩ := restoreCredit_ok done
    exact ⟨p', rfl, agree.setChannel_left found fun _ => c.restore_state⟩
  | spendCredit i =>
    obtain ⟨c, found, rfl⟩ := spendCredit_ok done
    exact ⟨p', rfl, agree.setChannel_left found fun _ => rfl⟩
  | pushFlit flit =>
    cases done
    exact ⟨p', rfl, agree.direction, agree.poolSize, agree.states⟩
  | resetCounts =>
    cases done
    exact ⟨p', rfl, agree.direction, agree.poolSize, agree.states⟩

end AgreesOn

theorem share_eq_none {operation : Operation} {action : Action} (owned : p.share other operation = some action)
    (foreign : other ≠ vnet) : p.share vnet operation = none := by
  have of_state {channel : Nat} {state : ChannelState} (owned : p.shareOfState other channel state = some action) :
      p.shareOfState vnet channel state = none := by
    unfold shareOfState at owned ⊢
    split at owned
    · rename_i inside
      exact if_neg fun inside' => foreign (eq_of_mem_pool inside inside')
    · cases owned
  have of_credit {credit : Credit} (owned : p.shareOfCredit other credit = some action) :
      p.shareOfCredit vnet credit = none := by
    unfold shareOfCredit at owned ⊢
    split at owned
    · rename_i frees
      rw [if_pos frees]
      exact of_state owned
    · cases owned
  cases operation with
  | act action =>
    cases action with
    | select vnet' selection =>
      unfold share at owned ⊢
      dsimp only at owned ⊢
      split at owned
      · rename_i same
        exact if_neg fun same' => foreign (same.symm.trans same')
      · cases owned
    | setState channel state => exact of_state owned
    | wake cycle =>
      unfold share at owned ⊢
      obtain ⟨credit, consumed, owned⟩ := Option.bind_eq_some_iff.mp owned
      dsimp only
      rw [consumed]
      exact of_credit owned
    | _ => cases owned
  | applyCredit credit => exact of_credit owned
  | _ => cases owned

end Port

end Interconnect
