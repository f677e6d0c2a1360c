import Mathlib
import Interconnect.Proofs.Port.Credits
import Interconnect.Proofs.Port.Punctuality
import Interconnect.Proofs.Router.Watch

namespace Interconnect

open Config (Value)

namespace Watch

def timetable (w : Watch) (outport : Nat) : Port.Timetable where
  cycle := w.queue.cycle
  size := w.queue.size
  wakeups := w.queue.wakeups w.answered outport
  applied := creditsAt w.applied outport
  delivered := creditsAt w.delivered outport

structure Sound (w : Watch) : Prop where
  spare : 2 ≤ w.queue.size
  current : w.queue.current < w.queue.size
  numbered : ∀ i (p : Port), w.router.ports[i]? = some p → p.index = i
  punctual : ∀ i (p : Port), w.router.ports[i]? = some p → p.OnTime (w.timetable i)
  addressed : ∀ delay < w.queue.size, ∀ event ∈ w.queue.due .first delay,
    ∃ outport < w.router.ports.length, event = .creditWakeup outport
  answered : w.answered ≤ (w.queue.due .first 0).length
  closed : w.closed = true → w.answered = (w.queue.due .first 0).length
  sorted : w.applied.Pairwise fun a b => a.cycle ≤ b.cycle
  past : ∀ e ∈ w.applied, e.cycle ≤ w.queue.cycle

variable {w : Watch} {r : Router}

theorem Sound.room (sound : w.Sound) : 0 < w.queue.size := Nat.zero_lt_of_lt sound.current

theorem start_sound {v : Value} {place size : Nat} (built : Router.ofValue place v = .ok r) (spare : 2 ≤ size) :
    (start r size).Sound := by
  obtain ⟨poolSize, depth, directions, _, _, _, ⟨_, ports⟩, _⟩ := Router.ofValue_eq_ok built
  have idle : ∀ i p, r.ports[i]? = some p → ∃ direction, p = Port.idle i direction r.vnets poolSize depth := by
    intro i p present
    rw [ports, List.getElem?_map, List.getElem?_zipIdx] at present
    obtain ⟨⟨direction, j⟩, listed, rfl⟩ := Option.map_eq_some_iff.mp present
    obtain ⟨_, _, same⟩ := Option.map_eq_some_iff.mp listed
    cases same
    exact ⟨_, by rw [Nat.zero_add]⟩
  have roomy : (start r size).queue.size = size := List.length_replicate
  constructor
  case spare => rwa [roomy]
  case current =>
    rw [roomy]
    exact Nat.lt_of_lt_of_le Nat.zero_lt_two spare
  case numbered =>
    intro i p present
    obtain ⟨_, rfl⟩ := idle i p present
    rfl
  case punctual =>
    intro i p present
    obtain ⟨_, rfl⟩ := idle i p present
    exact .unused rfl ⟨rfl, rfl⟩
  case addressed =>
    intro delay _ event member
    change event ∈ (CalendarQueue.empty size).due .first delay at member
    rw [CalendarQueue.due_empty] at member
    cases member
  case answered => exact Nat.zero_le _
  case closed => exact nofun
  case sorted => exact .nil
  case past => exact nofun

theorem Sound.update (sound : w.Sound) (next : Watch) (delivered applied : List CreditEntry) {outport : Nat}
    {p q : Port} {requests : List Request} (present : w.router.ports[outport]? = some p)
    (router : next.router = w.router.setPort outport q) (enters : w.queue.Enters requests next.queue)
    (deliveries : next.delivered = w.delivered ++ delivered) (there : ∀ e ∈ delivered, e.outport = outport)
    (applications : next.applied = w.applied ++ applied)
    (now : ∀ e ∈ applied, e.outport = outport ∧ e.cycle = w.queue.cycle) (numbered : q.index = outport)
    (punctual : q.OnTime { w.timetable outport with
      wakeups := next.queue.wakeups next.answered outport
      applied := creditsAt w.applied outport ++ creditsAt applied outport
      delivered := creditsAt w.delivered outport ++ creditsAt delivered outport })
    (others : ∀ i, outport ≠ i → ∀ delay < w.queue.size,
      w.queue.wakeups w.answered i delay ≤ next.queue.wakeups next.answered i delay)
    (addressed : ∀ request ∈ requests, request.event = .creditWakeup outport)
    (answered : next.answered ≤ (w.queue.due .first 0).length)
    (closed : next.closed = true → next.answered = (next.queue.due .first 0).length) : next.Sound := by
  have length : next.router.ports.length = w.router.ports.length := by
    rw [router]
    exact List.length_set
  constructor
  case spare => rw [enters.size]; exact sound.spare
  case current => rw [enters.size, enters.current]; exact sound.current
  case numbered =>
    intro i u found
    rw [router] at found
    rcases Router.ports_setPort found with ⟨rfl, rfl⟩ | ⟨_, found⟩
    · exact numbered
    · exact sound.numbered i u found
  case punctual =>
    intro i u found
    rw [router] at found
    rw [timetable, enters.size, enters.cycle, deliveries, applications, creditsAt_append, creditsAt_append]
    rcases Router.ports_setPort found with ⟨rfl, rfl⟩ | ⟨other, found⟩
    · exact punctual
    · rw [creditsAt_foreign fun e member => (there e member).trans_ne other,
        creditsAt_foreign fun e member => (now e member).1.trans_ne other, List.append_nil, List.append_nil]
      exact (sound.punctual i u found).same_link rfl rfl (others i other)
  case addressed =>
    intro delay short event member
    rw [length]
    rw [enters.size] at short
    rw [enters.due .first delay short] at member
    rcases List.mem_append.mp member with old | new
    · exact sound.addressed delay short event old
    · obtain ⟨request, listed, rfl⟩ := List.mem_map.mp new
      exact ⟨outport, (List.getElem?_eq_some_iff.mp present).1, addressed request (List.mem_filter.mp listed).1⟩
  case answered =>
    rw [enters.due .first 0 sound.room, List.length_append]
    exact Nat.le_add_right_of_le answered
  case closed => exact closed
  case sorted =>
    rw [applications]
    refine List.pairwise_append.mpr ⟨sound.sorted, ?_, fun e old e' new => ?_⟩
    · exact List.pairwise_of_forall_mem_list fun e member e' member' => by
        rw [(now e member).2, (now e' member').2]
    · rw [(now e' new).2]
      exact sound.past e old
  case past =>
    intro e member
    rw [enters.cycle]
    rw [applications] at member
    rcases List.mem_append.mp member with old | new
    · exact sound.past e old
    · exact Nat.le_of_eq (now e new).2

theorem Sound.deliver (sound : w.Sound) {outport delay : Nat} {credit : Credit}
    (admits : w.Admits (.deliver outport credit delay)) :
    ∃ next, w.perform (.deliver outport credit delay) = .ok next ∧ next.Sound := by
  obtain ⟨⟨p, present, known⟩, short, before⟩ := admits
  have index := sound.numbered outport p present
  let q := (p.deliverCredit credit w.queue.cycle delay).2
  have early : (p.wakeupAfter delay).delay < w.queue.size := short
  obtain ⟨queue, entered, enters⟩ := CalendarQueue.exists_enqueue early
  have wakeups : ∀ i, ∀ later < w.queue.size, queue.wakeups w.answered i later = w.queue.wakeups w.answered i later +
      if outport = i ∧ later = delay then 1 else 0 := by
    intro i later near
    rw [CalendarQueue.wakeups_enters enters sound.answered near]
    by_cases here : later = delay
    · simp [Port.wakeupAfter, index, here, List.count_singleton]
    · simp [Port.wakeupAfter, here]
  let entry : CreditEntry := ⟨outport, w.queue.cycle + delay, credit⟩
  let next : Watch := ⟨⟨w.router.setPort outport q, queue⟩, w.answered, w.closed, w.delivered ++ [entry], w.applied⟩
  refine ⟨next, ?_, ?_⟩
  · exact bind_eq_ok.mpr ⟨_, bind_eq_ok.mpr ⟨_, bind_eq_ok.mpr ⟨p, orBreach_eq_ok.mpr present, rfl⟩,
      bind_eq_ok.mpr ⟨_, bind_eq_ok.mpr ⟨_, entered, rfl⟩, rfl⟩⟩, rfl⟩
  · apply sound.update next [entry] [] (q := q) present rfl enters rfl (by simp [entry]) (List.append_nil _).symm
      nofun index
    case punctual =>
      rw [creditsAt_own, creditsAt_nil, List.append_nil]
      refine (sound.punctual outport p present).deliver known short fun later near => ?_
      have added := wakeups outport later near
      simp only [true_and] at added
      exact Nat.le_of_eq added.symm
    case others =>
      intro i other later near
      change _ ≤ queue.wakeups w.answered i later
      rw [wakeups i later near]
      exact Nat.le_add_right _ _
    case addressed =>
      intro request member
      rw [List.mem_singleton.mp member, Port.wakeupAfter, index]
    case answered => exact sound.answered
    case closed =>
      intro closed
      have later : delay ≠ 0 := fun now => absurd (before now) (by rw [closed]; decide)
      change w.answered = (queue.due .first 0).length
      rw [enters.due .first 0 sound.room, sound.closed closed]
      simp [Port.wakeupAfter, later.symm]

/-- What the record of applied credits gains in a cycle are credits that the ports take off their links and that make
of them what credits make of a port. -/
def Applies (w next : Watch) : Prop :=
  ∃ entries, next.applied = w.applied ++ entries ∧ (∀ e ∈ entries, e.cycle = w.queue.cycle) ∧
    ∀ (i : Nat) (p : Port), w.router.ports[i]? = some p → ∃ q, next.router.ports[i]? = some q ∧
      p.credits.pending = creditsAt entries i ++ q.credits.pending ∧
      { p with credits := q.credits }.Credited ((creditsAt entries i).map Prod.snd) q

theorem applies_setPort {next : Watch} {outport : Nat} {p q : Port} {entries : List CreditEntry}
    (present : w.router.ports[outport]? = some p) (router : next.router = w.router.setPort outport q)
    (record : next.applied = w.applied ++ entries)
    (there : ∀ e ∈ entries, e.outport = outport ∧ e.cycle = w.queue.cycle)
    (taken : p.credits.pending = creditsAt entries outport ++ q.credits.pending)
    (credited : { p with credits := q.credits }.creditedBy ((creditsAt entries outport).map Prod.snd) = q) :
    w.Applies next := by
  refine ⟨entries, record, fun e member => (there e member).2, fun i u found => ?_⟩
  rw [router]
  by_cases here : outport = i
  · subst here
    rw [present] at found
    cases found
    refine ⟨q, List.getElem?_set_self (List.getElem?_eq_some_iff.mp present).1, taken, ?_⟩
    have effect := Port.credited_creditedBy { p with credits := q.credits } ((creditsAt entries outport).map Prod.snd)
    rwa [credited] at effect
  · rw [creditsAt_foreign fun e member => (there e member).1.trans_ne here]
    have effect := u.credited_creditedBy []
    rw [Port.creditedBy_nil] at effect
    exact ⟨u, (List.getElem?_set_ne here).trans found, rfl, effect⟩

theorem Sound.answer_none (sound : w.Sound) (none : (w.queue.due .first 0)[w.answered]? = none) :
    w.perform .answer = .ok { w with closed := true } ∧ ({ w with closed := true } : Watch).Sound := by
  constructor
  · refine bind_eq_ok.mpr ⟨_, CalendarQueue.events_eq sound.current .first, ?_⟩
    rw [none]
    rfl
  · have last := Nat.le_antisymm sound.answered (List.getElem?_eq_none_iff.mp none)
    exact { sound with closed := fun _ => last }

theorem Sound.exists_wakeup (sound : w.Sound) {outport : Nat} {p : Port} (present : w.router.ports[outport]? = some p) :
    ∃ requests q queue,
      w.scheduled.wake (.creditWakeup outport) =
        .ok (⟨.creditWakeup outport, requests⟩, ⟨w.router.setPort outport q, queue⟩) ∧
      w.queue.Enters requests queue ∧ (∀ request ∈ requests, request = p.wakeupAfter 1) ∧
      ((p.credits.consume w.queue.cycle).1 = none ∧ q = p ∨
        ∃ credit rest c, p.credits.consume w.queue.cycle = (some credit, rest) ∧
          p.channels[credit.channel]? = some c ∧ q = { p with credits := rest }.credited credit c) := by
  have woken : ∃ requests q, p.wakeup w.queue.cycle = .ok (requests, q) ∧
      ∀ request ∈ requests, request = p.wakeupAfter 1 := by
    rcases consumed : p.credits.consume w.queue.cycle with ⟨_ | credit, rest⟩
    · exact ⟨[], p, Port.wakeup_none (by rw [consumed]), nofun⟩
    · obtain ⟨_, c, found⟩ := (sound.punctual outport p present).consumed_now consumed
      refine ⟨_, _, Port.wakeup_some consumed found, fun request member => ?_⟩
      split at member
      · exact List.mem_singleton.mp member
      · cases member
  obtain ⟨requests, q, woken, asked⟩ := woken
  have short : ∀ request ∈ requests, request.delay < w.queue.size := by
    intro request member
    rw [asked request member]
    exact sound.spare
  obtain ⟨queue, scheduled, enters⟩ := ScheduledRouter.schedule_all
    (s := { w.scheduled with router := w.router.setPort outport q }) short
  refine ⟨requests, q, queue, ?_, enters, asked, Port.wakeup_ok woken⟩
  have processed : w.router.process (.creditWakeup outport) w.queue.cycle =
      .ok (requests, w.router.setPort outport q) :=
    bind_eq_ok.mpr ⟨p, orBreach_eq_ok.mpr present, bind_eq_ok.mpr ⟨_, woken, rfl⟩⟩
  exact bind_eq_ok.mpr ⟨_, processed, bind_eq_ok.mpr ⟨_, scheduled, rfl⟩⟩

def woken (w : Watch) (outport : Nat) (q : Port) (queue : CalendarQueue) (entries : List CreditEntry) : Watch :=
  { w with
    scheduled := ⟨w.router.setPort outport q, queue⟩
    answered := w.answered + 1
    applied := w.applied ++ entries }

theorem Sound.woken (sound : w.Sound) {outport : Nat} {p q : Port} {requests : List Request} {queue : CalendarQueue}
    {entries : List CreditEntry} (found : (w.queue.due .first 0)[w.answered]? = some (.creditWakeup outport))
    (present : w.router.ports[outport]? = some p) (enters : w.queue.Enters requests queue)
    (asked : ∀ request ∈ requests, request = p.wakeupAfter 1) (index : q.index = p.index)
    (now : ∀ e ∈ entries, e.outport = outport ∧ e.cycle = w.queue.cycle)
    (punctual : q.OnTime { w.timetable outport with
      wakeups := queue.wakeups (w.answered + 1) outport
      applied := creditsAt w.applied outport ++ creditsAt entries outport }) :
    (w.woken outport q queue entries).Sound := by
  have numbered := sound.numbered outport p present
  have inside : w.answered < (w.queue.due .first 0).length := (List.getElem?_eq_some_iff.mp found).1
  apply sound.update (w.woken outport q queue entries) [] entries present rfl enters (List.append_nil _).symm nofun rfl
    now (index.trans numbered)
  case punctual =>
    rw [creditsAt_nil, List.append_nil]
    exact punctual
  case others =>
    intro i other later near
    have left := CalendarQueue.wakeups_answered found enters near i
    rwa [if_neg fun same => other same.2] at left
  case addressed =>
    intro request member
    rw [asked request member, Port.wakeupAfter, numbered]
  case answered => exact inside
  case closed =>
    intro closed
    have last := sound.closed closed
    omega

structure Answers (w : Watch) (event : Event) (next : Watch) : Prop where
  woken : ∃ wakeup, w.scheduled.wake event = .ok (wakeup, next.scheduled)
  answered : next.answered = w.answered + 1
  due : next.queue.due .first 0 = w.queue.due .first 0

theorem Sound.answer_some (sound : w.Sound) {outport : Nat} {p : Port}
    (found : (w.queue.due .first 0)[w.answered]? = some (.creditWakeup outport))
    (present : w.router.ports[outport]? = some p) :
    ∃ next, w.perform .answer = .ok next ∧ w.Answers (.creditWakeup outport) next ∧ next.Sound ∧ w.Applies next := by
  obtain ⟨requests, q, queue, woken, enters, asked, done⟩ := sound.exists_wakeup present
  have performed : w.perform .answer =
      .ok (w.woken outport q queue (w.taken (.creditWakeup outport)).toList) := by
    refine bind_eq_ok.mpr ⟨_, CalendarQueue.events_eq sound.current .first, ?_⟩
    rw [found]
    exact bind_eq_ok.mpr ⟨_, woken, rfl⟩
  have due : queue.due .first 0 = w.queue.due .first 0 := by
    have later : requests.filter (fun r => 0 = r.delay ∧ .first = r.phase) = [] := by
      apply List.filter_eq_nil_iff.mpr
      intro request member
      rw [asked request member]
      exact Bool.false_ne_true
    rw [enters.due .first 0 sound.room, later]
    exact List.append_nil _
  refine ⟨_, performed, ⟨⟨_, woken⟩, rfl, due⟩, ?_⟩
  have punctual := sound.punctual outport p present
  have enough : ∀ later < w.queue.size, w.queue.wakeups w.answered outport later ≤
      queue.wakeups (w.answered + 1) outport later + if later = 0 then 1 else 0 := by
    intro later near
    simpa using CalendarQueue.wakeups_answered found enters near outport
  rcases done with ⟨nothing, rfl⟩ | ⟨credit, rest, c, consumed, at_channel, same⟩
  · have taken : w.taken (.creditWakeup outport) = none := by simp [Watch.taken, present, nothing]
    rw [taken]
    refine ⟨sound.woken found present enters asked rfl (fun _ member => nomatch member) ?_, ?_⟩
    · rw [Option.toList_none, creditsAt_nil, List.append_nil]
      exact punctual.miss nothing enough
    · exact applies_setPort present rfl rfl (fun _ member => nomatch member) rfl (Port.creditedBy_nil q)
  · have taken : w.taken (.creditWakeup outport) = some ⟨outport, w.queue.cycle, credit⟩ := by
      simp [Watch.taken, present, consumed]
    have link : q.credits = rest := by rw [same]; rfl
    have length : q.channels.length = p.channels.length := by rw [same]; exact List.length_set
    have credited : { p with credits := q.credits }.creditedBy [credit] = q := by
      rw [link, Port.creditedBy_cons (p := { p with credits := rest }) at_channel, Port.creditedBy_nil, same]
    rw [taken, Option.toList_some]
    refine ⟨sound.woken found present enters asked (by rw [same]; rfl) (by simp) ?_, ?_⟩
    · rw [creditsAt_own]
      exact punctual.take consumed link length enough
    · apply applies_setPort present rfl rfl (by simp)
      · rw [creditsAt_own, link]
        exact (punctual.consumed_now consumed).1
      · rw [creditsAt_own]
        exact credited

theorem Sound.answer (sound : w.Sound) : ∃ next, w.perform .answer = .ok next ∧ next.Sound ∧ w.Applies next := by
  cases found : (w.queue.due .first 0)[w.answered]? with
  | none =>
    obtain ⟨performed, closed⟩ := sound.answer_none found
    refine ⟨_, performed, closed, [], (List.append_nil _).symm, nofun, fun i p present => ⟨p, present, rfl, ?_⟩⟩
    have effect := p.credited_creditedBy []
    rwa [Port.creditedBy_nil] at effect
  | some event =>
    obtain ⟨outport, inside, rfl⟩ := sound.addressed 0 sound.room event (List.mem_of_getElem? found)
    obtain ⟨next, performed, _, kept⟩ := sound.answer_some found (List.getElem?_eq_getElem inside)
    exact ⟨next, performed, kept⟩

/-- Answers one after another are the first phase of a cycle: what is asked for meanwhile is due in the next. -/
theorem Sound.wakeAll_eq_answers (sound : w.Sound) {left : Nat}
    (remain : w.answered + left = (w.queue.due .first 0).length) :
    ∃ wakeups, ScheduledRouter.wakeAll ((w.queue.due .first 0).drop w.answered) w.scheduled =
      .ok (wakeups, (w.run (List.replicate left .answer)).scheduled) := by
  induction left generalizing w with
  | zero =>
    have none : (w.queue.due .first 0).length ≤ w.answered := by omega
    rw [List.drop_eq_nil_of_le none]
    exact ⟨[], rfl⟩
  | succ left ih =>
    have inside : w.answered < (w.queue.due .first 0).length := by omega
    have found := List.getElem?_eq_getElem inside
    obtain ⟨outport, present, same⟩ := sound.addressed 0 sound.room _ (List.getElem_mem inside)
    rw [same] at found
    obtain ⟨next, performed, answers, kept, _⟩ := sound.answer_some found (List.getElem?_eq_getElem present)
    obtain ⟨wakeup, woken⟩ := answers.woken
    obtain ⟨wakeups, others⟩ := ih kept (by rw [answers.answered, answers.due]; omega)
    have stepped : w.step .answer = next := by rw [Watch.step, performed]
    rw [answers.answered, answers.due] at others
    rw [List.drop_eq_getElem_cons inside, same, List.replicate_succ]
    refine ⟨wakeup :: wakeups, bind_eq_ok.mpr ⟨_, woken, bind_eq_ok.mpr ⟨_, others, ?_⟩⟩⟩
    rw [Watch.run, Watch.run, List.foldl_cons, stepped]
    rfl

theorem Sound.operate (sound : w.Sound) {operation : Router.Operation} {next : Watch} (off : ¬ operation.OnLink)
    (performed : w.perform (.operate operation) = .ok next) : next.Sound := by
  obtain ⟨r, operated, same⟩ := bind_eq_ok.mp performed
  cases same
  obtain ⟨length, links⟩ := Router.operate_sameLink operated off
  refine { sound with numbered := ?_, punctual := ?_, addressed := ?_ }
  · intro i q found
    obtain ⟨p, present, same⟩ := links i q found
    exact same.index.trans (sound.numbered i p present)
  · intro i q found
    obtain ⟨p, present, same⟩ := links i q found
    exact (sound.punctual i p present).same_link same.credits same.channels fun _ _ => Nat.le_refl _
  · intro delay short event member
    obtain ⟨outport, inside, same⟩ := sound.addressed delay short event member
    exact ⟨outport, length ▸ inside, same⟩

theorem Sound.schedule (sound : w.Sound) {request : Request} (admits : w.Admits (.schedule request)) :
    ∃ next, w.perform (.schedule request) = .ok next ∧ next.Sound := by
  obtain ⟨second, short⟩ := admits
  obtain ⟨queue, entered, enters⟩ := CalendarQueue.exists_enqueue short
  have due : ∀ delay < w.queue.size, queue.due .first delay = w.queue.due .first delay := by
    intro delay near
    rw [enters.due .first delay near]
    simp [second]
  refine ⟨{ w with scheduled := { w.scheduled with queue } },
    bind_eq_ok.mpr ⟨_, bind_eq_ok.mpr ⟨_, entered, rfl⟩, rfl⟩, ?_⟩
  constructor
  case spare => exact sound.spare.trans_eq enters.size.symm
  case current =>
    change queue.current < queue.size
    rw [enters.current, enters.size]
    exact sound.current
  case numbered => exact sound.numbered
  case punctual =>
    intro i p present
    change p.OnTime
      ⟨queue.cycle, queue.size, queue.wakeups w.answered i, creditsAt w.applied i, creditsAt w.delivered i⟩
    rw [enters.cycle, enters.size]
    refine (sound.punctual i p present).same_link rfl rfl fun delay near => ?_
    rw [CalendarQueue.wakeups_enters enters sound.answered near]
    exact Nat.le_add_right _ _
  case addressed =>
    intro delay near event member
    change delay < queue.size at near
    change event ∈ queue.due .first delay at member
    rw [enters.size] at near
    rw [due delay near] at member
    exact sound.addressed delay near event member
  case answered =>
    change w.answered ≤ (queue.due .first 0).length
    rw [due 0 sound.room]
    exact sound.answered
  case closed =>
    change w.closed = true → w.answered = (queue.due .first 0).length
    rw [due 0 sound.room]
    exact sound.closed
  case sorted => exact sound.sorted
  case past =>
    change ∀ e ∈ w.applied, e.cycle ≤ queue.cycle
    rw [enters.cycle]
    exact sound.past

theorem Sound.cleared (sound : w.Sound) (closed : w.closed = true) {i : Nat} {p : Port}
    (present : w.router.ports[i]? = some p) : ∀ m ∈ p.credits.pending, w.queue.cycle < m.1 := by
  exact (sound.punctual i p present).cleared sound.room
    (CalendarQueue.wakeups_closed (Nat.le_of_eq (sound.closed closed).symm))

theorem Sound.advance (sound : w.Sound) (closed : w.closed = true) :
    ∃ next, w.perform .advance = .ok next ∧ next.Sound := by
  obtain ⟨queue, advanced, current, cycle⟩ := CalendarQueue.exists_advance sound.current
  have size := CalendarQueue.size_advance sound.current advanced
  refine ⟨{ w with scheduled := { w.scheduled with queue }, answered := 0, closed := false },
    bind_eq_ok.mpr ⟨_, advanced, rfl⟩, ?_⟩
  constructor
  case spare => exact sound.spare.trans_eq size.symm
  case current => exact current
  case numbered => exact sound.numbered
  case punctual =>
    intro i p present
    have kept := (sound.punctual i p present).advance (sound.cleared closed present) fun delay near =>
      Nat.le_of_eq (CalendarQueue.wakeups_advance sound.current advanced near w.answered).symm
    change p.OnTime ⟨queue.cycle, queue.size, queue.wakeups 0 i, creditsAt w.applied i, creditsAt w.delivered i⟩
    rw [cycle, size]
    exact kept
  case addressed =>
    intro delay near event member
    have short : delay < w.queue.size := Nat.lt_of_lt_of_eq near size
    have due := CalendarQueue.due_advance sound.current advanced .first short
    change event ∈ queue.due .first delay at member
    rw [due] at member
    split at member
    · rename_i later
      exact sound.addressed (delay + 1) later event member
    · cases member
  case answered => exact Nat.zero_le _
  case closed => exact nofun
  case sorted => exact sound.sorted
  case past =>
    change ∀ e ∈ w.applied, e.cycle ≤ queue.cycle
    rw [cycle]
    exact fun e member => Nat.le_succ_of_le (sound.past e member)

theorem Sound.progress (sound : w.Sound) {action : Action} (admits : w.Admits action)
    (driving : ∀ operation, action ≠ .operate operation) : ∃ next, w.perform action = .ok next ∧ next.Sound := by
  cases action with
  | deliver outport credit delay => exact sound.deliver admits
  | answer =>
    obtain ⟨next, performed, kept, _⟩ := sound.answer
    exact ⟨next, performed, kept⟩
  | operate operation => exact absurd rfl (driving operation)
  | schedule request => exact sound.schedule admits
  | advance => exact sound.advance admits

theorem Sound.step (sound : w.Sound) {action : Action} (admits : w.Admits action) : (w.step action).Sound := by
  unfold Watch.step
  split
  · rename_i next performed
    by_cases driving : ∀ operation, action ≠ .operate operation
    · obtain ⟨same, performs, kept⟩ := sound.progress admits driving
      rw [performed] at performs
      cases performs
      exact kept
    · push Not at driving
      obtain ⟨operation, rfl⟩ := driving
      exact sound.operate admits performed
  · exact sound

theorem Sound.run (sound : w.Sound) {actions : List Action} (admitted : w.AdmitsAll actions) :
    (w.run actions).Sound := by
  induction actions generalizing w with
  | nil => exact sound
  | cons action actions ih => exact ih (sound.step admitted.1) admitted.2

/-- Over every run of a router that is driven cycle by cycle, no credit stays behind. What is done for the credits is
never refused. What was applied at a port and what is still under way to it make up what was delivered to it, in order
of arrival and then of delivery. Once the first phase of a cycle is closed, the credits that arrive in a cycle up to it
are exactly those that were applied in that cycle. -/
theorem credits_applied_on_arrival {v : Value} {place size : Nat} {actions : List Action}
    (built : Router.ofValue place v = .ok r) (spare : 2 ≤ size) (admitted : (start r size).AdmitsAll actions) :
    let w := (start r size).run actions
    (∀ action, w.Admits action → (∀ operation, action ≠ .operate operation) → ∃ next, w.perform action = .ok next) ∧
    (∀ next, w.perform .answer = .ok next → w.Applies next) ∧
    (w.applied.Pairwise fun a b => a.cycle ≤ b.cycle) ∧
    ∀ (i : Nat) (p : Port), w.router.ports[i]? = some p →
      InOrder (creditsAt w.applied i ++ p.credits.pending) (creditsAt w.delivered i) ∧
      (w.closed = true → (∀ m ∈ p.credits.pending, w.queue.cycle < m.1) ∧
        ∀ arrival ≤ w.queue.cycle,
          (creditsAt w.applied i).filter (·.1 = arrival) = (creditsAt w.delivered i).filter (·.1 = arrival)) := by
  intro w
  have sound : w.Sound := (start_sound built spare).run admitted
  refine ⟨fun action admits driving => ?_, fun next performed => ?_, sound.sorted, fun i p present => ?_⟩
  · obtain ⟨next, performed, _⟩ := sound.progress admits driving
    exact ⟨next, performed⟩
  · obtain ⟨same, performs, _, applies⟩ := sound.answer
    rw [performed] at performs
    cases performs
    exact applies
  · have record : InOrder (creditsAt w.applied i ++ p.credits.pending) (creditsAt w.delivered i) :=
      (sound.punctual i p present).record
    refine ⟨record, fun closed => ⟨sound.cleared closed present, fun arrival arrived => ?_⟩⟩
    have none : p.credits.pending.filter (·.1 = arrival) = [] := by
      apply List.filter_eq_nil_iff.mpr
      intro m member
      have later := sound.cleared closed present m member
      simp only [decide_eq_true_eq]
      omega
    have stable := record.stable arrival
    rwa [List.filter_append, none, List.append_nil] at stable

def threeCredits : List Action :=
  [.operate (.atPort 0 (.act (.select 0 .any))), .operate (.atPort 0 (.spendCredit 0)), .deliver 0 ⟨0, false⟩ 1,
    .deliver 0 ⟨0, true⟩ 1, .answer, .advance, .answer, .deliver 0 ⟨0, false⟩ 0, .answer, .answer, .answer]

theorem threeCredits_applied_on_arrival :
    (∃ v, Router.ofValue 0 v = .ok Router.oneChannel) ∧ (start Router.oneChannel 2).AdmitsAll threeCredits ∧
      (creditsAt ((start Router.oneChannel 2).run threeCredits).applied 0).filter (·.1 = 1) =
        [(1, ⟨0, false⟩), (1, ⟨0, true⟩), (1, ⟨0, false⟩)] ∧
      ((start Router.oneChannel 2).run (threeCredits.take 6)).router.ports.map
          (fun p => (p.channels.map fun c => (c.credits, c.state), p.counts)) = [([(0, .active)], ⟨0, 0, 0⟩)] ∧
      ((start Router.oneChannel 2).run threeCredits).router.ports.map
          (fun p => (p.channels.map fun c => (c.credits, c.state), p.counts)) = [([(1, .idle)], ⟨0, 3, 1⟩)] := by
  have admitted : (start Router.oneChannel 2).AdmitsAll threeCredits :=
    ⟨id, id, ⟨⟨_, rfl, by decide⟩, by decide, nofun⟩, ⟨⟨_, rfl, by decide⟩, by decide, nofun⟩, trivial, rfl, trivial,
      ⟨⟨_, rfl, by decide⟩, by decide, fun _ => rfl⟩, trivial, trivial, trivial, trivial⟩
  obtain ⟨v, built⟩ := Router.oneChannel_built
  obtain ⟨_, _, _, ports⟩ := credits_applied_on_arrival built (by decide) admitted
  obtain ⟨_, closed⟩ := ports 0 _ rfl
  refine ⟨⟨v, built⟩, admitted, ?_, by decide +kernel, by decide +kernel⟩
  rw [(closed rfl).2 1 (by decide)]
  rfl

end Watch

end Interconnect
