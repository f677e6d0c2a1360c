import Mathlib
import Interconnect.Port.Basic

namespace Interconnect

/-- The second traffic is the first one with the data of the messages at some places overwritten. -/
structure Traffic.Overwritten (t t' : Traffic) (data : List UInt8) (chosen : Nat → Prop) : Prop where
  packets : t'.packets = t.packets
  flits : t'.flits = t.flits
  length : t'.messages.length = t.messages.length
  written : ∀ i m, t.messages[i]? = some m → chosen i → t'.messages[i]? = some { m with data }
  kept : ∀ i m, t.messages[i]? = some m → ¬ chosen i → t'.messages[i]? = some m

namespace Traffic

variable {t t' t'' : Traffic} {flit i : Nat} {data : List UInt8} {chosen chosen' : Nat → Prop} {m : Message}

def place? (t : Traffic) (flit : Nat) : Option Nat := (t.packetOf? flit).map Packet.message

theorem message?_eq (t : Traffic) (flit : Nat) : t.message? flit = (t.place? flit).bind (t.messages[·]?) := by
  unfold message? place?
  cases t.packetOf? flit <;> rfl

def about (t : Traffic) (address : Nat) (flits : List Nat) : List Nat :=
  flits.filter fun flit => t.address? flit == some address

theorem address?_eq (t : Traffic) (flit : Nat) : t.address? flit = (t.message? flit).bind Message.address := rfl

namespace Overwritten

theorem refl (t : Traffic) (data : List UInt8) : t.Overwritten t data fun _ => False where
  packets := rfl
  flits := rfl
  length := rfl
  written := nofun
  kept := fun _ _ found _ => found

theorem congr (overwritten : t.Overwritten t' data chosen)
    (same : ∀ i m, t.messages[i]? = some m → (chosen i ↔ chosen' i)) : t.Overwritten t' data chosen' where
  packets := overwritten.packets
  flits := overwritten.flits
  length := overwritten.length
  written := fun i m found among => overwritten.written i m found ((same i m found).mpr among)
  kept := fun i m found apart => overwritten.kept i m found fun among => apart ((same i m found).mp among)

theorem trans (first : t.Overwritten t' data chosen) (second : t'.Overwritten t'' data chosen') :
    t.Overwritten t'' data fun i => chosen i ∨ chosen' i where
  packets := second.packets.trans first.packets
  flits := second.flits.trans first.flits
  length := second.length.trans first.length
  written := by
    intro i m found among
    by_cases before : chosen i
    · have once := first.written i m found before
      by_cases again : chosen' i
      · exact second.written i { m with data } once again
      · exact second.kept i { m with data } once again
    · exact second.written i m (first.kept i m found before) (among.resolve_left before)
  kept := by
    intro i m found apart
    rw [not_or] at apart
    exact second.kept i m (first.kept i m found apart.1) apart.2

theorem place? (overwritten : t.Overwritten t' data chosen) (flit : Nat) : t'.place? flit = t.place? flit := by
  simp only [Traffic.place?, packetOf?, overwritten.packets, overwritten.flits]

theorem message? (overwritten : t.Overwritten t' data chosen) (placed : t.place? flit = some i)
    (found : t.messages[i]? = some m) :
    (chosen i → t'.message? flit = some { m with data }) ∧ (¬ chosen i → t'.message? flit = some m) := by
  rw [message?_eq, overwritten.place?, placed]
  exact ⟨overwritten.written i m found, overwritten.kept i m found⟩

theorem messages_eq_none (overwritten : t.Overwritten t' data chosen) (nothing : t.messages[i]? = none) :
    t'.messages[i]? = none := by
  rw [List.getElem?_eq_none_iff] at nothing ⊢
  rwa [overwritten.length]

theorem address? (overwritten : t.Overwritten t' data chosen) (flit : Nat) : t'.address? flit = t.address? flit := by
  rw [address?_eq, address?_eq, message?_eq, message?_eq, overwritten.place?]
  cases t.place? flit with
  | none => rfl
  | some i =>
    rw [Option.bind_some, Option.bind_some]
    cases found : t.messages[i]? with
    | none => rw [overwritten.messages_eq_none found]
    | some m =>
      by_cases among : chosen i
      · rw [overwritten.written i m found among]
        rfl
      · rw [overwritten.kept i m found among]

theorem about (overwritten : t.Overwritten t' data chosen) (address : Nat) (flits : List Nat) :
    t'.about address flits = t.about address flits := by
  simp only [Traffic.about, overwritten.address?]

theorem eq_of_subset (first : t.Overwritten t' data chosen) (again : t'.Overwritten t'' data chosen')
    (within : ∀ i, chosen' i → chosen i) : t'' = t' := by
  have messages : t''.messages = t'.messages := by
    apply List.ext_getElem?
    intro i
    cases found : t.messages[i]? with
    | none =>
      have nothing := first.messages_eq_none found
      rw [again.messages_eq_none nothing, nothing]
    | some m =>
      by_cases among : chosen i
      · have once := first.written i m found among
        by_cases twice : chosen' i
        · rw [again.written i { m with data } once twice, once]
        · rw [again.kept i { m with data } once twice, once]
      · have once := first.kept i m found among
        rw [again.kept i m once fun twice => among (within i twice), once]
  cases t'
  cases t''
  cases messages
  cases again.packets
  cases again.flits
  rfl

end Overwritten

theorem overwritten_setData (t : Traffic) (flit : Nat) (data : List UInt8) :
    t.Overwritten (t.setData flit data) data fun i => t.place? flit = some i := by
  unfold setData place?
  cases t.packetOf? flit with
  | none => exact (Overwritten.refl t data).congr fun _ _ _ => by simp
  | some packet =>
    constructor
    case packets => rfl
    case flits => rfl
    case length => exact List.length_modify ..
    case written =>
      rintro i m found ⟨⟩
      simp [found]
    case kept =>
      intro i m found other
      simp only [Option.map_some, Option.some.injEq] at other
      simp [found, other]

theorem overwritten_foldl (t : Traffic) (flits : List Nat) (data : List UInt8) :
    t.Overwritten (flits.foldl (fun t flit => t.setData flit data) t) data
      fun i => ∃ flit ∈ flits, t.place? flit = some i := by
  induction flits generalizing t with
  | nil => exact (Overwritten.refl t data).congr fun _ _ _ => by simp
  | cons flit flits ih =>
    have first := overwritten_setData t flit data
    apply (first.trans (ih (t.setData flit data))).congr
    intro i m _
    simp only [first.place?, List.exists_mem_cons_iff]

theorem exists_of_mem_about {address : Nat} {flits : List Nat} (member : flit ∈ t.about address flits) :
    flit ∈ flits ∧ ∃ i m, t.place? flit = some i ∧ t.messages[i]? = some m ∧ m.address = some address := by
  obtain ⟨listed, matching⟩ := List.mem_filter.mp member
  rw [beq_iff_eq, address?_eq, message?_eq] at matching
  obtain ⟨m, read, named⟩ := Option.bind_eq_some_iff.mp matching
  obtain ⟨i, placed, found⟩ := Option.bind_eq_some_iff.mp read
  exact ⟨listed, i, m, placed, found, named⟩

end Traffic

namespace Port

variable {p : Port} {t t' : Traffic} {address : Nat} {data : List UInt8}

def Queues (p : Port) (t : Traffic) (i : Nat) : Prop := ∃ flit ∈ p.egress, t.place? flit = some i

instance (p : Port) (t : Traffic) (i : Nat) : Decidable (p.Queues t i) :=
  inferInstanceAs (Decidable (∃ flit ∈ p.egress, t.place? flit = some i))

def writeFlit (address : Nat) (data : List UInt8) (written flit : Nat) : StateM (Port × Traffic) Nat := do
  if (← get).2.address? flit == some address then
    modify fun (p, t) => (p, t.setData flit data)
    return written + 1
  return written

def writeInPlace (address : Nat) (data : List UInt8) : StateM (Port × Traffic) Nat := do
  (← get).1.egress.foldlM (writeFlit address data) 0

theorem writeFlit_run (p : Port) (t : Traffic) (address : Nat) (data : List UInt8) (written flit : Nat) :
    (writeFlit address data written flit).run (p, t) =
      if t.address? flit == some address then (written + 1, p, t.setData flit data) else (written, p, t) := by
  unfold writeFlit
  rw [StateT.run_bind, StateT.run_get, pure_bind]
  split <;> rfl

theorem foldlM_writeFlit (p : Port) (t : Traffic) (address : Nat) (data : List UInt8) (written : Nat)
    (flits : List Nat) :
    (flits.foldlM (writeFlit address data) written).run (p, t) =
      (written + (t.about address flits).length, p,
        (t.about address flits).foldl (fun t flit => t.setData flit data) t) := by
  induction flits generalizing t written with
  | nil => rfl
  | cons flit flits ih =>
    rw [List.foldlM_cons, StateT.run_bind, writeFlit_run, Traffic.about, List.filter_cons]
    split
    · have same := (t.overwritten_setData flit data).about address flits
      have rest := ih (t.setData flit data) (written + 1)
      rw [same, Nat.add_right_comm] at rest
      exact rest
    · exact ih t written

theorem writeInPlace_eq (p : Port) (t : Traffic) (address : Nat) (data : List UInt8) :
    (writeInPlace address data).run (p, t) =
      ((p.functionalWrite t address data).1, p, (p.functionalWrite t address data).2) := by
  have run := foldlM_writeFlit p t address data 0 p.egress
  rw [Nat.zero_add] at run
  exact run

theorem functionalRead_eq (p : Port) (t : Traffic) (address : Nat) :
    p.functionalRead t address =
      (t.about address p.egress).head?.bind fun flit => (t.message? flit).map Message.data := by
  unfold functionalRead
  rw [Traffic.about, List.head?_filter]
  congr 1
  funext flit
  cases t.message? flit <;> rfl

theorem written_iff {i : Nat} {m : Message} (found : t.messages[i]? = some m) :
    (∃ flit ∈ t.about address p.egress, t.place? flit = some i) ↔ m.address = some address ∧ p.Queues t i := by
  constructor
  · intro ⟨flit, member, placed⟩
    obtain ⟨waits, i', m', placed', found', named⟩ := Traffic.exists_of_mem_about member
    cases placed.symm.trans placed'
    cases found.symm.trans found'
    exact ⟨named, flit, waits, placed⟩
  · intro ⟨named, flit, waits, placed⟩
    refine ⟨flit, List.mem_filter.mpr ⟨waits, ?_⟩, placed⟩
    rw [Traffic.address?_eq, Traffic.message?_eq, placed, Option.bind_some, found, Option.bind_some, named,
      beq_self_eq_true]

theorem functionalWrite_eq (p : Port) (t : Traffic) (address : Nat) (data : List UInt8) :
    p.functionalWrite t address data = ((t.about address p.egress).length,
      (t.about address p.egress).foldl (fun t flit => t.setData flit data) t) := rfl

section Written

variable (overwritten : t.Overwritten t' data fun i => ∃ flit ∈ t.about address p.egress, t.place? flit = some i)
include overwritten

theorem functionalRead_same :
    p.functionalRead t' address = if 0 < (t.about address p.egress).length then some data else none := by
  rw [functionalRead_eq, overwritten.about]
  cases waiting : t.about address p.egress with
  | nil => rfl
  | cons flit others =>
    have first : flit ∈ t.about address p.egress := waiting ▸ List.mem_cons_self
    obtain ⟨-, i, m, placed, found, -⟩ := Traffic.exists_of_mem_about first
    have read := (overwritten.message? placed found).1 ⟨flit, first, placed⟩
    rw [List.head?_cons, Option.bind_some, read]
    rfl

theorem functionalRead_other {other : Nat} (apart : other ≠ address) :
    p.functionalRead t' other = p.functionalRead t other := by
  rw [functionalRead_eq, functionalRead_eq, overwritten.about]
  cases waiting : t.about other p.egress with
  | nil => rfl
  | cons flit others =>
    have first : flit ∈ t.about other p.egress := waiting ▸ List.mem_cons_self
    obtain ⟨-, i, m, placed, found, named⟩ := Traffic.exists_of_mem_about first
    have unwritten : ¬ ∃ flit ∈ t.about address p.egress, t.place? flit = some i := by
      rw [written_iff found, named]
      exact fun same => apart (Option.some.inj same.1)
    have read := (overwritten.message? placed found).2 unwritten
    rw [List.head?_cons, Option.bind_some, Option.bind_some, read, Traffic.message?_eq, placed, Option.bind_some, found]

end Written

/-- A write to an address counts the waiting flits of its messages, and sets the data of each message that has one, as
all flits of the message see it. Everything else stays, the port included, and so it all does if the same is written
again. -/
theorem functional_accesses_cohere (p : Port) (t : Traffic) (address : Nat) (data : List UInt8) :
    ∃ t' : Traffic,
      let count := p.egress.countP fun flit => t.address? flit == some address
      p.functionalWrite t address data = (count, t') ∧
      (writeInPlace address data).run (p, t) = (count, p, t') ∧
      p.functionalRead t' address = (if 0 < count then some data else none) ∧
      (∀ other, other ≠ address → p.functionalRead t' other = p.functionalRead t other) ∧
      t'.packets = t.packets ∧ t'.flits = t.flits ∧ t'.messages.length = t.messages.length ∧
      (∀ i m, t.messages[i]? = some m →
        let after := if m.address = some address ∧ p.Queues t i then { m with data } else m
        t'.messages[i]? = some after ∧ ∀ flit, t.place? flit = some i → t'.message? flit = some after) ∧
      p.functionalWrite t' address data = (count, t') := by
  have overwritten := t.overwritten_foldl (t.about address p.egress) data
  have write := p.functionalWrite_eq t address data
  have counted : (t.about address p.egress).length = p.egress.countP fun flit => t.address? flit == some address :=
    List.countP_eq_length_filter.symm
  have in_place := p.writeInPlace_eq t address data
  generalize (t.about address p.egress).foldl (fun t flit => t.setData flit data) t = t' at overwritten write
  rw [write] at in_place
  rw [counted] at write in_place
  refine ⟨t', write, in_place, ?_, ?_, overwritten.packets, overwritten.flits, overwritten.length, ?_, ?_⟩
  · rw [← counted]
    exact functionalRead_same overwritten
  · exact fun other apart => functionalRead_other overwritten apart
  · intro i m found after
    have seen : t'.messages[i]? = some after := by
      have chosen : (∃ flit ∈ t.about address p.egress, t.place? flit = some i) ↔
          m.address = some address ∧ p.Queues t i := written_iff found
      by_cases written : m.address = some address ∧ p.Queues t i
      · rw [overwritten.written i m found (chosen.mpr written)]
        exact congrArg some (if_pos written).symm
      · rw [overwritten.kept i m found fun among => written (chosen.mp among)]
        exact congrArg some (if_neg written).symm
    refine ⟨seen, ?_⟩
    intro flit placed
    rw [Traffic.message?_eq, overwritten.place?, placed]
    exact seen
  · have again := t'.overwritten_foldl (t.about address p.egress) data
    have unchanged := overwritten.eq_of_subset again fun i ⟨flit, member, placed⟩ =>
      ⟨flit, member, overwritten.place? flit ▸ placed⟩
    rw [functionalWrite_eq, overwritten.about, counted, unchanged]

theorem functional_accesses_cohere_shared :
    let about (address : Nat) (data : List UInt8) : Message := ⟨0, 5, some address, data, 0⟩
    let packet (message : Nat) : Packet := ⟨2, .toward 5 (.single 5) 0, message, 0⟩
    let t : Traffic :=
      ⟨[about 64 [1], about 64 [2], about 80 [3]], [packet 0, packet 0, packet 1, packet 2],
        [⟨0, 0, none⟩, ⟨0, 1, none⟩, ⟨1, 0, none⟩, ⟨2, 0, none⟩, ⟨3, 0, none⟩]⟩
    let p : Port := { idle 0 .localPort 1 1 2 with egress := [4, 0, 2] }
    ∃ t', p.functionalWrite t 64 [9, 9] = (2, t') ∧ p.functionalRead t' 64 = some [9, 9] ∧
      p.functionalRead t' 80 = some [3] ∧ t'.message? 1 = some (about 64 [9, 9]) ∧
      t'.message? 3 = some (about 64 [2]) := by
  intro about packet t p
  obtain ⟨t', write, -, read, other, -, -, -, messages, -⟩ := functional_accesses_cohere p t 64 [9, 9]
  have shared := (messages 0 (about 64 [1]) rfl).2 1 rfl
  have apart := (messages 1 (about 64 [2]) rfl).2 3 rfl
  exact ⟨t', write, read, other 80 (by decide), shared, apart⟩

end Port

end Interconnect
