import Mathlib
import Interconnect.Proofs.Failure
import Interconnect.Proofs.Number.Whole
import Interconnect.Router.Statistics

namespace Interconnect

open Config (Value)
open Config.Value (addToField addItems)

namespace Config.Value

variable {name : String} {v w sum : Value} {before after : List (String × Value)}

theorem addToField_append (apart : ∀ field ∈ before, field.1 ≠ name) (added : w.add v = .ok sum) :
    addToField name v (before ++ (name, w) :: after) = .ok (before ++ (name, sum) :: after) := by
  induction before with
  | nil =>
    rw [List.nil_append, addToField, if_pos rfl, added]
    rfl
  | cons field before ih =>
    obtain ⟨other, others⟩ := List.forall_mem_cons.mp apart
    rw [List.cons_append, addToField, if_neg other, ih others]
    rfl

end Config.Value

namespace Router

/-- Fields of the same names, one by one with the sum of two of them in the third. -/
inductive AddUp : List (String × Value) → List (String × Value) → List (String × Value) → Prop
  | nil : AddUp [] [] []
  | cons {name : String} {v w sum : Value} {own previous summed : List (String × Value)} :
      w.add v = .ok sum → AddUp own previous summed →
      AddUp ((name, w) :: own) ((name, v) :: previous) ((name, sum) :: summed)

section AddUp

variable {name : String} {v : Value} {own previous summed rest : List (String × Value)}

theorem AddUp.append {own' previous' summed' : List (String × Value)} (first : AddUp own previous summed)
    (second : AddUp own' previous' summed') : AddUp (own ++ own') (previous ++ previous') (summed ++ summed') := by
  induction first with
  | nil => exact second
  | cons added _ ih => exact .cons added ih

theorem addPrevious_cons (timeless : name ≠ "cycles") :
    addPrevious own ((name, v) :: previous) = addToField name v own >>= fun own => addPrevious own previous := by
  rw [addPrevious, List.foldlM_cons]
  exact congrArg (· >>= _) (if_neg timeless)

theorem addPrevious_cycles (added : addPrevious own previous = .ok summed) :
    addPrevious own (previous ++ [("cycles", v)]) = .ok summed := by
  rw [addPrevious] at added ⊢
  rw [List.foldlM_append, added]
  rfl

theorem AddUp.addPrevious_eq (adds : AddUp own previous summed) (done : List (String × Value))
    (names : ((done ++ own).map Prod.fst).Nodup) (timeless : "cycles" ∉ own.map Prod.fst) :
    addPrevious (done ++ (own ++ rest)) previous = .ok (done ++ (summed ++ rest)) := by
  induction adds generalizing done with
  | nil => rfl
  | @cons name v w sum own previous summed added _ ih =>
    have other : name ≠ "cycles" := (List.ne_of_not_mem_cons timeless).symm
    have others : "cycles" ∉ own.map Prod.fst := List.not_mem_of_not_mem_cons timeless
    have before : ∀ field ∈ done, field.1 ≠ name := by
      rw [List.map_append, List.map_cons, List.nodup_append] at names
      exact fun field member => names.2.2 field.1 (List.mem_map_of_mem member) name List.mem_cons_self
    have after : addPrevious (done ++ [(name, sum)] ++ (own ++ rest)) previous =
        .ok (done ++ [(name, sum)] ++ (summed ++ rest)) := by
      apply ih (done ++ [(name, sum)]) _ others
      simp only [List.append_assoc, List.map_append, List.map_cons] at names ⊢
      exact names
    rw [addPrevious_cons other, List.cons_append, Value.addToField_append before added]
    rw [List.append_assoc, List.append_assoc] at after
    exact after

end AddUp

theorem add_statistic {n m : Nat} (small : n + m < 2 ^ 53) :
    (statistic n).add (statistic m) = .ok (statistic (n + m)) := by
  rw [statistic, statistic, Value.add, Binary64.add_ofNat small]
  rfl

theorem eq_of_getD {xs ys : List Nat} (long : xs.length = ys.length) (each : ∀ i, xs.getD i 0 = ys.getD i 0) :
    xs = ys := by
  apply List.ext_getElem long
  intro i short short'
  rw [← List.getD_eq_getElem xs 0 short, ← List.getD_eq_getElem ys 0 short', each]

theorem addItems_statistics {xs ys zs : List Nat} (long : zs.length = max xs.length ys.length)
    (each : ∀ i, zs.getD i 0 = xs.getD i 0 + ys.getD i 0) (small : ∀ z ∈ zs, z < 2 ^ 53) :
    addItems (xs.map statistic) (ys.map statistic) = .ok (zs.map statistic) := by
  induction xs generalizing ys zs with
  | nil =>
    have same : zs = ys := eq_of_getD (long.trans (Nat.zero_max _)) fun i => (each i).trans (Nat.zero_add _)
    rw [same]
    rfl
  | cons x xs ih =>
    cases ys with
    | nil =>
      have same : zs = x :: xs := eq_of_getD (long.trans (Nat.max_zero _)) each
      rw [same]
      rfl
    | cons y ys =>
      cases zs with
      | nil =>
        rw [List.length_nil, List.length_cons, List.length_cons] at long
        omega
      | cons z zs =>
        obtain ⟨first, others⟩ := List.forall_mem_cons.mp small
        have sum : z = x + y := each 0
        have rest := ih (by simpa using long) (fun i => each (i + 1)) others
        rw [List.map_cons, List.map_cons, List.map_cons, addItems, rest, sum, add_statistic (sum ▸ first)]
        rfl

def forwarded (r : Router) : List Nat := r.ports.map fun p => p.counts.forwardedFlits

def forwardedAt (port : Nat) (r : Router) : Nat := r.forwarded.getD port 0

def counters : List (String × (Router → Nat)) :=
  [("routed_packets", fun r => r.unit.counts.routed),
    ("local_deliveries", fun r => r.unit.counts.delivered),
    ("adaptive_decisions", fun r => r.unit.counts.adaptive),
    ("non_minimal_paths", fun r => r.unit.counts.nonMinimal),
    ("forwarded_flits", fun r => total r.forwarded),
    ("received_credits", fun r => total (r.ports.map fun p => p.counts.receivedCredits)),
    ("free_signals", fun r => total (r.ports.map fun p => p.counts.freeSignals))]

def sumOf (count : Router → Nat) (routers : List Router) : Nat := total (routers.map count)

def width (routers : List Router) : Nat := (routers.map fun r => r.ports.length).foldr max 0

def perPort (routers : List Router) : List Nat :=
  (List.range (width routers)).map fun port => sumOf (forwardedAt port) routers

/-- What some routers counted, each number and each port by itself. -/
def sums (routers : List Router) : List (String × Value) :=
  counters.map (fun c => (c.1, statistic (sumOf c.2 routers))) ++
    [("forwarded_flits_per_port", .array ((perPort routers).map statistic))]

def accumulate (entries : List (Router × Nat)) : Except Error (Option Value) :=
  entries.foldlM (fun previous e => return some (← e.1.statistics previous e.2)) none

variable {routers routers' : List Router} {r : Router} {count : Router → Nat} {port cycle : Nat}

theorem sumOf_cons (count : Router → Nat) (r : Router) (routers : List Router) :
    sumOf count (r :: routers) = count r + sumOf count routers := rfl

theorem width_cons (r : Router) (routers : List Router) :
    width (r :: routers) = max r.ports.length (width routers) := rfl

theorem sumOf_perm (same : routers.Perm routers') : sumOf count routers = sumOf count routers' :=
  (same.map count).sum_eq

theorem width_perm (same : routers.Perm routers') : width routers = width routers' := by
  unfold width
  exact (same.map fun r => r.ports.length).foldr_eq (f := max) 0

theorem sums_perm (same : routers.Perm routers') : sums routers = sums routers' := by
  have each (count : Router → Nat) : sumOf count routers = sumOf count routers' := sumOf_perm same
  simp only [sums, perPort, each, width_perm same]

theorem sumOf_concat (count : Router → Nat) (routers : List Router) (r : Router) :
    sumOf count (routers ++ [r]) = count r + sumOf count routers :=
  sumOf_perm (List.perm_append_singleton r routers)

theorem width_concat (routers : List Router) (r : Router) :
    width (routers ++ [r]) = max r.ports.length (width routers) :=
  width_perm (List.perm_append_singleton r routers)

theorem length_forwarded (r : Router) : r.forwarded.length = r.ports.length := List.length_map _

theorem sumOf_forwardedAt_eq_zero (beyond : width routers ≤ port) : sumOf (forwardedAt port) routers = 0 := by
  induction routers with
  | nil => rfl
  | cons r routers ih =>
    rw [width_cons, Nat.max_le] at beyond
    rw [sumOf_cons, ih beyond.2, forwardedAt, List.getD_eq_default]
    rw [length_forwarded]
    exact beyond.1

theorem length_perPort (routers : List Router) : (perPort routers).length = width routers := by
  rw [perPort, List.length_map, List.length_range]

theorem getD_perPort (routers : List Router) (port : Nat) :
    (perPort routers).getD port 0 = sumOf (forwardedAt port) routers := by
  by_cases within : port < width routers
  · rw [List.getD_eq_getElem _ _ (by rwa [length_perPort])]
    simp only [perPort, List.getElem_map, List.getElem_range]
  · have beyond : width routers ≤ port := Nat.le_of_not_lt within
    rw [sumOf_forwardedAt_eq_zero beyond, List.getD_eq_default]
    rwa [length_perPort]

theorem perPort_singleton (r : Router) : perPort [r] = r.forwarded := by
  apply eq_of_getD
  · rw [length_perPort, length_forwarded, width_cons]
    exact Nat.max_zero _
  · exact getD_perPort [r]

theorem sum_getD (xs : List Nat) {places : Nat} (enough : xs.length ≤ places) :
    ((List.range places).map fun i => xs.getD i 0).sum = xs.sum := by
  induction xs generalizing places with
  | nil => simp
  | cons x xs ih =>
    obtain ⟨places, rfl⟩ : ∃ fewer, places = fewer + 1 :=
      Nat.exists_eq_add_one_of_ne_zero (Nat.ne_of_gt (Nat.zero_lt_of_lt enough))
    have rest := ih (Nat.le_of_succ_le_succ enough)
    rw [List.range_succ_eq_map, List.map_cons, List.map_map, List.sum_cons, List.sum_cons, ← rest]
    rfl

theorem total_perPort (routers : List Router) :
    total (perPort routers) = sumOf (fun r => total r.forwarded) routers := by
  have swapped (places : Nat) (enough : width routers ≤ places) :
      ((List.range places).map fun port => sumOf (forwardedAt port) routers).sum =
        sumOf (fun r => total r.forwarded) routers := by
    induction routers with
    | nil => exact sum_getD [] (Nat.zero_le places)
    | cons r routers ih =>
      rw [width_cons, Nat.max_le] at enough
      have own : ((List.range places).map fun port => forwardedAt port r).sum = total r.forwarded :=
        sum_getD r.forwarded (length_forwarded r ▸ enough.1)
      simp only [sumOf_cons, List.sum_map_add, own, ih enough.2]
  exact swapped (width routers) (Nat.le_refl _)

theorem ownStatistics_eq (r : Router) (cycle : Nat) :
    r.ownStatistics cycle = sums [r] ++ [("cycles", statistic (cycle - r.countedFrom))] := by
  rw [sums, perPort_singleton]
  rfl

theorem names_sums (routers : List Router) :
    (sums routers).map Prod.fst = counters.map Prod.fst ++ ["forwarded_flits_per_port"] := rfl

theorem forwarded_mem_counters : ("forwarded_flits", fun r => total r.forwarded) ∈ counters := by
  simp [counters]

theorem perPort_small (small : ∀ c ∈ counters, sumOf c.2 routers < 2 ^ 53) :
    ∀ flits ∈ perPort routers, flits < 2 ^ 53 := by
  intro flits member
  calc flits ≤ total (perPort routers) := List.le_sum_of_mem member
    _ = sumOf (fun r => total r.forwarded) routers := total_perPort routers
    _ < 2 ^ 53 := small _ forwarded_mem_counters

section Small

variable (small : ∀ c ∈ counters, sumOf c.2 (routers ++ [r]) < 2 ^ 53)
include small

theorem addUp_sums : AddUp (sums [r]) (sums routers) (sums (routers ++ [r])) := by
  have scalars : ∀ cs ⊆ counters, AddUp (cs.map fun c => (c.1, statistic (sumOf c.2 [r])))
      (cs.map fun c => (c.1, statistic (sumOf c.2 routers)))
      (cs.map fun c => (c.1, statistic (sumOf c.2 (routers ++ [r])))) := by
    intro cs within
    induction cs with
    | nil => exact .nil
    | cons c cs ih =>
      obtain ⟨first, others⟩ := List.cons_subset.mp within
      have bounded := small c first
      apply AddUp.cons _ (ih others)
      rw [sumOf_concat] at bounded ⊢
      exact add_statistic bounded
  have ports : addItems ((perPort [r]).map statistic) ((perPort routers).map statistic) =
      .ok ((perPort (routers ++ [r])).map statistic) := by
    apply addItems_statistics _ _ (perPort_small small)
    · rw [perPort_singleton, length_forwarded, length_perPort, length_perPort, width_concat]
    · intro port
      rw [perPort_singleton, getD_perPort, getD_perPort, sumOf_concat]
      rfl
  apply (scalars counters (List.Subset.refl _)).append
  apply AddUp.cons _ .nil
  rw [Value.add, ports]
  rfl

theorem statistics_sums (cycle : Nat) (v : Value) :
    r.statistics (some (.object "Router" (sums routers ++ [("cycles", v)]))) cycle =
      .ok (.object "Router" (sums (routers ++ [r]) ++ [("cycles", statistic (cycle - r.countedFrom))])) := by
  have added : addPrevious (r.ownStatistics cycle) (sums routers ++ [("cycles", v)]) =
      .ok (sums (routers ++ [r]) ++ [("cycles", statistic (cycle - r.countedFrom))]) := by
    rw [ownStatistics_eq]
    apply addPrevious_cycles
    apply (addUp_sums small).addPrevious_eq []
    · rw [List.nil_append, names_sums]
      decide
    · rw [names_sums]
      decide
  simp only [statistics, ne_eq, not_true_eq_false, if_false]
  rw [added]
  rfl

end Small

theorem accumulate_append (entries : List (Router × Nat)) (last : Router × Nat) :
    accumulate (entries ++ [last]) =
      accumulate entries >>= fun previous => return some (← last.1.statistics previous last.2) := by
  simp only [accumulate, List.foldlM_append, List.foldlM_cons, List.foldlM_nil, bind_pure]

theorem accumulate_concat (entries : List (Router × Nat)) (last : Router × Nat)
    (small : ∀ c ∈ counters, sumOf c.2 ((entries ++ [last]).map Prod.fst) < 2 ^ 53) :
    accumulate (entries ++ [last]) = .ok (some (.object "Router"
      (sums ((entries ++ [last]).map Prod.fst) ++ [("cycles", statistic (last.2 - last.1.countedFrom))]))) := by
  induction entries using List.reverseRecOn generalizing last with
  | nil =>
    rw [List.nil_append, accumulate, List.foldlM_cons, statistics, ownStatistics_eq]
    rfl
  | append_singleton entries before ih =>
    rw [List.map_append] at small ⊢
    have smaller : ∀ c ∈ counters, sumOf c.2 ((entries ++ [before]).map Prod.fst) < 2 ^ 53 := by
      intro c member
      have bounded := small c member
      rw [List.map_singleton, sumOf_concat] at bounded
      exact Nat.lt_of_le_of_lt (Nat.le_add_left _ _) bounded
    have step := statistics_sums small last.2 (statistic (before.2 - before.1.countedFrom))
    rw [accumulate_append, ih before smaller]
    exact congrArg (fun x : Except Error Value => x >>= fun fields => pure (some fields)) step

/-- Asked one after another, in any order and with any numbers of ports, the routers give the sums of what they
counted, and the last one the cycles since its reset. The sum of the forwarded flits is that of those of each port. -/
theorem statistics_add_up {entries : List (Router × Nat)} (present : entries ≠ [])
    (later : ∀ e ∈ entries, e.1.countedFrom ≤ e.2)
    (small : ∀ c ∈ counters, sumOf c.2 (entries.map Prod.fst) < 2 ^ 53) :
    let routers := entries.map Prod.fst
    (∀ order : List (Router × Nat), order.Perm entries → ∃ last elapsed,
      order.getLast? = some last ∧ last.1.countedFrom + elapsed = last.2 ∧
      accumulate order = .ok (some (.object "Router" (sums routers ++ [("cycles", statistic elapsed)])))) ∧
    (∀ c ∈ counters, ∃ x : Binary64, (c.1, .number x) ∈ sums routers ∧ x.toWord = sumOf c.2 routers) ∧
    ∃ (x : Binary64) (xs : List Binary64), ("forwarded_flits", .number x) ∈ sums routers ∧
      ("forwarded_flits_per_port", .array (xs.map .number)) ∈ sums routers ∧
      xs.map Binary64.toWord = perPort routers ∧ x.toWord = total (xs.map Binary64.toWord) := by
  intro routers
  have scalar : ∀ c ∈ counters, (c.1, statistic (sumOf c.2 routers)) ∈ sums routers := by
    intro c member
    exact List.mem_append_left _ (List.mem_map_of_mem member)
  refine ⟨?_, ?_, ?_⟩
  · intro order same
    rcases List.eq_nil_or_concat order with rfl | ⟨before, last, rfl⟩
    · exact absurd same.nil_eq.symm present
    rw [List.concat_eq_append] at same ⊢
    have mixed : ((before ++ [last]).map Prod.fst).Perm routers := same.map Prod.fst
    have begun := later last (same.subset (List.mem_append_right before List.mem_cons_self))
    refine ⟨last, last.2 - last.1.countedFrom, List.getLast?_concat, Nat.add_sub_cancel' begun, ?_⟩
    rw [← sums_perm mixed]
    apply accumulate_concat
    intro c member
    rw [sumOf_perm mixed]
    exact small c member
  · intro c member
    exact ⟨_, scalar c member, Binary64.toWord_ofNat (small c member)⟩
  · have read : ((perPort routers).map Binary64.ofNat).map Binary64.toWord = perPort routers := by
      rw [List.map_map]
      have exact (flits : Nat) (member : flits ∈ perPort routers) : (Binary64.ofNat flits).toWord = flits :=
        Binary64.toWord_ofNat (perPort_small small flits member)
      exact (List.map_congr_left exact).trans (List.map_id _)
    refine ⟨_, (perPort routers).map Binary64.ofNat, scalar _ forwarded_mem_counters, ?_, read, ?_⟩
    · rw [List.map_map]
      exact List.mem_append_right _ List.mem_cons_self
    · rw [read, total_perPort]
      exact Binary64.toWord_ofNat (small _ forwarded_mem_counters)

theorem statistics_add_up_unequal_ports :
    let port (flits : Nat) : Port := { Port.idle 0 .localPort 1 1 1 with counts := ⟨flits, 1, 0⟩ }
    let one : Router := ⟨1, .empty 0 .table [], [port 3], 10⟩
    let two : Router := ⟨1, { RoutingUnit.empty 1 .table [] with counts := ⟨4, 2, 0, 0⟩ }, [port 5, port 7], 20⟩
    let summed (cycles : Nat) : List (String × Value) :=
      [("routed_packets", statistic 4), ("local_deliveries", statistic 2), ("adaptive_decisions", statistic 0),
        ("non_minimal_paths", statistic 0), ("forwarded_flits", statistic 15), ("received_credits", statistic 3),
        ("free_signals", statistic 0), ("forwarded_flits_per_port", .array [statistic 8, statistic 7]),
        ("cycles", statistic cycles)]
    accumulate [(one, 30), (two, 50)] = .ok (some (.object "Router" (summed 30))) ∧
      accumulate [(two, 50), (one, 30)] = .ok (some (.object "Router" (summed 20))) := by
  intro port one two summed
  have later : ∀ e ∈ [(one, 30), (two, 50)], e.1.countedFrom ≤ e.2 := by decide
  have small : ∀ c ∈ counters, sumOf c.2 [one, two] < 2 ^ 53 := by decide
  obtain ⟨orders, -⟩ := statistics_add_up (List.cons_ne_nil (one, 30) [(two, 50)]) later small
  obtain ⟨last, elapsed, ⟨⟩, passed, given⟩ := orders _ (List.Perm.refl _)
  obtain ⟨last', elapsed', ⟨⟩, passed', given'⟩ := orders [(two, 50), (one, 30)] (List.Perm.swap _ _ _)
  cases (Nat.add_left_cancel passed : elapsed = 30)
  cases (Nat.add_left_cancel passed' : elapsed' = 20)
  exact ⟨given, given'⟩

end Router

end Interconnect
