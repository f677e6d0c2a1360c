import Mathlib
import Interconnect.Proofs.Port.Ledger
import Interconnect.Proofs.Router.Wiring

namespace Interconnect

namespace Port

variable {p q : Port} {action : Action}

theorem setChannel_alike {i : Nat} {c new : Channel} (found : p.channels[i]? = some c) (index : new.index = c.index)
    (depth : new.depth = c.depth) : (p.setChannel i new).Alike p :=
  ⟨rfl, rfl, rfl, plan_setChannel found index depth⟩

theorem credited_alike {credit : Credit} {c : Channel} (found : p.channels[credit.channel]? = some c) :
    (p.credited credit c).Alike p :=
  ⟨rfl, rfl, rfl, plan_setChannel found (c.credited_index _) (c.credited_depth _)⟩

theorem perform_alike (performed : p.perform action = .ok q) : q.Alike p := by
  cases action with
  | send traffic flit =>
    obtain ⟨⟨request, sent⟩, done, same⟩ := bind_eq_ok.mp performed
    cases same
    rcases sendFlit_ok done with rfl | ⟨i, c, found, rfl⟩
    · exact ⟨rfl, rfl, rfl, rfl⟩
    · exact ⟨rfl, rfl, rfl, plan_setChannel found rfl rfl⟩
  | deliver credit cycle delay =>
    cases performed
    exact ⟨rfl, rfl, rfl, rfl⟩
  | wake cycle =>
    obtain ⟨⟨requests, woken⟩, done, same⟩ := bind_eq_ok.mp performed
    cases same
    rcases wakeup_ok done with ⟨_, rfl⟩ | ⟨credit, rest, c, _, found, rfl⟩
    · exact .refl _
    · have alike := credited_alike (p := { p with credits := rest }) found
      exact alike.trans ⟨rfl, rfl, rfl, rfl⟩
  | select vnet selection =>
    obtain ⟨⟨result, selected⟩, done, same⟩ := bind_eq_ok.mp performed
    cases same
    rcases selectFree_ok done with ⟨_, rfl⟩ | ⟨i, c, _, found, rfl⟩
    · exact .refl _
    · exact setChannel_alike found rfl rfl
  | setState i state =>
    obtain ⟨c, found, rfl⟩ := setState_ok performed
    exact setChannel_alike found rfl rfl
  | pop =>
    cases performed
    unfold popFlit
    split <;> exact ⟨rfl, rfl, rfl, rfl⟩

end Port

namespace Router

inductive Action where
  | compute (route : Route) (inport : Nat) (random : Random)
  | atPort (outport : Nat) (action : Port.Action)
  | reset (cycle : Nat)

def perform (r : Router) : Action → Except Breach Router
  | .compute route inport random => .ok (r.compute route inport random).2
  | .atPort outport action => return r.setPort outport (← (← r.port outport).perform action)
  | .reset cycle => .ok (r.reset cycle)

variable {r s t : Router} {place : Nat} {a : Algorithm} {action : Action}

theorem perform_atPort {outport : Nat} {action : Port.Action} {p q : Port} (present : r.port outport = .ok p)
    (performed : p.perform action = .ok q) : r.perform (.atPort outport action) = .ok (r.setPort outport q) :=
  bind_eq_ok.mpr ⟨p, present, bind_eq_ok.mpr ⟨q, performed, rfl⟩⟩

theorem perform_of_selectFree {outport : Nat} {route : Route} {channel : Option Nat}
    (selected : r.selectFree outport route = .ok (channel, s)) :
    r.perform (.atPort outport (.select route.vnet (r.unit.selection route))) = .ok s := by
  obtain ⟨p, present, rest⟩ := bind_eq_ok.mp selected
  obtain ⟨result, done, same⟩ := bind_eq_ok.mp rest
  cases same
  exact perform_atPort present (bind_eq_ok.mpr ⟨result, done, rfl⟩)

theorem perform_of_sendFlit {outport flit : Nat} {traffic : Traffic} {request : Request}
    (sent : r.sendFlit outport traffic flit = .ok (request, s)) :
    r.perform (.atPort outport (.send traffic flit)) = .ok s := by
  obtain ⟨p, present, rest⟩ := bind_eq_ok.mp sent
  obtain ⟨result, done, same⟩ := bind_eq_ok.mp rest
  cases same
  exact perform_atPort present (bind_eq_ok.mpr ⟨result, done, rfl⟩)

theorem perform_of_deliverCredit {outport cycle delay : Nat} {credit : Credit} {request : Request}
    (delivered : r.deliverCredit outport credit cycle delay = .ok (request, s)) :
    r.perform (.atPort outport (.deliver credit cycle delay)) = .ok s := by
  obtain ⟨p, present, same⟩ := bind_eq_ok.mp delivered
  cases same
  exact perform_atPort present rfl

theorem perform_of_process {outport cycle : Nat} {requests : List Request}
    (processed : r.process (.creditWakeup outport) cycle = .ok (requests, s)) :
    r.perform (.atPort outport (.wake cycle)) = .ok s := by
  obtain ⟨p, present, rest⟩ := bind_eq_ok.mp processed
  obtain ⟨result, done, same⟩ := bind_eq_ok.mp rest
  cases same
  exact perform_atPort present (bind_eq_ok.mpr ⟨result, done, rfl⟩)

theorem Alike.trans (first : r.Alike s) (second : s.Alike t) : r.Alike t := by
  obtain ⟨table, counts, unit⟩ := first.unit
  obtain ⟨table', counts', unit'⟩ := second.unit
  refine ⟨first.vnets.trans second.vnets, ⟨table, counts, by rw [unit, unit']⟩, ?_⟩
  have ports := List.forall₂_iff_get.mp first.ports
  have ports' := List.forall₂_iff_get.mp second.ports
  refine List.forall₂_iff_get.mpr ⟨ports.1.trans ports'.1, fun i short short' => ?_⟩
  exact (ports.2 i short (ports.1 ▸ short)).trans (ports'.2 i (ports.1 ▸ short) short')

theorem setPort_alike {outport : Nat} {p q : Port} (present : r.ports[outport]? = some p) (alike : q.Alike p) :
    (r.setPort outport q).Alike r := by
  refine ⟨rfl, ⟨_, _, rfl⟩, List.forall₂_iff_get.mpr ⟨List.length_set .., fun i short short' => ?_⟩⟩
  simp only [setPort, List.get_eq_getElem, List.getElem_set]
  split
  · rename_i here
    subst here
    obtain ⟨_, rfl⟩ := List.getElem?_eq_some_iff.mp present
    exact alike
  · exact .refl _

theorem perform_alike (performed : r.perform action = .ok s) : s.Alike r := by
  cases action with
  | compute route inport random =>
    cases performed
    unfold compute
    split
    · exact .refl r
    · rename_i entered _
      obtain ⟨counts, unit⟩ := r.unit.compute_unit route inport entered r.ports random
      exact ⟨rfl, ⟨_, counts, unit⟩, (Alike.refl r).ports⟩
  | atPort outport action =>
    obtain ⟨p, present, rest⟩ := bind_eq_ok.mp performed
    obtain ⟨q, done, same⟩ := bind_eq_ok.mp rest
    cases same
    exact setPort_alike (orBreach_eq_ok.mp present) (Port.perform_alike done)
  | reset cycle =>
    cases performed
    refine ⟨rfl, ⟨_, _, rfl⟩, List.forall₂_map_left_iff.mpr ?_⟩
    exact List.forall₂_same.mpr fun p _ => ⟨rfl, rfl, rfl, rfl⟩

theorem Installed.perform (installed : r.Installed place a) (performed : r.perform action = .ok s) :
    s.Installed place a := by
  obtain ⟨v, built, done, algorithm, alike⟩ := installed
  exact ⟨v, built, done, algorithm, (perform_alike performed).trans alike⟩

theorem Installed.run (installed : r.Installed place a) {actions : List Action}
    (done : actions.foldlM Router.perform r = .ok s) : s.Installed place a := by
  induction actions generalizing r with
  | nil =>
    cases done
    exact installed
  | cons action actions ih =>
    rw [List.foldlM_cons] at done
    obtain ⟨next, performed, rest⟩ := bind_eq_ok.mp done
    exact ih (installed.perform performed) rest

end Router

end Interconnect
