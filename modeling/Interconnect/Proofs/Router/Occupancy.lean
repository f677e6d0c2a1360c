import Mathlib
import Interconnect.Proofs.Port.Ownership
import Interconnect.Proofs.Router.Operations

namespace Interconnect

namespace Port

variable {p q : Port} {vnet vnets channel count : Nat} {selection : Selection} {span : Span}

def idleIn (p : Port) (span : Span) : Port :=
  { p with channels := p.channels.zipIdx.map fun (c, i) => c.setState (if i ∈ span then .idle else .active) }

theorem idleIn_channels_getElem? (p : Port) (span : Span) (i : Nat) :
    (p.idleIn span).channels[i]? = p.channels[i]?.map fun c => c.setState (if i ∈ span then .idle else .active) := by
  simp only [idleIn, List.getElem?_map, List.getElem?_zipIdx, Option.map_map, Nat.zero_add]
  rfl

theorem idleIn_alike (p : Port) (span : Span) : (p.idleIn span).Alike p := by
  refine ⟨rfl, rfl, rfl, ?_⟩
  apply List.ext_getElem?
  intro i
  rw [plan, plan, List.getElem?_map, List.getElem?_map, idleIn_channels_getElem?, Option.map_map]
  rfl

theorem idleIn_offers :
    (p.idleIn span).Offers vnet selection channel ↔ channel < p.channels.length ∧ channel ∈ span ∧
      (channel ∈ (selection.spans p.direction.dimension? vnet p.poolSize).1 ∨
        channel ∈ (selection.spans p.direction.dimension? vnet p.poolSize).2) := by
  simp only [offers_iff, idleIn_channels_getElem?, Option.map_eq_some_iff]
  constructor
  · rintro ⟨_, ⟨c, found, rfl⟩, idle, among⟩
    refine ⟨(List.getElem?_eq_some_iff.mp found).1, ?_, among⟩
    by_contra outside
    rw [if_neg outside] at idle
    cases idle
  · rintro ⟨inside, spanned, among⟩
    refine ⟨_, ⟨_, List.getElem?_eq_getElem inside, rfl⟩, ?_, among⟩
    rw [if_pos spanned]
    rfl

theorem countFree_pos_iff (counted : p.countFree vnet selection = .ok count) :
    0 < count ↔ ∃ channel, p.Offers vnet selection channel := by
  obtain ⟨channels, free, same⟩ := bind_eq_ok.mp counted
  cases same
  simp only [List.length_pos_iff_exists_mem, mem_free free]

theorem exists_selectFree_of_offers (counted : p.countFree vnet selection = .ok count)
    (offered : p.Offers vnet selection channel) :
    ∃ given q, p.selectFree vnet selection = .ok (some given, q) ∧ p.Offers vnet selection given := by
  obtain ⟨channels, free, same⟩ := bind_eq_ok.mp counted
  cases channels with
  | nil => cases (mem_free free).mpr offered
  | cons first others =>
    have given := (mem_free free).mp List.mem_cons_self
    obtain ⟨c, found, _⟩ := offers_iff.mp given
    refine ⟨first, p.setChannel first (c.setState .active), ?_, given⟩
    refine bind_eq_ok.mpr ⟨first :: others, free, ?_⟩
    exact bind_eq_ok.mpr ⟨_, setState_eq found .active, rfl⟩

end Port

namespace Router

variable {r : Router} {place : Nat} {a : Algorithm} {idle : Port → Span}

def loaded (r : Router) (idle : Port → Span) : Router :=
  { r with ports := r.ports.map fun p => p.idleIn (idle p) }

theorem loaded_alike (r : Router) (idle : Port → Span) : (r.loaded idle).Alike r := by
  refine ⟨rfl, ⟨_, _, rfl⟩, ?_⟩
  rw [loaded, List.forall₂_map_left_iff, List.forall₂_same]
  exact fun p _ => p.idleIn_alike (idle p)

theorem loaded_getElem? {outport : Nat} {q : Port} (present : (r.loaded idle).ports[outport]? = some q) :
    ∃ p ∈ r.ports, q = p.idleIn (idle p) := by
  obtain ⟨p, found, rfl⟩ := Option.map_eq_some_iff.mp (List.getElem?_map .. ▸ present)
  exact ⟨p, List.mem_of_getElem? found, rfl⟩

theorem Installed.loaded (installed : r.Installed place a) (idle : Port → Span) :
    (r.loaded idle).Installed place a := by
  obtain ⟨v, built, done, algorithm, alike⟩ := installed
  exact ⟨v, built, done, algorithm, (r.loaded_alike idle).trans alike⟩

end Router

end Interconnect
