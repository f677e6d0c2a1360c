import Mathlib
import Interconnect.Proofs.Geometry.Grid
import Interconnect.Routing.Decision

namespace Interconnect

namespace Algorithm

def grid? : Algorithm → Option Grid
  | ring size => some ⟨[size]⟩
  | dimensionOrder torus => some torus
  | adaptive torus _ => some torus
  | _ => none

def obliviousGrid? : Algorithm → Option Grid
  | adaptive _ _ => none
  | a => a.grid?

/-- The sums and the doubles that are taken on the way to a router are words. -/
def InRange : Algorithm → Nat → Prop
  | ring size, target => target + size < 2 ^ 64
  | dimensionOrder torus, _ => torus.Short
  | adaptive torus _, _ => torus.Short
  | _, _ => True

def toward : Algorithm → Nat → Sign → Direction
  | ring _, _, sign => .ring sign
  | _, dimension, sign => .torus dimension sign

def reach : Algorithm → Nat → Nat
  | ring _, side => side / 2
  | _, side => side / 2 + 1

def way (a : Algorithm) (offset side : Nat) : Sign := if offset < a.reach side then .positive else .negative

variable {a : Algorithm} {g : Grid} {s : Surroundings} {r : Route} {random : Random} {decision : Decision}

theorem grid?_of_oblivious (oblivious : a.obliviousGrid? = some g) : a.grid? = some g := by
  cases a with
  | adaptive torus rule => cases oblivious
  | _ => exact oblivious

theorem dimension?_toward {dimension : Nat} (grid : a.grid? = some g) (within : dimension < g.dimensions)
    (sign : Sign) : (a.toward dimension sign).dimension? = some dimension := by
  cases a with
  | ring size =>
    cases grid
    have first : dimension = 0 := Nat.lt_one_iff.mp within
    rw [first]
    rfl
  | _ => rfl

theorem link?_toward {dimension : Nat} (grid : a.grid? = some g) (within : dimension < g.dimensions)
    (sign : Sign) : (a.toward dimension sign).link? = some (dimension, sign) := by
  have signed : (a.toward dimension sign).sign? = some sign := by cases a <;> rfl
  rw [Direction.link?, dimension?_toward grid within, signed]
  rfl

theorem way_eq_positive_iff {offset side : Nat} : a.way offset side = .positive ↔ offset < a.reach side := by
  unfold way
  split <;> simp [*]

theorem way_eq_negative_iff {offset side : Nat} : a.way offset side = .negative ↔ a.reach side ≤ offset := by
  unfold way
  split <;> simp_all

theorem way_ring (size offset side : Nat) :
    (ring size).way offset side = if side / 2 ≤ offset then .negative else .positive := by
  by_cases near : offset < side / 2
  · rw [if_neg (by omega)]
    exact way_eq_positive_iff.mpr near
  · rw [if_pos (by omega)]
    exact way_eq_negative_iff.mpr (Nat.le_of_not_lt near)

theorem way_dimensionOrder (torus : Grid) (offset side : Nat) :
    (dimensionOrder torus).way offset side = if 2 * offset ≤ side then .positive else .negative := by
  by_cases near : offset < side / 2 + 1
  · rw [if_pos (by omega)]
    exact way_eq_positive_iff.mpr near
  · rw [if_neg (by omega)]
    exact way_eq_negative_iff.mpr (Nat.le_of_not_lt near)

theorem way_nextPlace {side c t : Nat} (inside : c < side) (target : t < side) (apart : c ≠ t) {sign : Sign}
    (going : a.way (aheadBy side c t) side = sign) (left : nextPlace side c sign ≠ t) :
    a.way (aheadBy side (nextPlace side c sign) t) side = sign := by
  have nearer := hopsToward_nextPlace inside target apart sign
  cases sign with
  | positive =>
    simp only [hopsToward] at nearer
    rw [way_eq_positive_iff] at going ⊢
    omega
  | negative =>
    simp only [hopsToward] at nearer
    rw [aheadBy_swap inside target apart, aheadBy_swap (nextPlace_lt inside .negative) target left] at nearer
    rw [way_eq_negative_iff] at going ⊢
    omega

structure Sends (a : Algorithm) (g : Grid) (router target outport : Nat) (outports : DirectionMap)
    (dimension : Nat) : Prop where
  within : dimension < g.dimensions
  apart : g.coordinate router dimension ≠ g.coordinate target dimension
  before : ∀ d < dimension, g.coordinate router d = g.coordinate target d
  leads : outports.index? (a.toward dimension (a.way
    (aheadBy (g.extent dimension) (g.coordinate router dimension) (g.coordinate target dimension))
    (g.extent dimension))) = some outport

theorem decideRing_eq_ok {size : Nat} (inside : s.router < size) (target : r.router < size)
    (decided : decideRing size s r = .ok decision) :
    (ring size).Sends ⟨[size]⟩ s.router r.router decision.outport s.outports 0 := by
  obtain ⟨found, step, rest⟩ := bind_eq_ok.mp decided
  cases found with
  | none => cases rest
  | some sign =>
    obtain ⟨outport, asked, same⟩ := bind_eq_ok.mp rest
    cases same
    obtain ⟨apart, way⟩ := ringSign_eq_some (mapError_eq_ok.mp step)
    have source : Grid.coordinate ⟨[size]⟩ s.router 0 = s.router := Nat.mod_eq_of_lt inside
    have there : Grid.coordinate ⟨[size]⟩ r.router 0 = r.router := Nat.mod_eq_of_lt target
    rw [← way_ring size] at way
    refine ⟨Nat.one_pos, ?_, nofun, ?_⟩
    · rw [source, there]
      exact fun same => apart ((aheadBy_eq_zero_iff inside target).mpr same)
    · rw [source, there]
      exact way ▸ orError_eq_ok.mp (mapError_eq_ok.mp asked)

theorem decideDimensionOrder_eq_ok {torus : Grid} (inside : s.router < torus.size) (target : r.router < torus.size)
    (decided : decideDimensionOrder torus s r = .ok decision) :
    ∃ dimension, (dimensionOrder torus).Sends torus s.router r.router decision.outport s.outports dimension := by
  obtain ⟨found, step, rest⟩ := bind_eq_ok.mp decided
  cases found with
  | none => cases rest
  | some choice =>
    obtain ⟨dimension, sign⟩ := choice
    obtain ⟨outport, asked, same⟩ := bind_eq_ok.mp rest
    cases same
    obtain ⟨within, apart, way, before⟩ := Grid.dimensionOrder_eq_some inside target (mapError_eq_ok.mp step)
    rw [← way_dimensionOrder torus] at way
    refine ⟨dimension, within, ?_, before, way ▸ orError_eq_ok.mp (mapError_eq_ok.mp asked)⟩
    exact mt (Grid.ahead_eq_zero_iff inside target within).mpr apart

theorem next_oblivious (oblivious : a.obliviousGrid? = some g) (inside : s.router < g.size)
    (target : r.router < g.size) (decided : (a.next s r random).decision = .ok decision) :
    (a.next s r random).route = r ∧
      ∃ dimension, a.Sends g s.router r.router decision.outport s.outports dimension := by
  cases a with
  | ring size =>
    cases oblivious
    have same : Grid.size ⟨[size]⟩ = size := Nat.mul_one size
    rw [same] at inside target
    exact ⟨rfl, 0, decideRing_eq_ok inside target decided⟩
  | dimensionOrder torus =>
    cases oblivious
    exact ⟨rfl, decideDimensionOrder_eq_ok inside target decided⟩
  | adaptive torus rule => cases oblivious
  | table => cases oblivious
  | mesh columns rows => cases oblivious

theorem exists_next_oblivious (oblivious : a.obliviousGrid? = some g) (inside : s.router < g.size)
    (target : r.router < g.size) (inRange : a.InRange r.router) (away : s.router ≠ r.router)
    (linked : ∀ d < g.dimensions, ∀ sign, ∃ outport, s.outports.index? (a.toward d sign) = some outport)
    (random : Random) : ∃ decision, (a.next s r random).decision = .ok decision := by
  cases a with
  | ring size =>
    cases oblivious
    have same : Grid.size ⟨[size]⟩ = size := Nat.mul_one size
    rw [same] at inside target
    obtain ⟨sign, way⟩ := exists_ringSign_eq_some inside target inRange away
    obtain ⟨outport, found⟩ := linked 0 Nat.one_pos sign
    refine ⟨⟨outport, 1⟩, ?_⟩
    refine bind_eq_ok.mpr ⟨some sign, mapError_eq_ok.mpr way, ?_⟩
    exact bind_eq_ok.mpr ⟨outport, mapError_eq_ok.mpr (orError_eq_ok.mpr found), rfl⟩
  | dimensionOrder torus =>
    cases oblivious
    obtain ⟨⟨dimension, sign⟩, way⟩ := Grid.exists_dimensionOrder_eq_some inRange inside target away
    obtain ⟨within, _⟩ := Grid.dimensionOrder_eq_some inside target way
    obtain ⟨outport, found⟩ := linked dimension within sign
    refine ⟨⟨outport, 1⟩, ?_⟩
    refine bind_eq_ok.mpr ⟨some (dimension, sign), mapError_eq_ok.mpr way, ?_⟩
    exact bind_eq_ok.mpr ⟨outport, mapError_eq_ok.mpr (orError_eq_ok.mpr found), rfl⟩
  | adaptive torus rule => cases oblivious
  | table => cases oblivious
  | mesh columns rows => cases oblivious

theorem mem_unresolved {dimension : Nat} :
    dimension ∈ unresolved g s r ↔
      dimension < g.dimensions ∧ g.coordinate s.router dimension ≠ g.coordinate r.router dimension := by
  simp only [unresolved, List.mem_map, List.mem_filter, bne_iff_ne, ne_eq]
  constructor
  · intro found
    obtain ⟨⟨⟨c, t⟩, d⟩, ⟨zipped, apart⟩, same⟩ := found
    cases same
    obtain ⟨source, target⟩ := List.getElem?_zip_eq_some.mp (List.mem_zipIdx_iff_getElem?.mp zipped)
    have within : d < g.dimensions := by
      rw [← g.length_coordinates s.router]
      exact (List.getElem?_eq_some_iff.mp source).1
    refine ⟨within, ?_⟩
    rw [Grid.coordinates_getElem? within] at source target
    cases source
    cases target
    exact apart
  · intro found
    obtain ⟨within, apart⟩ := found
    refine ⟨⟨(_, _), dimension⟩, ⟨List.mem_zipIdx_iff_getElem?.mpr ?_, apart⟩, rfl⟩
    exact List.getElem?_zip_eq_some.mpr ⟨Grid.coordinates_getElem? within, Grid.coordinates_getElem? within⟩

theorem unresolved_sorted (g : Grid) (s : Surroundings) (r : Route) : (unresolved g s r).Pairwise (· < ·) := by
  have numbered : ((((g.coordinates s.router).zip (g.coordinates r.router)).zipIdx).map Prod.snd).Pairwise (· < ·) := by
    rw [List.zipIdx_map_snd]
    exact List.pairwise_lt_range'
  exact numbered.sublist ((List.filter_sublist).map Prod.snd)

theorem exists_first_leastLoaded? {loads : List (Nat × Nat)} (some : loads ≠ []) :
    ∃ (i : Nat) (load : Nat × Nat), loads[i]? = .some load ∧ leastLoaded? loads = .some load.1 ∧
      ∀ (j : Nat) (p : Nat × Nat), loads[j]? = .some p → p.2 ≤ load.2 ∧ (j < i → p.2 < load.2) := by
  obtain ⟨first, others, rfl⟩ := List.exists_cons_of_ne_nil some
  suffices chosen : ∃ (i : Nat) (load : Nat × Nat), (first :: others)[i]? = .some load ∧
      others.foldl (fun best p => if best.2 < p.2 then p else best) first = load ∧
        ∀ (j : Nat) (p : Nat × Nat), (first :: others)[j]? = .some p → p.2 ≤ load.2 ∧ (j < i → p.2 < load.2) by
    obtain ⟨i, load, here, same, most⟩ := chosen
    exact ⟨i, load, here, congrArg (fun p : Nat × Nat => Option.some p.1) same, most⟩
  clear some
  -- the last load is compared with the choice among those before it
  induction others using List.reverseRecOn with
  | nil =>
    refine ⟨0, first, rfl, rfl, fun j p here => ?_⟩
    rw [List.mem_singleton.mp (List.mem_of_getElem? here)]
    exact ⟨Nat.le_refl _, nofun⟩
  | append_singleton others last ih =>
    obtain ⟨i, load, here, chosen, most⟩ := ih
    have inside := (List.getElem?_eq_some_iff.mp here).1
    have found {j : Nat} {p : Nat × Nat} (place : (first :: (others ++ [last]))[j]? = .some p) :
        (first :: others)[j]? = .some p ∨ j = (first :: others).length ∧ p = last := by
      rw [← List.cons_append, List.getElem?_append] at place
      split at place
      · exact .inl place
      · rename_i late
        have short := (List.getElem?_eq_some_iff.mp place).1
        rw [List.length_singleton] at short
        exact .inr ⟨by omega, List.mem_singleton.mp (List.mem_of_getElem? place)⟩
    rw [List.foldl_append, chosen, List.foldl_cons, List.foldl_nil]
    by_cases better : load.2 < last.2
    · rw [if_pos better]
      refine ⟨(first :: others).length, last, ?_, rfl, fun j p place => ?_⟩
      · rw [← List.cons_append]
        exact List.getElem?_concat_length
      · rcases found place with early | ⟨rfl, rfl⟩
        · have bound := (most j p early).1
          exact ⟨by omega, fun _ => by omega⟩
        · exact ⟨Nat.le_refl _, fun before => absurd before (Nat.lt_irrefl _)⟩
    · rw [if_neg better]
      refine ⟨i, load, ?_, rfl, fun j p place => ?_⟩
      · rw [← List.cons_append, List.getElem?_append_left inside, here]
      · rcases found place with early | ⟨rfl, rfl⟩
        · exact most j p early
        · exact ⟨Nat.le_of_not_lt better, fun before => absurd before (by omega)⟩

theorem exists_leastLoaded? {loads : List (Nat × Nat)} (some : loads ≠ []) :
    ∃ load ∈ loads, leastLoaded? loads = .some load.1 ∧ ∀ p ∈ loads, p.2 ≤ load.2 := by
  obtain ⟨i, load, here, least, most⟩ := exists_first_leastLoaded? some
  refine ⟨load, List.mem_of_getElem? here, least, fun p member => ?_⟩
  obtain ⟨j, place⟩ := List.mem_iff_getElem?.mp member
  exact (most j p place).1

/-- A dimension in which a packet may go on: the sign that its route has there, the port that leads that way, and
how many channels it could take at the port. -/
structure Candidate (g : Grid) (s : Surroundings) (r : Route) (dimension : Nat) (sign : Sign) (outport free : Nat) :
    Prop where
  within : dimension < g.dimensions
  apart : g.coordinate s.router dimension ≠ g.coordinate r.router dimension
  way : r.direction? dimension = some sign
  leads : s.outports.index? (.torus dimension sign) = some outport
  polled : poll s r ⟨.thirds, r.checkpoints⟩ outport = .ok (outport, free)

theorem Candidate.unique {dimension outport outport' free free' : Nat} {sign sign' : Sign}
    (first : Candidate g s r dimension sign outport free) (second : Candidate g s r dimension sign' outport' free') :
    sign = sign' ∧ outport = outport' ∧ free = free' := by
  have way := first.way.symm.trans second.way
  cases way
  have leads := first.leads.symm.trans second.leads
  cases leads
  have polled := first.polled.symm.trans second.polled
  cases polled
  exact ⟨rfl, rfl, rfl⟩

theorem poll_eq_ok {selection : Selection} {outport : Nat} {load : Nat × Nat}
    (polled : poll s r selection outport = .ok load) :
    load.1 = outport ∧ ∃ p, s.ports[outport]? = some p ∧ p.countFree r.vnet selection = .ok load.2 := by
  obtain ⟨p, present, rest⟩ := bind_eq_ok.mp polled
  obtain ⟨count, counted, same⟩ := bind_eq_ok.mp rest
  cases same
  exact ⟨rfl, p, orError_eq_ok.mp (mapError_eq_ok.mp present), mapError_eq_ok.mp counted⟩

theorem candidate_eq_ok {dimension outport : Nat} :
    candidate s r dimension = .ok outport ↔
      ∃ sign, r.direction? dimension = some sign ∧ s.outports.index? (.torus dimension sign) = some outport := by
  simp only [candidate, bind_eq_ok, orError_eq_ok, Surroundings.outport]

theorem exists_candidate_of_loads {candidates : List Nat} {loads : List (Nat × Nat)}
    (listed : (unresolved g s r).mapM (candidate s r) = .ok candidates)
    (polled : candidates.mapM (poll s r ⟨.thirds, r.checkpoints⟩) = .ok loads) {i : Nat} {load : Nat × Nat}
    (place : loads[i]? = some load) :
    ∃ d sign, (unresolved g s r)[i]? = some d ∧ Candidate g s r d sign load.1 load.2 := by
  obtain ⟨lengths, chosen⟩ := List.forall₂_iff_get.mp (mapM_eq_ok.mp listed)
  obtain ⟨lengths', asked⟩ := List.forall₂_iff_get.mp (mapM_eq_ok.mp polled)
  obtain ⟨short, rfl⟩ := List.getElem?_eq_some_iff.mp place
  have inside : i < (unresolved g s r).length := by omega
  have chosen := chosen i inside (lengths ▸ inside)
  have asked := asked i (lengths ▸ inside) short
  simp only [List.get_eq_getElem] at chosen asked
  obtain ⟨within, apart⟩ := mem_unresolved.mp (List.getElem_mem inside)
  obtain ⟨sign, way, leads⟩ := candidate_eq_ok.mp chosen
  obtain ⟨same, -⟩ := poll_eq_ok asked
  rw [← same] at leads asked
  exact ⟨_, sign, List.getElem?_eq_getElem inside, within, apart, way, leads, asked⟩

theorem decideAdaptive_first (decided : decideAdaptive g s r = .ok decision) :
    ∃ d sign free, Candidate g s r d sign decision.outport free ∧
      ∀ e < g.dimensions, g.coordinate s.router e ≠ g.coordinate r.router e →
        ∃ sign' outport free', Candidate g s r e sign' outport free' ∧ free' ≤ free ∧ (e < d → free' < free) := by
  obtain ⟨candidates, listed, rest⟩ := bind_eq_ok.mp decided
  obtain ⟨loads, polled, rest⟩ := bind_eq_ok.mp rest
  have listed := mapError_eq_ok.mp listed
  have some : loads ≠ [] := by
    intro none
    rw [none] at rest
    cases rest
  obtain ⟨i, load, here, least, most⟩ := exists_first_leastLoaded? some
  rw [least] at rest
  cases rest
  obtain ⟨d, sign, at_d, chosen⟩ := exists_candidate_of_loads listed polled here
  refine ⟨d, sign, load.2, chosen, fun e within apart => ?_⟩
  obtain ⟨j, at_e⟩ := List.mem_iff_getElem?.mp (mem_unresolved.mpr ⟨within, apart⟩)
  have short : j < loads.length := by
    rw [← (mapM_eq_ok.mp polled).length_eq, ← (mapM_eq_ok.mp listed).length_eq]
    exact (List.getElem?_eq_some_iff.mp at_e).1
  obtain ⟨e', sign', at_e', other⟩ := exists_candidate_of_loads listed polled (List.getElem?_eq_getElem short)
  rw [at_e] at at_e'
  cases at_e'
  obtain ⟨bound, strict⟩ := most j _ (List.getElem?_eq_getElem short)
  refine ⟨sign', _, _, other, bound, fun lower => strict ?_⟩
  -- the dimensions increase along the list
  by_contra later
  obtain ⟨inside, rfl⟩ := List.getElem?_eq_some_iff.mp at_d
  obtain ⟨inside', rfl⟩ := List.getElem?_eq_some_iff.mp at_e
  rcases Nat.eq_or_lt_of_le (Nat.le_of_not_lt later) with same | after
  · subst same
    omega
  · have increasing := List.pairwise_iff_getElem.mp (unresolved_sorted g s r) i j inside inside' after
    omega

theorem decideAdaptive_eq_ok (decided : decideAdaptive g s r = .ok decision) :
    ∃ d sign free, Candidate g s r d sign decision.outport free ∧
      ∀ e < g.dimensions, g.coordinate s.router e ≠ g.coordinate r.router e →
        ∃ sign' outport free', Candidate g s r e sign' outport free' ∧ free' ≤ free := by
  obtain ⟨d, sign, free, chosen, others⟩ := decideAdaptive_first decided
  refine ⟨d, sign, free, chosen, fun e within apart => ?_⟩
  obtain ⟨sign', outport, free', other, bound, -⟩ := others e within apart
  exact ⟨sign', outport, free', other, bound⟩

theorem exists_decideAdaptive_eq_ok
    (ready : ∀ d < g.dimensions, g.coordinate s.router d ≠ g.coordinate r.router d →
      ∃ sign outport free, Candidate g s r d sign outport free)
    (away : ∃ d < g.dimensions, g.coordinate s.router d ≠ g.coordinate r.router d) :
    ∃ decision, decideAdaptive g s r = .ok decision := by
  obtain ⟨candidates, listed⟩ : ∃ candidates, (unresolved g s r).mapM (candidate s r) = .ok candidates := by
    apply exists_mapM_eq_ok
    intro d member
    obtain ⟨within, apart⟩ := mem_unresolved.mp member
    obtain ⟨sign, outport, _, found⟩ := ready d within apart
    exact ⟨outport, candidate_eq_ok.mpr ⟨sign, found.way, found.leads⟩⟩
  -- a candidate was found in some dimension with an offset, so its poll is the one promised there
  obtain ⟨loads, polled⟩ : ∃ loads, candidates.mapM (poll s r ⟨.thirds, r.checkpoints⟩) = .ok loads := by
    apply exists_mapM_eq_ok
    intro outport member
    obtain ⟨d, unresolved, chosen⟩ := exists_mem_of_mapM_eq_ok listed member
    obtain ⟨within, apart⟩ := mem_unresolved.mp unresolved
    obtain ⟨sign, way, leads⟩ := candidate_eq_ok.mp chosen
    obtain ⟨sign', outport', free, found⟩ := ready d within apart
    have same := way.symm.trans found.way
    cases same
    have same := leads.symm.trans found.leads
    cases same
    exact ⟨_, found.polled⟩
  have some : loads ≠ [] := by
    rintro rfl
    obtain ⟨d, within, apart⟩ := away
    obtain ⟨outport, _, member⟩ := exists_of_mapM_eq_ok listed (mem_unresolved.mpr ⟨within, apart⟩)
    obtain ⟨load, _, member⟩ := exists_of_mapM_eq_ok polled member
    cases member
  obtain ⟨load, _, least, _⟩ := exists_leastLoaded? some
  refine ⟨⟨load.1, candidates.length⟩, ?_⟩
  refine bind_eq_ok.mpr ⟨candidates, mapError_eq_ok.mpr listed, ?_⟩
  refine bind_eq_ok.mpr ⟨loads, polled, ?_⟩
  rw [least]
  rfl

theorem decideAdaptive_of_only {d outport free : Nat} {sign : Sign} (only : Candidate g s r d sign outport free)
    (open_here : 0 < free)
    (full : ∀ e sign' outport' free', e ≠ d → Candidate g s r e sign' outport' free' → free' = 0)
    (decided : decideAdaptive g s r = .ok decision) : decision.outport = outport := by
  obtain ⟨d', sign', most, chosen, best⟩ := decideAdaptive_eq_ok decided
  obtain ⟨_, _, free', again, bound⟩ := best d only.within only.apart
  obtain ⟨-, -, same⟩ := only.unique again
  have here : d' = d := by
    by_contra other
    have none := full d' sign' _ most other chosen
    omega
  rw [here] at chosen
  exact (chosen.unique only).2.1

end Algorithm

end Interconnect
