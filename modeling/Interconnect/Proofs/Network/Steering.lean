import Mathlib
import Interconnect.Proofs.Network.Delivery
import Interconnect.Proofs.Router.Occupancy

namespace Interconnect

def Route.escape (r : Route) (dimension size : Nat) : Span :=
  (Selection.spans ⟨.thirds, r.checkpoints⟩ (some dimension) r.vnet size).2

theorem Route.exists_mem_escape (r : Route) (dimension : Nat) {size : Nat} (enough : 3 ≤ size) :
    ∃ channel ∈ r.escape dimension size, channel < r.vnet * size + size := by
  have third : 0 < size / 3 := Nat.div_pos enough (by decide)
  have within : 3 * (size / 3) ≤ size := Nat.mul_div_le size 3
  unfold escape Selection.spans
  dsimp only
  split
  · refine ⟨r.vnet * size + size / 3, ⟨Nat.le_refl _, ?_⟩, ?_⟩
    · show r.vnet * size + size / 3 < r.vnet * size + 2 * (size / 3)
      omega
    · omega
  · refine ⟨r.vnet * size + 2 * (size / 3), ⟨Nat.le_refl _, ?_⟩, ?_⟩
    · show r.vnet * size + 2 * (size / 3) < r.vnet * size + size
      omega
    · omega

def Router.opening (r : Router) (dimension : Nat) (sign : Sign) (route : Route) : Router :=
  r.loaded fun p => if p.direction = .torus dimension sign then route.escape dimension p.poolSize else .empty

theorem Router.Installed.opening {r : Router} {place : Nat} {a : Algorithm} (installed : r.Installed place a)
    (dimension : Nat) (sign : Sign) (route : Route) : (r.opening dimension sign route).Installed place a :=
  installed.loaded _

namespace Transit

variable {torus : Grid} {rule : DirectionRule} {signs : List (Option Sign)} {r : Router} {t p : Transit}
  {d : Nat} {sign : Sign}

theorem Ready.opening (ready : t.Ready r torus) (d : Nat) (sign : Sign) :
    t.Ready (r.opening d sign t.route) torus := by
  refine ⟨ready.serves, fun e within apart => ?_⟩
  obtain ⟨way, directed, port, member, faces⟩ := ready.linked e within apart
  exact ⟨way, directed, _, List.mem_map_of_mem member, faces⟩

section Opening

variable (installed : r.Installed t.place (.adaptive torus rule)) {inport outport free : Nat} {entered : Direction}
include installed

theorem exists_port_of_candidate {e : Nat} {way : Sign}
    (candidate : Algorithm.Candidate torus (t.around (r.opening d sign t.route) inport entered) t.route e way
      outport free) :
    ∃ p ∈ r.ports, p.direction = .torus e way ∧
      let q := p.idleIn (if p.direction = .torus d sign then t.route.escape d p.poolSize else .empty)
      (r.opening d sign t.route).ports[outport]? = some q ∧
        q.countFree t.route.vnet ⟨.thirds, t.route.checkpoints⟩ = .ok free := by
  have wired := (installed.opening d sign t.route).wired
  obtain ⟨-, q, present, counted⟩ := Algorithm.poll_eq_ok candidate.polled
  obtain ⟨p, member, rfl⟩ := Router.loaded_getElem? present
  obtain ⟨q, present', faces⟩ := wired.leads _ _ candidate.leads
  have same := present.symm.trans present'
  cases same
  exact ⟨p, member, faces, present, counted⟩

theorem free_pos_of_candidate (serves : t.route.vnet < r.vnets)
    (candidate : Algorithm.Candidate torus (t.around (r.opening d sign t.route) inport entered) t.route d sign
      outport free) : 0 < free := by
  obtain ⟨p, member, faces, -, counted⟩ := exists_port_of_candidate installed candidate
  obtain ⟨enough, channels⟩ := installed.wired.pools p member
  obtain ⟨channel, among, below⟩ := t.route.exists_mem_escape d enough
  rw [if_pos faces] at counted
  rw [Port.countFree_pos_iff counted]
  have room : t.route.vnet * p.poolSize + p.poolSize ≤ p.channels.length := by
    rw [(Word.mul_eq_ok.mp channels).2, ← Nat.succ_mul]
    exact Nat.mul_le_mul_right _ serves
  refine ⟨channel, Port.idleIn_offers.mpr ⟨Nat.lt_of_lt_of_le below room, among, .inr ?_⟩⟩
  rw [faces]
  exact among

theorem free_eq_zero_of_candidate {e : Nat} {way : Sign} (other : e ≠ d)
    (candidate : Algorithm.Candidate torus (t.around (r.opening d sign t.route) inport entered) t.route e way
      outport free) : free = 0 := by
  obtain ⟨p, member, faces, -, counted⟩ := exists_port_of_candidate installed candidate
  have elsewhere : p.direction ≠ .torus d sign := by
    rw [faces]
    intro same
    cases same
    exact other rfl
  rw [if_neg elsewhere] at counted
  by_contra some_free
  obtain ⟨channel, offered⟩ := (Port.countFree_pos_iff counted).mp (Nat.pos_of_ne_zero some_free)
  obtain ⟨-, among, -⟩ := Port.idleIn_offers.mp offered
  exact Nat.not_lt_zero channel among.2

theorem Ready.exists_outport_opening (ready : t.Ready r torus) (away : t.place ≠ t.route.router)
    (fixed : t.route.directions = some signs) (within : d < torus.dimensions)
    (apart : torus.coordinate t.place d ≠ torus.coordinate t.route.router d) (way : t.route.direction? d = some sign)
    (inport : Nat) (entered : Direction) :
    ∃ outport free,
      Algorithm.Candidate torus (t.around (r.opening d sign t.route) inport entered) t.route d sign outport free ∧
        (t.computed (r.opening d sign t.route) inport entered).outport = .ok outport := by
  have wired := (installed.opening d sign t.route).wired
  have opened := ready.opening d sign
  obtain ⟨sign', outport, free, candidate⟩ := opened.exists_candidate wired within apart inport entered
  have same := way.symm.trans candidate.way
  cases same
  obtain ⟨decision, decided, found⟩ :=
    exists_outport_of_ready opened wired away fixed within apart inport entered
  -- this candidate has a channel to give and the others have none, so it is taken wherever it stands in their list
  have taken := Algorithm.decideAdaptive_of_only candidate
    (free_pos_of_candidate installed ready.serves candidate)
    (fun _ _ _ _ other another => free_eq_zero_of_candidate installed other another) decided
  rw [taken] at found
  exact ⟨outport, free, candidate, found⟩

end Opening

end Transit

section Planar

def planarSettings (columns rows : Nat) : Config.Value :=
  .object "Router" [("virtual_networks", .number .one), ("virtual_channels_per_vnet", .number (.ofNat 3)),
    ("buffer_depth", .number .one), ("torus_extents", .array [.number (.ofNat columns), .number (.ofNat rows)]),
    ("routing", .object "MINAD" []), ("ordered_vnets", .array [.boolean true]),
    ("ports", .array [.literal "dim0_pos", .literal "dim0_neg", .literal "dim1_pos", .literal "dim1_neg"])]

def planarRouter (columns rows place : Nat) : Router :=
  let ports : List Direction := [.torus 0 .positive, .torus 0 .negative, .torus 1 .positive, .torus 1 .negative]
  let wiring : DirectionMap := ⟨ports.zipIdx.reverse⟩
  ⟨1, ⟨place, .adaptive ⟨[columns, rows]⟩ .shortest, .empty, [true], wiring, wiring, .zero⟩,
    ports.zipIdx.map fun (direction, i) => .idle i direction 1 3 1, 0⟩

variable {columns rows place : Nat}

theorem planarRouter_linked {d : Nat} (within : d < Grid.dimensions ⟨[columns, rows]⟩) (sign : Sign) :
    ∃ port ∈ (planarRouter columns rows place).ports, port.direction = .torus d sign := by
  have two : d < 2 := within
  interval_cases d <;> cases sign <;> simp [planarRouter, Port.idle]

theorem planarRouter_equipped
    (built : Router.ofValue place (planarSettings columns rows) = .ok (planarRouter columns rows place)) :
    (planarRouter columns rows place).Equipped place 0 ⟨[columns, rows]⟩ .shortest :=
  ⟨⟨planarSettings columns rows, _, built, rfl, .refl _⟩, Nat.one_pos, fun _ within sign =>
    planarRouter_linked within sign⟩

set_option maxRecDepth 4000 in
theorem square_built (inside : place < 4) :
    Router.ofValue place (planarSettings 2 2) = .ok (planarRouter 2 2 place) := by
  interval_cases place <;> rfl

end Planar

end Interconnect
