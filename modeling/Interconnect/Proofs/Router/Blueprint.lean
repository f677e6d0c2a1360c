import Mathlib
import Interconnect.Proofs.Config.Typed
import Interconnect.Proofs.Routing.Naming
import Interconnect.Proofs.Routing.Table
import Interconnect.Router.Basic

namespace Interconnect

open Config (Value)

namespace DirectionMap

variable {m : DirectionMap} {directions : List Direction} {direction : Direction} {index : Nat}

def Lists (m : DirectionMap) (directions : List Direction) : Prop := m.registrations = directions.zipIdx.reverse

theorem Lists.mem_iff (lists : m.Lists directions) :
    (direction, index) ∈ m.registrations ↔ directions[index]? = some direction := by
  rw [lists, List.mem_reverse, List.mem_zipIdx_iff_getElem?]

theorem Lists.direction?_eq (lists : m.Lists directions) (index : Nat) :
    m.direction? index = directions[index]? := by
  unfold direction?
  cases found : m.registrations.find? (·.2 == index) with
  | some p =>
    have key : p.2 = index := by simpa using List.find?_some found
    have listed := lists.mem_iff.mp (List.mem_of_find?_eq_some found)
    rw [Option.map_some, ← key, listed]
  | none =>
    rw [Option.map_none, eq_comm, Option.eq_none_iff_forall_ne_some]
    intro direction listed
    have missed := List.find?_eq_none.mp found _ (lists.mem_iff.mpr listed)
    exact missed (beq_self_eq_true index)

theorem Lists.of_index? (lists : m.Lists directions) (found : m.index? direction = some index) :
    directions[index]? = some direction := by
  obtain ⟨⟨d, i⟩, first, same⟩ := Option.map_eq_some_iff.mp found
  have key : d = direction := by simpa using List.find?_some first
  cases same
  cases key
  exact lists.mem_iff.mp (List.mem_of_find?_eq_some first)

theorem exists_index?_of_mem (member : (direction, index) ∈ m.registrations) :
    ∃ latest, m.index? direction = some latest := by
  have some : (m.registrations.find? (·.1 == direction)).isSome :=
    List.find?_isSome.mpr ⟨_, member, beq_self_eq_true direction⟩
  obtain ⟨p, first⟩ := Option.isSome_iff_exists.mp some
  exact ⟨p.2, by rw [index?, first, Option.map_some]⟩

theorem Lists.exists_index? (lists : m.Lists directions) (listed : direction ∈ directions) :
    ∃ index, m.index? direction = some index := by
  obtain ⟨i, at_place⟩ := List.mem_iff_getElem?.mp listed
  exact exists_index?_of_mem (lists.mem_iff.mpr at_place)

end DirectionMap

/-- All that the settings of a router say of it, with the directions that its labels name and, if there is a table,
the entry and the weight of each port. -/
structure Blueprint where
  vnets : Nat
  poolSize : Nat
  bufferDepth : Nat
  algorithm : Algorithm
  orderedVnets : List Bool
  outports : List Direction
  inports : List Direction
  entries : List (List EndpointSet × Nat)

structure Port.Unused (p : Port) (b : Blueprint) (i : Nat) : Prop where
  index : p.index = i
  direction : b.outports[i]? = some p.direction
  poolSize : p.poolSize = b.poolSize
  pools : p.channels.length = b.vnets * b.poolSize
  channels : ∀ (channel : Nat) (c : Channel), p.channels[channel]? = some c →
    c.index = channel ∧ c.depth = b.bufferDepth ∧ c.credits = b.bufferDepth ∧ c.state = .idle
  egress : p.egress = []
  credits : p.credits = .empty
  counts : p.counts = .zero

theorem Channel.eq_idle_iff {c : Channel} {index depth : Nat} :
    c = .idle index depth ↔ c.index = index ∧ c.depth = depth ∧ c.credits = depth ∧ c.state = .idle := by
  cases c
  simp [Channel.idle]

theorem Port.unused_iff {p : Port} {b : Blueprint} {i : Nat} :
    p.Unused b i ↔
      ∃ direction, b.outports[i]? = some direction ∧ p = .idle i direction b.vnets b.poolSize b.bufferDepth := by
  constructor
  · rintro ⟨index, direction, poolSize, pools, channels, egress, credits, counts⟩
    have idle : p.channels = (List.range (b.vnets * b.poolSize)).map fun channel => .idle channel b.bufferDepth := by
      apply List.ext_getElem
      · rw [pools, List.length_map, List.length_range]
      · intro channel short _
        rw [List.getElem_map, List.getElem_range]
        exact Channel.eq_idle_iff.mpr (channels channel _ (List.getElem?_eq_getElem short))
    refine ⟨p.direction, direction, ?_⟩
    cases p
    simp_all only [Port.idle]
  · rintro ⟨direction, listed, rfl⟩
    refine ⟨rfl, listed, rfl, by simp [Port.idle], ?_, rfl, rfl, rfl⟩
    intro channel c found
    rcases List.getElem?_eq_some_iff.mp found with ⟨short, rfl⟩
    simp [Port.idle, Channel.idle]

/-- The router of a blueprint in its place, with its ports numbered in order and nothing passed through them. -/
structure Router.Built (r : Router) (index : Nat) (b : Blueprint) : Prop where
  index : r.index = index
  vnets : r.vnets = b.vnets
  algorithm : r.unit.algorithm = b.algorithm
  orderedVnets : r.unit.orderedVnets = b.orderedVnets
  table : r.unit.table.Lists b.entries
  outports : r.unit.outports.Lists b.outports
  inports : r.unit.inports.Lists b.inports
  counts : r.unit.counts = .zero
  ports : r.ports.length = b.outports.length
  unused : ∀ (i : Nat) (p : Port), r.ports[i]? = some p → p.Unused b i
  countedFrom : r.countedFrom = 0

/-- The labels of some ports name these directions. -/
def Family.Reads (family : Family) (labels : List String) (directions : List Direction) : Prop :=
  List.Forall₂ (fun label direction => Direction.ofLabel? family label = some direction) labels directions

/-- The array of arrays of whole numbers that gives the endpoints of a port for each virtual network. -/
def IsEntry (v : Value) (entry : List EndpointSet) : Prop :=
  v.IsArray (fun item set => ∃ ns, item.IsArray Value.IsWord ns ∧ ∀ n, n ∈ set ↔ n ∈ ns) entry

theorem EndpointSet.eq_ofList_iff {set : EndpointSet} {ns : List Nat} :
    set = .ofList ns ↔ ∀ n, n ∈ set ↔ n ∈ ns := by
  constructor
  · rintro rfl n
    exact mem_ofList
  · intro same
    have members : ∀ n, n ∈ set.toList ↔ n ∈ (ofList ns).toList := fun n => (same n).trans mem_ofList.symm
    have lists := set.increasing.eq_of_mem_iff (ofList ns).increasing members
    generalize ofList ns = other at lists
    cases set
    cases other
    cases lists
    rfl

/-- The network has a router of this number, as far as the algorithm knows it, and all its routers can be numbered in
words. -/
def Algorithm.Contains (index : Nat) : Algorithm → Prop
  | table => True
  | mesh _ none => True
  | mesh columns (some rows) => rows * columns < 2 ^ 64 ∧ index < rows * columns
  | ring size => index < size
  | dimensionOrder torus => index < torus.sides.prod
  | adaptive torus _ => index < torus.sides.prod

theorem Algorithm.contains_iff {a : Algorithm} {index : Nat} :
    a.Contains index ↔ ∃ count?, a.routerCount? = .ok count? ∧ ∀ size, count? = some size → index < size := by
  cases a with
  | mesh columns rows =>
    cases rows with
    | none => simp [Contains, routerCount?, pure, Except.pure]
    | some rows =>
      show _ ↔ ∃ count?, (Word.mul rows columns).map some = .ok count? ∧ _
      simp only [Contains, map_eq_ok, Word.mul_eq_ok]
      constructor
      · rintro ⟨bounded, below⟩
        exact ⟨_, ⟨_, ⟨bounded, rfl⟩, rfl⟩, fun size same => Option.some_inj.mp same ▸ below⟩
      · rintro ⟨_, ⟨_, ⟨bounded, rfl⟩, rfl⟩, below⟩
        exact ⟨bounded, below _ rfl⟩
  | _ => simp [Contains, routerCount?, Grid.size_eq_prod, pure, Except.pure]

theorem Algorithm.Contains.lt {a : Algorithm} {index size : Nat} (inside : a.Contains index)
    (known : a.routerCount? = .ok (some size)) : index < size := by
  obtain ⟨count?, found, below⟩ := contains_iff.mp inside
  rw [known] at found
  cases found
  exact below size rfl

namespace Settings

/-- Where there are routes, there is one for each port, and as many weights, which are 1 if none are given. -/
def Tabulates (s : Settings) (ports : Nat) (entries : List (List EndpointSet × Nat)) : Prop :=
  match s.routes with
  | none => entries = []
  | some routes =>
    ∃ sets weights, entries = sets.zip weights ∧ routes.length = ports ∧ List.Forall₂ IsEntry routes sets ∧
      weights.length = ports ∧ weights = s.weights.getD (List.replicate ports 1)

theorem Tabulates.length_le {s : Settings} {ports : Nat} {entries : List (List EndpointSet × Nat)}
    (tabulated : s.Tabulates ports entries) : entries.length ≤ ports := by
  unfold Tabulates at tabulated
  split at tabulated
  · simp [tabulated]
  · rcases tabulated with ⟨sets, weights, rfl, -, -, weighed, -⟩
    rw [List.length_zip]
    omega

/-- The settings make sense for a router that stands at `index`, and say this of it. -/
structure Describes (s : Settings) (index : Nat) (b : Blueprint) : Prop where
  vnets : s.vnets = some b.vnets
  poolSize : s.poolSize = some b.poolSize
  bufferDepth : s.bufferDepth = some b.bufferDepth
  routing : ∃ name legend, s.routing = some (.object name legend) ∧
    (∀ field ∈ legend, field.1 = "legend_name") ∧ Algorithm.Named s.geometry name b.algorithm
  orderedVnets : s.orderedVnets = b.orderedVnets
  inside : b.algorithm.Contains index
  enough : b.algorithm.partition = .whole ∧ 1 ≤ b.poolSize ∨ b.algorithm.partition = .halves ∧ 2 ≤ b.poolSize ∨
    b.algorithm.partition = .thirds ∧ 3 ≤ b.poolSize
  outports : ∃ labels, s.ports = some labels ∧ b.algorithm.family.Reads labels b.outports
  channels : b.outports ≠ [] → b.vnets * b.poolSize < 2 ^ 64
  inports : ∃ labels, s.inports.or s.ports = some labels ∧ b.algorithm.family.Reads labels b.inports
  table : s.Tabulates b.outports.length b.entries

end Settings

def Blueprint.router (b : Blueprint) (index : Nat) : Router where
  vnets := b.vnets
  unit := ⟨index, b.algorithm, .ofPorts b.entries, b.orderedVnets, ⟨b.inports.zipIdx.reverse⟩,
    ⟨b.outports.zipIdx.reverse⟩, .zero⟩
  ports := b.outports.zipIdx.map fun (direction, i) => .idle i direction b.vnets b.poolSize b.bufferDepth
  countedFrom := 0

theorem Router.entryOf_eq_ok_iff {v : Value} {entry : List EndpointSet} :
    Router.entryOf v = .ok entry ↔ IsEntry v entry := by
  apply Value.mapM_toItems_eq_ok
  intro item set
  simp only [bind_eq_ok, Value.toWords_eq_ok, ← EndpointSet.eq_ofList_iff, pure, Except.pure, Except.ok.injEq,
    eq_comm (b := set)]

namespace RoutingUnit

variable {u filled : RoutingUnit}

theorem foldl_addOutport (pairs : List (Direction × Nat)) (u : RoutingUnit) :
    pairs.foldl (fun unit (direction, i) => unit.addOutport direction i) u =
      { u with outports := ⟨pairs.reverse ++ u.outports.registrations⟩ } := by
  induction pairs generalizing u with
  | nil => rfl
  | cons pair pairs ih =>
    rw [List.foldl_cons, ih]
    simp [addOutport, DirectionMap.insert]

theorem foldl_ports (directions : List Direction) (vnets poolSize depth : Nat) (u : RoutingUnit) :
    (directions.zipIdx.map fun (direction, i) => Port.idle i direction vnets poolSize depth).foldl
        (fun unit port => unit.addOutport port.direction port.index) u =
      { u with outports := ⟨directions.zipIdx.reverse ++ u.outports.registrations⟩ } := by
  rw [List.foldl_map]
  exact foldl_addOutport directions.zipIdx u

theorem foldl_addInport (pairs : List (Direction × Nat)) (u : RoutingUnit) :
    pairs.foldl (fun unit (direction, i) => unit.addInport direction i) u =
      { u with inports := ⟨pairs.reverse ++ u.inports.registrations⟩ } := by
  induction pairs generalizing u with
  | nil => rfl
  | cons pair pairs ih =>
    rw [List.foldl_cons, ih]
    simp [addInport, DirectionMap.insert]

theorem foldlM_addRoute_eq_ok_iff {routes : List Value} {weights : List Nat}
    (paired : weights.length = routes.length) :
    (routes.zip weights).foldlM (fun unit (entry, weight) =>
      return (unit.addRoute (← Router.entryOf entry)).addWeight weight) u = Except.ok filled ↔
    ∃ sets, List.Forall₂ IsEntry routes sets ∧ filled = { u with
      table := (sets.zip weights).foldl (fun t port => (t.addRoute port.1).addWeight port.2) u.table } := by
  induction routes generalizing weights u with
  | nil => simp [pure, Except.pure, eq_comm]
  | cons route routes ih =>
    rcases weights with _ | ⟨weight, weights⟩
    · cases paired
    · simp only [List.zip_cons_cons, List.foldlM_cons, bind_eq_ok, List.forall₂_cons_left_iff]
      simp only [ih (Nat.succ_inj.mp paired), Router.entryOf_eq_ok_iff]
      constructor
      · rintro ⟨added, ⟨set, read, ⟨⟩⟩, sets, others, rfl⟩
        exact ⟨set :: sets, ⟨set, sets, read, others, rfl⟩, rfl⟩
      · rintro ⟨_, ⟨set, sets, read, others, rfl⟩, rfl⟩
        exact ⟨_, ⟨set, read, rfl⟩, sets, others, rfl⟩

end RoutingUnit

theorem Partition.leastPool_le_iff {partition : Partition} {poolSize : Nat} :
    partition.leastPool ≤ poolSize ↔
      partition = .whole ∧ 1 ≤ poolSize ∨ partition = .halves ∧ 2 ≤ poolSize ∨ partition = .thirds ∧ 3 ≤ poolSize := by
  cases partition <;> simp [leastPool]

namespace Router

variable {r : Router} {v : Value} {index : Nat} {b : Blueprint}

theorem built_iff : r.Built index b ↔ r = b.router index := by
  constructor
  · rintro ⟨here, vnets, algorithm, orderedVnets, table, outports, inports, counts, ports, unused, countedFrom⟩
    have idle : r.ports = (b.router index).ports := by
      apply List.ext_getElem
      · rw [ports, Blueprint.router, List.length_map, List.length_zipIdx]
      · intro i short _
        rcases Port.unused_iff.mp (unused i _ (List.getElem?_eq_getElem short)) with ⟨direction, listed, same⟩
        rcases List.getElem?_eq_some_iff.mp listed with ⟨_, rfl⟩
        simpa [Blueprint.router] using same
    have unit : r.unit = (b.router index).unit := by
      have in_map : r.unit.inports = ⟨b.inports.zipIdx.reverse⟩ := congrArg DirectionMap.mk inports
      have out_map : r.unit.outports = ⟨b.outports.zipIdx.reverse⟩ := congrArg DirectionMap.mk outports
      show RoutingUnit.mk _ _ _ _ _ _ _ = _
      have place : r.unit.router = index := here
      rw [algorithm, orderedVnets, RoutingTable.lists_iff.mp table, in_map, out_map, counts, place]
      rfl
    show Router.mk _ _ _ _ = _
    rw [vnets, unit, idle, countedFrom]
    rfl
  · rintro rfl
    refine ⟨rfl, rfl, rfl, rfl, RoutingTable.lists_iff.mpr rfl, rfl, rfl, rfl, by simp [Blueprint.router], ?_, rfl⟩
    intro i p found
    apply Port.unused_iff.mpr
    simpa [Blueprint.router, eq_comm] using found

theorem checkFit_eq_ok_iff {poolSize : Nat} {a : Algorithm} {u : Unit} :
    checkFit v index poolSize a = .ok u ↔ a.Contains index ∧ a.partition.leastPool ≤ poolSize := by
  simp only [checkFit, bind_eq_ok, liftM_breach_eq_ok, Algorithm.contains_iff]
  constructor
  · rintro ⟨count?, counted, fits⟩
    cases count? with
    | none => exact ⟨⟨none, counted, nofun⟩, by simpa [refused_eq_ok] using fits⟩
    | some size =>
      obtain ⟨inside, enough⟩ : index < size ∧ a.partition.leastPool ≤ poolSize := by
        simpa [refused_or_eq_ok, refused_eq_ok] using fits
      exact ⟨⟨some size, counted, fun _ same => Option.some_inj.mp same ▸ inside⟩, enough⟩
  · rintro ⟨⟨count?, counted, inside⟩, enough⟩
    refine ⟨count?, counted, ?_⟩
    cases count? with
    | none => simpa [refused_eq_ok] using enough
    | some size => simpa [refused_or_eq_ok, refused_eq_ok] using And.intro (inside size rfl) enough

theorem fillTable_eq_ok_iff {settings : Settings} {count : Nat} {u filled : RoutingUnit} (fresh : u.table = .empty) :
    fillTable v settings count u = .ok filled ↔
      ∃ entries, settings.Tabulates count entries ∧ filled = { u with table := .ofPorts entries } := by
  unfold fillTable Settings.Tabulates
  cases settings.routes with
  | none => simp [RoutingTable.ofPorts, ← fresh, pure, Except.pure, eq_comm (b := filled)]
  | some routes =>
    simp only [refused_or_eq_ok, not_not]
    constructor
    · rintro ⟨listed, weighed, done⟩
      rcases (RoutingUnit.foldlM_addRoute_eq_ok_iff (weighed.trans listed.symm)).mp done with ⟨sets, read, rfl⟩
      rw [fresh]
      exact ⟨_, ⟨sets, _, rfl, listed, read, weighed, rfl⟩, rfl⟩
    · rintro ⟨_, ⟨sets, weights, rfl, listed, read, weighed, rfl⟩, rfl⟩
      refine ⟨listed, weighed, ?_⟩
      apply (RoutingUnit.foldlM_addRoute_eq_ok_iff (weighed.trans listed.symm)).mpr
      rw [fresh]
      exact ⟨sets, read, rfl⟩

theorem portOf_eq_ok_iff {family : Family} {vnets poolSize depth i : Nat} {label : String} {port : Port} :
    portOf family vnets poolSize depth label i = .ok port ↔
      ∃ direction, Direction.ofLabel? family label = some direction ∧ vnets * poolSize < 2 ^ 64 ∧
        port = .idle i direction vnets poolSize depth := by
  simp only [portOf, Port.build, bind_eq_ok, liftM_error_eq_ok, liftM_breach_eq_ok, Direction.ofLabel, orError_eq_ok,
    Word.mul_eq_ok]
  constructor
  · rintro ⟨direction, named, _, ⟨bounded, -⟩, ⟨⟩⟩
    exact ⟨direction, named, bounded, rfl⟩
  · rintro ⟨direction, named, bounded, rfl⟩
    exact ⟨direction, named, _, ⟨bounded, rfl⟩, rfl⟩

theorem mapM_portOf_eq_ok_iff {family : Family} {vnets poolSize depth : Nat} {labels : List String}
    {ports : List Port} :
    (labels.zipIdx.mapM fun (label, i) => portOf family vnets poolSize depth label i) = .ok ports ↔
      ∃ directions, family.Reads labels directions ∧ (directions ≠ [] → vnets * poolSize < 2 ^ 64) ∧
        ports = directions.zipIdx.map fun (direction, i) => .idle i direction vnets poolSize depth := by
  generalize 0 = start
  induction labels generalizing start ports with
  | nil => simp [Family.Reads, pure, Except.pure, eq_comm]
  | cons label labels ih =>
    simp only [List.zipIdx_cons, List.mapM_cons, bind_eq_ok, ih, portOf_eq_ok_iff]
    constructor
    · rintro ⟨port, ⟨direction, named, bounded, rfl⟩, _, ⟨directions, others, -, rfl⟩, ⟨⟩⟩
      exact ⟨direction :: directions, .cons named others, fun _ => bounded, rfl⟩
    · rintro ⟨_, reads, bounded, rfl⟩
      cases reads with
      | cons named others =>
        have bounded := bounded (List.cons_ne_nil _ _)
        exact ⟨_, ⟨_, named, bounded, rfl⟩, _, ⟨_, others, fun _ => bounded, rfl⟩, rfl⟩

theorem mapM_ofLabel_eq_ok_iff {family : Family} {labels : List String} {directions : List Direction} :
    labels.mapM (Direction.ofLabel family) = .ok directions ↔ family.Reads labels directions := by
  simp only [mapM_eq_ok, Direction.ofLabel, orError_eq_ok, Family.Reads]

theorem ofValue_eq_ok_iff_describes :
    ofValue index v = .ok r ↔
      ∃ settings b, Settings.ofValue v = .ok settings ∧ settings.Describes index b ∧ r.Built index b := by
  simp only [ofValue, bind_eq_ok, liftM_error_eq_ok, orError_eq_ok, directionsOf, mapM_ofLabel_eq_ok_iff,
    mapM_portOf_eq_ok_iff, Algorithm.ofValue_eq_ok_iff, checkFit_eq_ok_iff, Partition.leastPool_le_iff,
    RoutingUnit.foldl_addInport, built_iff]
  constructor
  · rintro ⟨settings, read, vnets, networks, poolSize, pool, depth, buffer, routing, chosen, labels, given, algorithm,
      named, ⟨⟩, fits, _, ⟨outports, out, channels, rfl⟩, inports, entering, unit, filled, ⟨⟩⟩
    rw [RoutingUnit.foldl_ports] at filled
    rcases (fillTable_eq_ok_iff rfl).mp filled with ⟨entries, tabulated, rfl⟩
    rcases named with ⟨name, legend, rfl, bare, named⟩
    rw [List.Forall₂.length_eq out] at tabulated
    refine ⟨settings, ⟨vnets, poolSize, depth, algorithm, settings.orderedVnets, outports, inports, entries⟩, read,
      ?_, ?_⟩
    · refine ⟨networks, pool, buffer, ⟨name, legend, chosen, bare, named⟩, rfl, fits.1, fits.2,
        ⟨labels, given, out⟩, channels, ⟨_, ?_, entering⟩, tabulated⟩
      rw [given, Option.or_some]
    · simp [Blueprint.router, RoutingUnit.empty, DirectionMap.empty]
  · rintro ⟨settings, b, read, described, rfl⟩
    rcases described.routing with ⟨name, legend, chosen, bare, named⟩
    rcases described.outports with ⟨labels, given, out⟩
    rcases described.inports with ⟨others, same, entering⟩
    rw [given, Option.or_some, Option.some_inj] at same
    have tabulated := described.table
    rw [← List.Forall₂.length_eq out] at tabulated
    refine ⟨settings, read, b.vnets, described.vnets, b.poolSize, described.poolSize, b.bufferDepth,
      described.bufferDepth, _, chosen, labels, given, b.algorithm, ⟨name, legend, rfl, bare, named⟩, (),
      ⟨described.inside, described.enough⟩, _, ⟨b.outports, out, described.channels, rfl⟩, b.inports,
      same ▸ entering, (b.router index).unit, ?_, rfl⟩
    rw [RoutingUnit.foldl_ports]
    refine (fillTable_eq_ok_iff rfl).mpr ⟨b.entries, tabulated, ?_⟩
    simp [Blueprint.router, RoutingUnit.empty, DirectionMap.empty, described.orderedVnets]

end Router

end Interconnect
