import Mathlib
import Interconnect.Proofs.Router.Blueprint

namespace Interconnect

open Config (Value Holds given lastOf given_concat given_eq_iff lastOf_concat mem_of_lastOf Takes readObject_eq_ok_iff)

inductive FieldType where
  | any
  | word
  | flag
  | text
  | array (items : FieldType)

namespace FieldType

def Admits : FieldType → Value → Prop
  | any, _ => True
  | word, v => ∃ n, v.IsWord n
  | flag, v => ∃ b, v = .boolean b
  | text, v => ∃ s, v = .literal s
  | array type, v => ∃ items, v = .array items ∧ ∀ item ∈ items, type.Admits item

def IsRead (type : FieldType) {α : Type} (read : Value → Except Error α) : Prop :=
  ∀ v, type.Admits v ↔ ∃ a, read v = .ok a

theorem isRead_word : word.IsRead Value.toWord := fun _ => exists_congr fun _ => Value.toWord_eq_ok.symm

theorem isRead_flag : flag.IsRead Value.toFlag := fun _ => exists_congr fun _ => Value.toFlag_eq_ok.symm

theorem isRead_text : text.IsRead Value.toText := fun _ => exists_congr fun _ => Value.toText_eq_ok.symm

theorem isRead_items : (array any).IsRead Value.toItems := by
  intro v
  simp [Admits, Value.toItems_eq_ok]

theorem IsRead.array {type : FieldType} {α : Type} {read : Value → Except Error α} (isRead : type.IsRead read) :
    (array type).IsRead (fun v => do (← v.toItems).mapM read) := by
  intro v
  cases v with
  | array items =>
    constructor
    · rintro ⟨_, ⟨⟩, typed⟩
      exact exists_mapM_eq_ok fun item member => (isRead item).mp (typed item member)
    · rintro ⟨as, done⟩
      refine ⟨items, rfl, fun item member => (isRead item).mpr ?_⟩
      rcases exists_of_mapM_eq_ok done member with ⟨a, found, -⟩
      exact ⟨a, found⟩
  | _ => exact ⟨nofun, nofun⟩

theorem isRead_words : (array word).IsRead Value.toWords := isRead_word.array

theorem isRead_flags : (array flag).IsRead Value.toFlags := isRead_flag.array

theorem isRead_texts : (array text).IsRead Value.toTexts := isRead_text.array

end FieldType

namespace Settings

variable {v : Value} {fields : List (String × Value)} {field : String} {next : Settings}

def fieldType? : String → Option FieldType
  | "virtual_networks" => some .word
  | "virtual_channels_per_vnet" => some .word
  | "buffer_depth" => some .word
  | "routing" => some .any
  | "torus_extents" => some (.array .word)
  | "mesh_columns" => some .word
  | "mesh_rows" => some .word
  | "ring_size" => some .word
  | "ordered_vnets" => some (.array .flag)
  | "ports" => some (.array .text)
  | "inports" => some (.array .text)
  | "routes" => some (.array .any)
  | "weights" => some (.array .word)
  | "legend_name" => some .any
  | _ => none

def Typed (field : String) (v : Value) : Prop := ∃ type, fieldType? field = some type ∧ type.Admits v

def last (fields : List (String × Value)) : Settings where
  vnets := given fields "virtual_networks" Value.toWord
  poolSize := given fields "virtual_channels_per_vnet" Value.toWord
  bufferDepth := given fields "buffer_depth" Value.toWord
  routing := lastOf fields "routing"
  geometry :=
    { torusExtents := given fields "torus_extents" Value.toWords
      meshColumns := given fields "mesh_columns" Value.toWord
      meshRows := given fields "mesh_rows" Value.toWord
      ringSize := given fields "ring_size" Value.toWord }
  orderedVnets := (given fields "ordered_vnets" Value.toFlags).getD []
  ports := given fields "ports" Value.toTexts
  inports := given fields "inports" Value.toTexts
  routes := given fields "routes" Value.toItems
  weights := given fields "weights" Value.toWords

theorem update_eq_ok_iff {α : Type} {type : FieldType} {reading : Value → Except Error α} {update : α → Settings}
    {after : Settings} (typed : fieldType? field = some type) (isRead : type.IsRead reading)
    (updated : ∀ a, reading v = .ok a → update a = after) :
    (reading v).map update = .ok next ↔ Typed field v ∧ next = after := by
  rw [map_eq_ok]
  constructor
  · rintro ⟨a, found, rfl⟩
    exact ⟨⟨type, typed, (isRead v).mpr ⟨a, found⟩⟩, updated a found⟩
  · rintro ⟨⟨other, same, admitted⟩, rfl⟩
    cases typed.symm.trans same
    rcases (isRead v).mp admitted with ⟨a, found⟩
    exact ⟨a, found, updated a found⟩

theorem takes_iff (fields : List (String × Value)) (field : String) (v : Value) (next : Settings) :
    Takes read (last fields) field v next ↔ Typed field v ∧ next = last (fields ++ [(field, v)]) := by
  unfold Takes read
  split
  all_goals simp only [reduceCtorEq, false_and, or_false, Option.some_inj]
  -- every field but `routing` and `legend_name` is what is read of it
  case h_4 => simp [Typed, fieldType?, FieldType.Admits, last, given_concat, lastOf_concat, eq_comm]
  case h_14 =>
    by_cases legend : field = "legend_name"
    · simp [Typed, fieldType?, FieldType.Admits, legend, last, given_concat, lastOf_concat]
    · simp [Typed, fieldType?, *]
  case h_1 | h_2 | h_3 | h_6 | h_7 | h_8 =>
    apply update_eq_ok_iff (by simp [fieldType?]) FieldType.isRead_word
    intro n found
    simp [last, given_concat, lastOf_concat, setGeometry, found, Except.toOption]
  case h_5 | h_13 =>
    apply update_eq_ok_iff (by simp [fieldType?]) FieldType.isRead_words
    intro ns found
    simp [last, given_concat, lastOf_concat, setGeometry, found, Except.toOption]
  case h_9 =>
    apply update_eq_ok_iff (by simp [fieldType?]) FieldType.isRead_flags
    intro flags found
    simp [last, given_concat, lastOf_concat, found, Except.toOption]
  case h_10 | h_11 =>
    apply update_eq_ok_iff (by simp [fieldType?]) FieldType.isRead_texts
    intro labels found
    simp [last, given_concat, lastOf_concat, found, Except.toOption]
  case h_12 =>
    apply update_eq_ok_iff (by simp [fieldType?]) FieldType.isRead_items
    intro routes found
    simp [last, given_concat, lastOf_concat, found, Except.toOption]

theorem ofValue_eq_ok_iff {settings : Settings} :
    ofValue v = .ok settings ↔
      ∃ fields, v = .object "Router" fields ∧ (∀ field ∈ fields, Typed field.1 field.2) ∧ settings = last fields := by
  cases v with
  | object name fields =>
    show (Value.object name fields).readObject ["Router"] read (last []) = .ok settings ↔ _
    rw [readObject_eq_ok_iff last Typed takes_iff, List.mem_singleton]
    constructor
    · rintro ⟨rfl, typed, rfl⟩
      exact ⟨fields, rfl, typed, rfl⟩
    · rintro ⟨_, ⟨⟩, typed, rfl⟩
      exact ⟨rfl, typed, rfl⟩
  | _ => exact ⟨nofun, nofun⟩

/-- The settings that the last field of each name gives. -/
structure OfLast (s : Settings) (fields : List (String × Value)) : Prop where
  vnets : Holds fields "virtual_networks" Value.IsWord s.vnets
  poolSize : Holds fields "virtual_channels_per_vnet" Value.IsWord s.poolSize
  bufferDepth : Holds fields "buffer_depth" Value.IsWord s.bufferDepth
  routing : Holds fields "routing" Eq s.routing
  torusExtents : Holds fields "torus_extents" (Value.IsArray Value.IsWord) s.geometry.torusExtents
  meshColumns : Holds fields "mesh_columns" Value.IsWord s.geometry.meshColumns
  meshRows : Holds fields "mesh_rows" Value.IsWord s.geometry.meshRows
  ringSize : Holds fields "ring_size" Value.IsWord s.geometry.ringSize
  orderedVnets : ∃ flags, Holds fields "ordered_vnets" (Value.IsArray (· = .boolean ·)) flags ∧
    s.orderedVnets = flags.getD []
  ports : Holds fields "ports" (Value.IsArray (· = .literal ·)) s.ports
  inports : Holds fields "inports" (Value.IsArray (· = .literal ·)) s.inports
  routes : Holds fields "routes" (· = .array ·) s.routes
  weights : Holds fields "weights" (Value.IsArray Value.IsWord) s.weights

section OfLast

variable (typed : ∀ field ∈ fields, Typed field.1 field.2)
include typed

theorem readable {α : Type} {type : FieldType} {reading : Value → Except Error α} (named : fieldType? field = some type)
    (isRead : type.IsRead reading) : ∀ v, lastOf fields field = some v → ∃ a, reading v = .ok a := by
  intro v found
  obtain ⟨other, same, admitted⟩ := typed _ (mem_of_lastOf found)
  cases named.symm.trans same
  exact (isRead v).mp admitted

theorem given_word {a? : Option Nat} (named : fieldType? field = some .word) :
    a? = given fields field Value.toWord ↔ Holds fields field Value.IsWord a? :=
  given_eq_iff (fun _ _ => Value.toWord_eq_ok) (readable typed named FieldType.isRead_word)

theorem given_words {a? : Option (List Nat)} (named : fieldType? field = some (.array .word)) :
    a? = given fields field Value.toWords ↔ Holds fields field (Value.IsArray Value.IsWord) a? :=
  given_eq_iff (fun _ _ => Value.toWords_eq_ok) (readable typed named FieldType.isRead_words)

theorem given_flags {a? : Option (List Bool)} (named : fieldType? field = some (.array .flag)) :
    a? = given fields field Value.toFlags ↔ Holds fields field (Value.IsArray (· = .boolean ·)) a? :=
  given_eq_iff (fun _ _ => Value.toFlags_eq_ok) (readable typed named FieldType.isRead_flags)

theorem given_texts {a? : Option (List String)} (named : fieldType? field = some (.array .text)) :
    a? = given fields field Value.toTexts ↔ Holds fields field (Value.IsArray (· = .literal ·)) a? :=
  given_eq_iff (fun _ _ => Value.toTexts_eq_ok) (readable typed named FieldType.isRead_texts)

theorem given_items {a? : Option (List Value)} (named : fieldType? field = some (.array .any)) :
    a? = given fields field Value.toItems ↔ Holds fields field (· = .array ·) a? :=
  given_eq_iff (fun _ _ => Value.toItems_eq_ok) (readable typed named FieldType.isRead_items)

theorem ofLast_iff {s : Settings} : s.OfLast fields ↔ s = last fields := by
  have routing : ∀ v?, v? = lastOf fields "routing" ↔ Holds fields "routing" Eq v? := by
    intro v?
    cases v? <;> simp [Holds, eq_comm]
  constructor
  · rintro ⟨vnets, poolSize, bufferDepth, chosen, torusExtents, meshColumns, meshRows, ringSize, ⟨flags, ordered, same⟩,
      ports, inports, routes, weights⟩
    rw [← given_word typed rfl] at vnets poolSize bufferDepth meshColumns meshRows ringSize
    rw [← given_words typed rfl] at torusExtents weights
    rw [← given_texts typed rfl] at ports inports
    rw [← given_items typed rfl] at routes
    rw [← given_flags typed rfl] at ordered
    rw [← routing] at chosen
    rcases s with ⟨_, _, _, _, ⟨_, _, _, _⟩, _, _, _, _, _⟩
    dsimp only at *
    subst vnets poolSize bufferDepth chosen torusExtents meshColumns meshRows ringSize ordered same ports inports routes
      weights
    rfl
  · rintro rfl
    exact ⟨(given_word typed rfl).mp rfl, (given_word typed rfl).mp rfl, (given_word typed rfl).mp rfl,
      (routing _).mp rfl, (given_words typed rfl).mp rfl, (given_word typed rfl).mp rfl, (given_word typed rfl).mp rfl,
      (given_word typed rfl).mp rfl, ⟨_, (given_flags typed rfl).mp rfl, rfl⟩, (given_texts typed rfl).mp rfl,
      (given_texts typed rfl).mp rfl, (given_items typed rfl).mp rfl, (given_words typed rfl).mp rfl⟩

end OfLast

end Settings

/-- A router is built exactly of an object of fields that have their types, whose last ones describe the router. -/
theorem router_built_iff_described (index : Nat) (v : Value) (r : Router) :
    Router.ofValue index v = .ok r ↔
      ∃ (fields : List (String × Value)) (settings : Settings) (b : Blueprint), v = .object "Router" fields ∧
        (∀ field ∈ fields, Settings.Typed field.1 field.2) ∧ settings.OfLast fields ∧ settings.Describes index b ∧
        r.Built index b := by
  rw [Router.ofValue_eq_ok_iff_describes]
  simp only [Settings.ofValue_eq_ok_iff]
  constructor
  · rintro ⟨_, b, ⟨fields, rfl, typed, rfl⟩, described, built⟩
    exact ⟨fields, _, b, rfl, typed, (Settings.ofLast_iff typed).mpr rfl, described, built⟩
  · rintro ⟨fields, settings, b, rfl, typed, last, described, built⟩
    obtain rfl := (Settings.ofLast_iff typed).mp last
    exact ⟨_, b, ⟨fields, rfl, typed, rfl⟩, described, built⟩

def tableFields (vnets : Binary64) : List (String × Value) :=
  [("virtual_networks", .number vnets), ("virtual_channels_per_vnet", .number .one), ("buffer_depth", .number .one),
    ("routing", .object "Table" []), ("ports", .array [.literal "Local"]),
    ("routes", .array [.array [.array [.number .one, .number (.zero false)]]]), ("weights", .array [.number .one])]

def torusFields (extent : Binary64) : List (String × Value) :=
  [("virtual_networks", .number .one), ("virtual_channels_per_vnet", .number (.ofNat 2)),
    ("buffer_depth", .number .one), ("routing", .object "DOR" []), ("torus_extents", .array [.number extent, .number extent]), ("ports", .array [])]

theorem table_router_built :
    ∃ r b, Router.ofValue 0 (.object "Router" (tableFields .one)) = .ok r ∧ r.Built 0 b ∧
      (∃ settings : Settings, settings.OfLast (tableFields .one) ∧ settings.Describes 0 b) ∧
      r.ports.length = 1 ∧ r.unit.table.row 0 = [.ofList [0, 1]] ∧ r.unit.table.weights = [1] := by
  have accepted : (Router.ofValue 0 (.object "Router" (tableFields .one))).toOption.any (fun r =>
      r.ports.length == 1 && r.unit.table.row 0 == [.ofList [0, 1]] && r.unit.table.weights == [1]) = true := by
    decide +kernel
  obtain ⟨r, built, facts⟩ := exists_eq_ok_of_any accepted
  simp only [Bool.and_eq_true, beq_iff_eq] at facts
  obtain ⟨fields, settings, b, same, -, last, described, assembled⟩ := (router_built_iff_described _ _ r).mp built
  cases same
  exact ⟨r, b, built, assembled, ⟨settings, last, described⟩, facts.1.1, facts.1.2, facts.2⟩

/-- A number slightly above two counts as two, and no router is made for a torus whose size is no word. -/
theorem fraction_taken_and_torus_refused :
    (¬ ∃ n : Nat, (Binary64.ofDecimal false ⟨2000001, -6⟩).units = n * Binary64.unitsPerOne) ∧
      (∃ r, Router.ofValue 0 (.object "Router" (tableFields (.ofDecimal false ⟨2000001, -6⟩))) = .ok r ∧ r.vnets = 2) ∧
      ∀ r, Router.ofValue 0 (.object "Router" (torusFields (.ofNat (2 ^ 32)))) ≠ .ok r := by
  refine ⟨?_, ?_, ?_⟩
  · rintro ⟨n, whole⟩
    have rest : (Binary64.ofDecimal false ⟨2000001, -6⟩).units % Binary64.unitsPerOne ≠ 0 := by decide +kernel
    rw [whole, Nat.mul_mod_left] at rest
    exact rest rfl
  · have taken : (Router.ofValue 0 (.object "Router" (tableFields (.ofDecimal false ⟨2000001, -6⟩)))).toOption.any
        (fun r => r.vnets == 2) = true := by decide +kernel
    obtain ⟨r, built, two⟩ := exists_eq_ok_of_any taken
    exact ⟨r, built, eq_of_beq two⟩
  · intro r built
    have refused : (Router.ofValue 0 (.object "Router" (torusFields (.ofNat (2 ^ 32))))).isOk = false := by
      decide +kernel
    rw [built] at refused
    cases refused

end Interconnect
