namespace Interconnect

structure EndpointSet where
  toList : List Nat
  increasing : toList.Pairwise (· < ·)
deriving DecidableEq

namespace EndpointSet

def insertInto (endpoint : Nat) : List Nat → List Nat
  | [] => [endpoint]
  | e :: es =>
    if endpoint < e then endpoint :: e :: es
    else if endpoint = e then e :: es
    else e :: insertInto endpoint es

theorem mem_insertInto {endpoint x : Nat} {es : List Nat} :
    x ∈ insertInto endpoint es ↔ x = endpoint ∨ x ∈ es := by
  induction es with
  | nil => simp [insertInto]
  | cons e es ih =>
    unfold insertInto
    split
    · simp
    · split
      · rename_i same
        simp [same]
      · simp only [List.mem_cons, ih]
        exact or_left_comm

theorem insertInto_increasing {endpoint : Nat} {es : List Nat} (h : es.Pairwise (· < ·)) :
    (insertInto endpoint es).Pairwise (· < ·) := by
  induction es with
  | nil => simp [insertInto]
  | cons e es ih =>
    have ⟨above, rest⟩ := List.pairwise_cons.1 h
    unfold insertInto
    split
    · rename_i below
      refine List.pairwise_cons.2 ⟨fun x member => ?_, h⟩
      rcases List.mem_cons.1 member with rfl | member
      · exact below
      · exact Nat.lt_trans below (above x member)
    · split
      · exact h
      · refine List.pairwise_cons.2 ⟨fun x member => ?_, ih rest⟩
        rcases mem_insertInto.1 member with rfl | member
        · omega
        · exact above x member

instance : Membership Nat EndpointSet := ⟨fun s endpoint => endpoint ∈ s.toList⟩

def empty : EndpointSet := ⟨[], List.Pairwise.nil⟩

def insert (s : EndpointSet) (endpoint : Nat) : EndpointSet :=
  ⟨insertInto endpoint s.toList, insertInto_increasing s.increasing⟩

def ofList (endpoints : List Nat) : EndpointSet := endpoints.foldl insert empty

def single (endpoint : Nat) : EndpointSet := empty.insert endpoint

def contains (s : EndpointSet) (endpoint : Nat) : Bool := s.toList.contains endpoint

def intersects (s t : EndpointSet) : Bool := s.toList.any t.contains

def isEmpty (s : EndpointSet) : Bool := s.toList.isEmpty

theorem mem_toList {s : EndpointSet} {endpoint : Nat} : endpoint ∈ s.toList ↔ endpoint ∈ s := Iff.rfl

@[simp] theorem not_mem_empty (endpoint : Nat) : ¬ endpoint ∈ empty := List.not_mem_nil

@[simp] theorem mem_insert {s : EndpointSet} {endpoint x : Nat} :
    x ∈ s.insert endpoint ↔ x = endpoint ∨ x ∈ s := mem_insertInto

theorem mem_foldl_insert {endpoints : List Nat} {s : EndpointSet} {x : Nat} :
    x ∈ endpoints.foldl insert s ↔ x ∈ endpoints ∨ x ∈ s := by
  induction endpoints generalizing s with
  | nil => simp
  | cons e es ih => rw [List.foldl_cons, ih, mem_insert, List.mem_cons, ← or_assoc, or_comm (a := x ∈ es)]

@[simp] theorem mem_ofList {endpoints : List Nat} {x : Nat} : x ∈ ofList endpoints ↔ x ∈ endpoints := by
  simp [ofList, mem_foldl_insert]

@[simp] theorem mem_single {endpoint x : Nat} : x ∈ single endpoint ↔ x = endpoint := by simp [single]

@[simp] theorem contains_iff {s : EndpointSet} {endpoint : Nat} :
    s.contains endpoint = true ↔ endpoint ∈ s := List.contains_iff_mem

@[simp] theorem intersects_iff {s t : EndpointSet} :
    s.intersects t = true ↔ ∃ endpoint, endpoint ∈ s ∧ endpoint ∈ t := by
  simp [intersects, mem_toList]

end EndpointSet

end Interconnect
