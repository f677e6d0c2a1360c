import Mathlib
import Interconnect.Config.Object
import Interconnect.Proofs.Failure

namespace Interconnect.Config

variable {α σ : Type} {fields : List (String × Value)} {name : String}

def lastOf (fields : List (String × Value)) (name : String) : Option Value :=
  (fields.reverse.find? (·.1 == name)).map Prod.snd

def given (fields : List (String × Value)) (name : String) (read : Value → Except Error α) : Option α :=
  (lastOf fields name).bind fun v => (read v).toOption

/-- The last field of a name holds this, or there is none. -/
def Holds (fields : List (String × Value)) (name : String) (Means : Value → α → Prop) : Option α → Prop
  | none => lastOf fields name = none
  | some a => ∃ v, lastOf fields name = some v ∧ Means v a

theorem mem_of_lastOf {v : Value} (found : lastOf fields name = some v) : (name, v) ∈ fields := by
  obtain ⟨⟨field, _⟩, first, rfl⟩ := Option.map_eq_some_iff.mp found
  have key : field = name := by simpa using List.find?_some first
  exact key ▸ List.mem_reverse.mp (List.mem_of_find?_eq_some first)

theorem given_eq_iff {read : Value → Except Error α} {Means : Value → α → Prop} {a? : Option α}
    (read_eq_ok : ∀ v a, read v = .ok a ↔ Means v a)
    (readable : ∀ v, lastOf fields name = some v → ∃ a, read v = .ok a) :
    a? = given fields name read ↔ Holds fields name Means a? := by
  unfold given
  cases found : lastOf fields name with
  | none =>
    rw [Option.bind_none]
    cases a? with
    | none => exact iff_of_true rfl found
    | some a => exact iff_of_false nofun fun ⟨v, present, _⟩ => nomatch found.symm.trans present
  | some v =>
    obtain ⟨a, done⟩ := readable v found
    rw [Option.bind_some, done]
    cases a? with
    | none => exact iff_of_false nofun fun absent => nomatch found.symm.trans absent
    | some a' =>
      constructor
      · rintro ⟨⟩
        exact ⟨v, found, (read_eq_ok v a).mp done⟩
      · rintro ⟨v', same, means⟩
        cases found.symm.trans same
        have done' := (read_eq_ok v a').mpr means
        rw [done] at done'
        cases done'
        rfl

theorem lastOf_concat (fields : List (String × Value)) (name other : String) (v : Value) :
    lastOf (fields ++ [(name, v)]) other = if name = other then some v else lastOf fields other := by
  unfold lastOf
  rw [List.reverse_append, List.reverse_singleton, List.singleton_append, List.find?_cons]
  by_cases same : name = other
  · simp [same]
  · simp [same, beq_false_of_ne same]

theorem given_concat (fields : List (String × Value)) (name other : String) (v : Value)
    (read : Value → Except Error α) :
    given (fields ++ [(name, v)]) other read =
      if name = other then (read v).toOption else given fields other read := by
  unfold given
  rw [lastOf_concat]
  split <;> rfl

def Takes (read : σ → String → Value → Option (Except Error σ)) (state : σ) (field : String) (v : Value) (next : σ) :
    Prop :=
  read state field v = some (.ok next) ∨ read state field v = none ∧ field = "legend_name" ∧ next = state

theorem takes_iff {read : σ → String → Value → Option (Except Error σ)} {state next : σ} {field : String}
    {v : Value} {e : Error} :
    (match read state field v with
      | some result => result
      | none => if field = "legend_name" then .ok state else .error e) = .ok next ↔ Takes read state field v next := by
  unfold Takes
  cases read state field v with
  | some result => simp
  | none => by_cases legend : field = "legend_name" <;> simp [legend, eq_comm]

theorem readObject_eq_ok_iff {names : List String} {read : σ → String → Value → Option (Except Error σ)} {state : σ}
    (last : List (String × Value) → σ) (Typed : String → Value → Prop)
    (takes : ∀ fields field v next,
      Takes read (last fields) field v next ↔ Typed field v ∧ next = last (fields ++ [(field, v)])) :
    (Value.object name fields).readObject names read (last []) = .ok state ↔
      name ∈ names ∧ (∀ field ∈ fields, Typed field.1 field.2) ∧ state = last fields := by
  unfold Value.readObject
  dsimp only
  by_cases known : name ∈ names
  · rw [if_pos known]
    simp only [known, true_and]
    -- the object itself stands in the messages, so it is kept while the fields grow
    generalize Value.object name fields = whole
    induction fields using List.reverseRecOn generalizing state with
    | nil => simp [pure, Except.pure, eq_comm]
    | append_singleton fields field ih =>
      rcases field with ⟨field, v⟩
      rw [List.foldlM_append, bind_eq_ok]
      simp only [List.foldlM_cons, List.foldlM_nil, bind_pure]
      constructor
      · rintro ⟨before, done, taken⟩
        rcases ih.mp done with ⟨typed, rfl⟩
        rcases (takes ..).mp (takes_iff.mp taken) with ⟨here, same⟩
        exact ⟨List.forall_mem_append.mpr ⟨typed, List.forall_mem_singleton.mpr here⟩, same⟩
      · rintro ⟨typed, same⟩
        rcases List.forall_mem_append.mp typed with ⟨before, here⟩
        have here := List.forall_mem_singleton.mp here
        exact ⟨last fields, ih.mpr ⟨before, rfl⟩, takes_iff.mpr ((takes ..).mpr ⟨here, same⟩)⟩
  · rw [if_neg known]
    simp [known]

theorem expectBare_eq_ok_iff {names : List String} :
    (Value.object name fields).expectBare names = .ok () ↔
      name ∈ names ∧ ∀ field ∈ fields, field.1 = "legend_name" := by
  unfold Value.expectBare
  rw [readObject_eq_ok_iff (fun _ => ()) (fun field _ => field = "legend_name")]
  · simp
  · simp [Takes]

end Interconnect.Config
