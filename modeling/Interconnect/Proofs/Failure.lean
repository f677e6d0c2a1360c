import Mathlib
import Interconnect.Failure

namespace Interconnect

variable {ε ε' α β : Type}

theorem bind_eq_ok {x : Except ε α} {f : α → Except ε β} {b : β} :
    x >>= f = .ok b ↔ ∃ a, x = .ok a ∧ f a = .ok b := by
  cases x with
  | error e => exact ⟨nofun, nofun⟩
  | ok a => exact ⟨fun h => ⟨a, rfl, h⟩, fun ⟨_, same, h⟩ => by cases same; exact h⟩

theorem bind_eq_error {x : Except ε α} {f : α → Except ε β} {e : ε} :
    x >>= f = .error e ↔ x = .error e ∨ ∃ a, x = .ok a ∧ f a = .error e := by
  cases x with
  | error e' =>
    constructor
    · intro failed
      cases failed
      exact .inl rfl
    · rintro (same | ⟨a, absent, -⟩)
      · cases same
        rfl
      · cases absent
  | ok a =>
    constructor
    · intro failed
      exact .inr ⟨a, rfl, failed⟩
    · rintro (absent | ⟨a', same, failed⟩)
      · cases absent
      · cases same
        exact failed

theorem mapError_eq_ok {x : Except ε α} {f : ε → ε'} {a : α} : x.mapError f = .ok a ↔ x = .ok a := by
  cases x <;> simp [Except.mapError]

theorem map_eq_ok {x : Except ε α} {f : α → β} {b : β} : x.map f = .ok b ↔ ∃ a, x = .ok a ∧ f a = b := by
  cases x <;> simp [Except.map]

theorem orBreach_eq_ok {value : Option α} {b : Breach} {a : α} : orBreach value b = .ok a ↔ value = some a := by
  cases value <;> simp [orBreach]

theorem orError_eq_ok {value : Option α} {e : Error} {a : α} : orError value e = .ok a ↔ value = some a := by
  cases value <;> simp [orError]

theorem liftM_error_eq_ok {x : Except Error α} {a : α} : (liftM x : Except Failure α) = .ok a ↔ x = .ok a :=
  mapError_eq_ok

theorem liftM_breach_eq_ok {x : Except Breach α} {a : α} : (liftM x : Except Failure α) = .ok a ↔ x = .ok a :=
  mapError_eq_ok

theorem exists_eq_ok_of_any {ε α : Type} {x : Except ε α} {p : α → Bool} (found : x.toOption.any p = true) :
    ∃ a, x = .ok a ∧ p a = true := by
  cases x with
  | error e => cases found
  | ok a => exact ⟨a, rfl, found⟩

theorem refused_or_eq_ok {refused : Prop} [Decidable refused] {e : ε} {x : Except ε α} {a : α} :
    (if refused then do throw e; x else x) = .ok a ↔ ¬ refused ∧ x = .ok a := by
  by_cases h : refused
  · simp [h, throw, throwThe, MonadExceptOf.throw, bind, Except.bind]
  · simp [h]

theorem refused_eq_ok {refused : Prop} [Decidable refused] {e : ε} {u : Unit} :
    (if refused then throw e else pure () : Except ε Unit) = .ok u ↔ ¬ refused := by
  by_cases h : refused <;> simp [h, throw, throwThe, MonadExceptOf.throw, pure, Except.pure]

theorem mapM_eq_ok {f : α → Except ε β} {as : List α} {bs : List β} :
    as.mapM f = .ok bs ↔ List.Forall₂ (fun a b => f a = .ok b) as bs := by
  induction as generalizing bs with
  | nil => simp [pure, Except.pure, eq_comm]
  | cons a as ih =>
    simp only [List.mapM_cons, bind_eq_ok, ih, List.forall₂_cons_left_iff]
    constructor
    · rintro ⟨b, first, rest, others, same⟩
      cases same
      exact ⟨b, rest, first, others, rfl⟩
    · rintro ⟨b, rest, first, others, rfl⟩
      exact ⟨b, first, rest, others, rfl⟩

theorem exists_mapM_eq_ok {f : α → Except ε β} {as : List α} (total : ∀ a ∈ as, ∃ b, f a = .ok b) :
    ∃ bs, as.mapM f = .ok bs := by
  induction as with
  | nil => exact ⟨[], rfl⟩
  | cons a as ih =>
    obtain ⟨b, first⟩ := total a List.mem_cons_self
    obtain ⟨bs, others⟩ := ih fun a' member => total a' (List.mem_cons_of_mem a member)
    exact ⟨b :: bs, mapM_eq_ok.mpr (.cons first (mapM_eq_ok.mp others))⟩

theorem mapM_eq_error_of_first {f : α → Except ε β} {before after : List α} {a : α} {e : ε}
    (passed : ∀ b ∈ before, ∃ c, f b = .ok c) (failed : f a = .error e) :
    (before ++ a :: after).mapM f = .error e := by
  rcases exists_mapM_eq_ok passed with ⟨cs, done⟩
  rw [List.mapM_append, done, List.mapM_cons, failed]
  rfl

theorem exists_mem_of_mapM_eq_ok {f : α → Except ε β} {as : List α} {bs : List β} (done : as.mapM f = .ok bs)
    {b : β} (member : b ∈ bs) : ∃ a ∈ as, f a = .ok b := by
  obtain ⟨i, short, rfl⟩ := List.mem_iff_getElem.mp member
  obtain ⟨lengths, related⟩ := List.forall₂_iff_get.mp (mapM_eq_ok.mp done)
  exact ⟨as[i], List.getElem_mem _, related i (lengths ▸ short) short⟩

theorem exists_of_mapM_eq_ok {f : α → Except ε β} {as : List α} {bs : List β} (done : as.mapM f = .ok bs)
    {a : α} (member : a ∈ as) : ∃ b, f a = .ok b ∧ b ∈ bs := by
  obtain ⟨i, short, rfl⟩ := List.mem_iff_getElem.mp member
  obtain ⟨lengths, related⟩ := List.forall₂_iff_get.mp (mapM_eq_ok.mp done)
  exact ⟨bs[i], related i short (lengths ▸ short), List.getElem_mem _⟩

section InPlace

variable {σ : Type}

theorem run_liftExcept (s : σ) (x : Except ε α) :
    (liftExcept x : ExceptT ε (StateM σ) α).run.run s = (x, s) := by
  cases x <;> rfl

theorem run_liftM_eq_ok {x : Except ε α} {a : α} {s s' : σ} :
    (liftM x : ExceptT ε (StateM σ) α).run.run s = (.ok a, s') ↔ x = .ok a ∧ s = s' := Prod.mk_inj

theorem run_modifyGet_bind (s : σ) (f : σ → α × σ) (g : α → β) :
    ((do let a ← modifyGet f; return g a) : ExceptT ε (StateM σ) β).run.run s = (.ok (g (f s).1), (f s).2) := rfl

theorem run_bind (s : σ) (x : ExceptT ε (StateM σ) α) (f : α → ExceptT ε (StateM σ) β) :
    (x >>= f).run.run s =
      match x.run.run s with
      | (.ok a, s') => (f a).run.run s'
      | (.error e, s') => (.error e, s') := by
  rw [ExceptT.run_bind, StateT.run_bind]
  rcases x.run.run s with ⟨_ | _, _⟩ <;> rfl

theorem run_bind_of_eq_ok {s t : σ} {x : ExceptT ε (StateM σ) α} {f : α → ExceptT ε (StateM σ) β} {a : α}
    (done : x.run.run s = (.ok a, t)) : (x >>= f).run.run s = (f a).run.run t := by
  rw [run_bind, done]

theorem run_bind_eq_ok {s s' : σ} {x : ExceptT ε (StateM σ) α} {f : α → ExceptT ε (StateM σ) β} {b : β} :
    (x >>= f).run.run s = (.ok b, s') ↔ ∃ a t, x.run.run s = (.ok a, t) ∧ (f a).run.run t = (.ok b, s') := by
  rw [run_bind]
  rcases x.run.run s with ⟨e | a, t⟩
  · constructor
    · nofun
    · rintro ⟨a, t, ⟨⟩, -⟩
  · constructor
    · intro done
      exact ⟨a, t, rfl, done⟩
    · rintro ⟨a, t, ⟨⟩, done⟩
      exact done

end InPlace

end Interconnect
