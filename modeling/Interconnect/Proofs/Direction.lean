import Mathlib
import Interconnect.Proofs.Failure
import Interconnect.Proofs.Number.Decimal

namespace Interconnect

namespace Decimal

/-- A word in digits, after a plus sign or none. Zeros may lead. -/
inductive Spells : List Char → Nat → Prop
  | digits {ds : List Char} : ds ≠ [] → (∀ c ∈ ds, c.isDigit = true) → ofDigits ds < 2 ^ 64 →
      Spells ds (ofDigits ds)
  | plus {ds : List Char} : ds ≠ [] → (∀ c ∈ ds, c.isDigit = true) → ofDigits ds < 2 ^ 64 →
      Spells ('+' :: ds) (ofDigits ds)

theorem wordOfDigits?_eq_some {cs : List Char} {n : Nat} : wordOfDigits? cs = some n ↔ Spells cs n := by
  have read (ds : List Char) :
      (if ds.isEmpty || !ds.all Char.isDigit then none
        else if ofDigits ds < UInt64.size then some (ofDigits ds) else none) = some n ↔
        ds ≠ [] ∧ (∀ c ∈ ds, c.isDigit = true) ∧ ofDigits ds < 2 ^ 64 ∧ ofDigits ds = n := by
    rw [Option.ite_none_left_eq_some, Option.ite_none_right_eq_some]
    simp [UInt64.size, and_assoc]
  unfold wordOfDigits?
  dsimp only
  constructor
  · intro found
    split at found
    · obtain ⟨some_digit, digits, word, rfl⟩ := (read _).mp found
      exact .plus some_digit digits word
    · obtain ⟨some_digit, digits, word, rfl⟩ := (read _).mp found
      exact .digits some_digit digits word
  · intro spells
    cases spells with
    | digits some_digit digits word =>
      split
      · cases digits '+' List.mem_cons_self
      · exact (read _).mpr ⟨some_digit, digits, word, rfl⟩
    | plus some_digit digits word => exact (read _).mpr ⟨some_digit, digits, word, rfl⟩

theorem Spells.ne_underscore {cs : List Char} {n : Nat} (spells : Spells cs n) : ∀ c ∈ cs, c ≠ '_' := by
  have of_digits {ds : List Char} (digits : ∀ c ∈ ds, c.isDigit = true) : ∀ c ∈ ds, c ≠ '_' := by
    rintro c member rfl
    cases digits '_' member
  cases spells with
  | digits _ digits _ => exact of_digits digits
  | plus _ digits _ => exact List.forall_mem_cons.mpr ⟨by decide, of_digits digits⟩

theorem Spells.lt {cs : List Char} {n : Nat} (spells : Spells cs n) : n < 2 ^ 64 := by
  cases spells with
  | digits _ _ word => exact word
  | plus _ _ word => exact word

theorem spells_digits {n : Nat} (word : n < 2 ^ 64) : Spells (digits n) n := by
  have spells := Spells.digits (digits_ne_nil n) (fun _ => isDigit_of_mem_digits) (by rwa [ofDigits_digits])
  rwa [ofDigits_digits] at spells

end Decimal

def Sign.ending : Sign → List Char
  | positive => ['_', 'p', 'o', 's']
  | negative => ['_', 'n', 'e', 'g']

namespace Direction

def BelongsTo : Direction → Family → Prop
  | localPort, _ => True
  | mesh _ _, family => family = .cartesian
  | ring _, family => family = .ring
  | torus _ _, family => family = .cartesian

def IsWord (d : Direction) : Prop := ∀ dimension ∈ d.dimension?, dimension < 2 ^ 64

/-- The labels of a family, each with the direction it names. -/
inductive Names : Family → String → Direction → Prop
  | localPort (family : Family) : Names family "Local" .localPort
  | ringEast : Names .ring "East" (.ring .positive)
  | ringWest : Names .ring "West" (.ring .negative)
  | east : Names .cartesian "East" (.mesh .x .positive)
  | west : Names .cartesian "West" (.mesh .x .negative)
  | north : Names .cartesian "North" (.mesh .y .positive)
  | south : Names .cartesian "South" (.mesh .y .negative)
  | torus {label : String} {number : List Char} {dimension : Nat} {sign : Sign} :
      label.toList = "dim".toList ++ number ++ sign.ending → Decimal.Spells number dimension →
        Names .cartesian label (.torus dimension sign)

variable {family : Family} {label : String} {d : Direction} {cs : List Char}

theorem dim_toList : "dim".toList = ['d', 'i', 'm'] := rfl

theorem torusOfLabel?_eq_some :
    torusOfLabel? cs = some d ↔
      ∃ number dimension sign, cs = "dim".toList ++ number ++ sign.ending ∧ Decimal.Spells number dimension ∧
        d = .torus dimension sign := by
  constructor
  · intro read
    unfold torusOfLabel? at read
    split at read
    case h_2 => cases read
    rename_i rest
    have named (sign : Sign) (ending : rest.dropWhile (· != '_') = sign.ending)
        (read : (Decimal.wordOfDigits? (rest.takeWhile (· != '_'))).map (torus · sign) = some d) :
        ∃ number dimension sign, 'd' :: 'i' :: 'm' :: rest = "dim".toList ++ number ++ sign.ending ∧
          Decimal.Spells number dimension ∧ d = .torus dimension sign := by
      obtain ⟨dimension, spelled, rfl⟩ := Option.map_eq_some_iff.mp read
      refine ⟨_, dimension, sign, ?_, Decimal.wordOfDigits?_eq_some.mp spelled, rfl⟩
      rw [List.append_assoc, ← ending, List.takeWhile_append_dropWhile]
      rfl
    dsimp only at read
    split at read
    · exact named .positive ‹_› read
    · exact named .negative ‹_› read
    · cases read
  · rintro ⟨number, dimension, sign, rfl, spells, rfl⟩
    have apart : ∀ c ∈ number, (c != '_') = true := fun c member => bne_iff_ne.mpr (spells.ne_underscore c member)
    have found := Decimal.wordOfDigits?_eq_some.mpr spells
    have stops : sign.ending.takeWhile (· != '_') = [] ∧ sign.ending.dropWhile (· != '_') = sign.ending := by
      cases sign <;> decide
    have before : (number ++ sign.ending).takeWhile (· != '_') = number := by
      rw [List.takeWhile_append_of_pos apart, stops.1, List.append_nil]
    have behind : (number ++ sign.ending).dropWhile (· != '_') = sign.ending := by
      rw [List.dropWhile_append_of_pos apart, stops.2]
    simp only [dim_toList, List.cons_append, List.nil_append, torusOfLabel?, before, behind, found]
    cases sign <;> rfl

theorem ofLabel?_eq_some : ofLabel? family label = some d ↔ Names family label d := by
  constructor
  · intro read
    unfold ofLabel? at read
    split at read
    case h_9 =>
      obtain ⟨number, dimension, sign, spelled, spells, rfl⟩ := torusOfLabel?_eq_some.mp read
      exact .torus spelled spells
    all_goals cases read
    all_goals constructor
  · intro names
    cases names with
    | torus spelled spells =>
      have read := torusOfLabel?_eq_some.mpr ⟨_, _, _, spelled, spells, rfl⟩
      unfold ofLabel?
      split
      case h_9 => exact read
      case h_2 | h_3 | h_4 => contradiction
      all_goals
        -- the other labels begin with a capital letter
        have first : _ = some 'd' := congrArg List.head? spelled
        exact absurd first (by decide)
    | localPort family => cases family <;> rfl
    | _ => rfl

theorem names_label (belongs : d.BelongsTo family) (word : d.IsWord) : Names family d.label d := by
  cases d with
  | localPort => exact .localPort family
  | mesh axis sign =>
    cases belongs
    cases axis <;> cases sign <;> constructor
  | ring sign =>
    cases belongs
    cases sign <;> constructor
  | torus dimension sign =>
    cases belongs
    refine .torus ?_ (Decimal.spells_digits (word dimension rfl))
    cases sign <;> simp [label, Sign.ending, Decimal.digits]

theorem Names.belongs (names : Names family label d) : d.BelongsTo family ∧ d.IsWord := by
  cases names with
  | torus _ spells =>
    refine ⟨rfl, ?_⟩
    rintro dimension ⟨⟩
    exact spells.lt
  | localPort family => exact ⟨trivial, nofun⟩
  | _ => exact ⟨rfl, by rintro _ ⟨⟩; decide⟩

theorem ofLabel_eq_ok : ofLabel family label = .ok d ↔ Names family label d := by
  rw [ofLabel, orError_eq_ok, ofLabel?_eq_some]

/-- A label is read as the direction that it names, and any other string is refused by its name. Each direction of a
family is read back from the label it is given, and so is a direction that was read from another label. -/
theorem labels_read_exactly :
    (∀ family (d : Direction), d.BelongsTo family → d.IsWord → ofLabel family d.label = .ok d) ∧
    (∀ family label d, ofLabel family label = .ok d ↔ Names family label d) ∧
    (∀ family label, (∀ d, ¬ Names family label d) → ofLabel family label = .error (.unknownLabel label)) ∧
    (∀ family label d, ofLabel family label = .ok d → ofLabel family d.label = .ok d) := by
  have given {family : Family} {d : Direction} (belongs : d.BelongsTo family) (word : d.IsWord) :
      ofLabel family d.label = .ok d := ofLabel_eq_ok.mpr (names_label belongs word)
  refine ⟨fun _ _ => given, fun _ _ _ => ofLabel_eq_ok, ?_, ?_⟩
  · intro family label unnamed
    cases read : ofLabel? family label with
    | none => rw [ofLabel, read, orError]
    | some d => exact absurd (ofLabel?_eq_some.mp read) (unnamed d)
  · intro family label d read
    have names := ofLabel_eq_ok.mp read
    exact given names.belongs.1 names.belongs.2

theorem labels_read_exactly_at_bounds :
    ofLabel .cartesian (torus (2 ^ 64 - 1) .negative).label = .ok (torus (2 ^ 64 - 1) .negative) ∧
    ofLabel .cartesian "dim+007_pos" = .ok (torus 7 .positive) ∧
    ofLabel .cartesian (torus 7 .positive).label = .ok (torus 7 .positive) ∧
    ofLabel .ring "North" = .error (.unknownLabel "North") := by
  obtain ⟨given, read, refused, again⟩ := labels_read_exactly
  have greatest : (torus (2 ^ 64 - 1) .negative).IsWord := by
    rintro _ ⟨⟩
    decide
  have spelled : Decimal.Spells ['+', '0', '0', '7'] 7 :=
    @Decimal.Spells.plus ['0', '0', '7'] (by decide) (by simp) (by decide)
  have signed : Names .cartesian "dim+007_pos" (torus 7 .positive) := .torus rfl spelled
  have beside : ∀ d, ¬ Names .ring "North" d := by
    intro d names
    cases ofLabel_eq_ok.mpr names
  have numbered : ofLabel .cartesian "dim+007_pos" = .ok (torus 7 .positive) := (read ..).mpr signed
  exact ⟨given .cartesian _ rfl greatest, numbered, again .cartesian _ _ numbered, refused .ring _ beside⟩

end Direction

end Interconnect
