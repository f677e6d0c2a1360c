import Mathlib
import Interconnect.Config.Token
import Interconnect.Proofs.Number.Shortest

namespace Interconnect.Config.Token

section Scanning

variable {t : Token} {cs rest : List Char} {c : Char} {name : String}

theorem ofChars?_of_next (first : next? cs = some (t, rest)) : ofChars? cs = (ofChars? rest).map (t :: ·) := by
  cases cs with
  | nil => cases first
  | cons c cs =>
    rw [ofChars?]
    split
    · rename_i found
      rw [first] at found
      cases found
      rfl
    · rename_i found
      rw [first] at found
      cases found

theorem ofChars?_of_space (no_token : next? cs = none) (space : afterSpace? cs = some rest) :
    ofChars? cs = ofChars? rest := by
  cases cs with
  | nil => cases space
  | cons c cs =>
    rw [ofChars?]
    split
    · rename_i found
      rw [no_token] at found
      cases found
    · split
      · rename_i skipped
        rw [space] at skipped
        cases skipped
        rfl
      · rename_i skipped
        rw [space] at skipped
        cases skipped

theorem ofChars?_cons_eq_some {ts : List Token} (read : ofChars? (c :: cs) = some ts) :
    (∃ t rest others, next? (c :: cs) = some (t, rest) ∧ ofChars? rest = some others ∧ ts = t :: others) ∨
      ∃ rest, afterSpace? (c :: cs) = some rest ∧ ofChars? rest = some ts := by
  rw [ofChars?] at read
  split at read
  · rename_i t rest first
    obtain ⟨others, found, rfl⟩ := Option.map_eq_some_iff.1 read
    exact .inl ⟨t, rest, others, first, found, rfl⟩
  · split at read
    · rename_i rest space
      exact .inr ⟨rest, space, read⟩
    · cases read

def IsGap (c : Char) : Prop := c = '\t' ∨ c = '\n'

theorem ofChars?_gap (gap : IsGap c) : ofChars? (c :: cs) = ofChars? (cs.dropWhile isBlank) := by
  rcases gap with rfl | rfl <;> exact ofChars?_of_space rfl rfl

theorem ofChars?_gap_gap {d : Char} (gap : IsGap c) (next : IsGap d) :
    ofChars? (c :: d :: cs) = ofChars? (d :: cs) := by
  have blank : isBlank d = true := by rcases next with rfl | rfl <;> rfl
  rw [ofChars?_gap gap, ofChars?_gap next, List.dropWhile_cons_of_pos blank]

theorem run_append {p : Char → Bool} (all : ∀ c ∈ cs, p c = true) (stops : ∀ c ∈ rest.head?, p c = false) :
    (cs ++ rest).takeWhile p = cs ∧ (cs ++ rest).dropWhile p = rest := by
  have stopped : rest.takeWhile p = [] ∧ rest.dropWhile p = rest := by
    cases rest with
    | nil => exact ⟨rfl, rfl⟩
    | cons c rest =>
      have stop := stops c rfl
      exact ⟨List.takeWhile_cons_of_neg (by simp [stop]), List.dropWhile_cons_of_neg (by simp [stop])⟩
  rw [List.takeWhile_append_of_pos all, List.dropWhile_append_of_pos all, stopped.1, stopped.2, List.append_nil]
  exact ⟨rfl, rfl⟩

theorem ofChars?_blanks (blanks : List Char) (gap : IsGap c) (all : ∀ c ∈ blanks, isBlank c = true)
    (solid : ∀ c ∈ cs.head?, isBlank c = false) : ofChars? (c :: (blanks ++ cs)) = ofChars? cs := by
  rw [ofChars?_gap gap, (run_append all solid).2]

theorem ofChars?_gaps {gaps : List Char} (all : ∀ c ∈ gaps, IsGap c)
    (solid : ∀ c ∈ cs.head?, isBlank c = false) : ofChars? (gaps ++ cs) = ofChars? cs := by
  cases gaps with
  | nil => rfl
  | cons g gaps =>
    rw [List.forall_mem_cons] at all
    have blanks : ∀ c ∈ gaps, isBlank c = true := by
      intro c among
      rcases all.2 c among with rfl | rfl <;> rfl
    exact ofChars?_blanks gaps all.1 blanks solid

def word : Bool → List Char
  | true => "true".toList
  | false => "false".toList

theorem keyword?_eq_some :
    keyword? cs = some (t, rest) ↔
      ∃ flag, t = .boolean flag ∧ cs = word flag ++ rest ∧ rest.head?.any isLetter = false := by
  constructor
  · intro read
    unfold keyword? at read
    split at read
    · split at read
      · cases read
      · rename_i apart
        cases read
        exact ⟨true, rfl, rfl, eq_false_of_ne_true apart⟩
    · split at read
      · cases read
      · rename_i apart
        cases read
        exact ⟨false, rfl, rfl, eq_false_of_ne_true apart⟩
    · cases read
  · rintro ⟨flag, rfl, rfl, apart⟩
    cases flag <;> simp [keyword?, word, apart]

theorem isLetter_of_mem_word {flag : Bool} (among : c ∈ word flag) : isLetter c = true := by
  have all : (word flag).all isLetter = true := by cases flag <;> rfl
  exact List.all_eq_true.1 all c among

theorem keyword?_append (none_read : keyword? cs = none) (apart : rest.head?.any isLetter = false) :
    keyword? (cs ++ rest) = none := by
  rw [Option.eq_none_iff_forall_ne_some]
  rintro ⟨t, after⟩ read
  obtain ⟨flag, rfl, parts, free⟩ := keyword?_eq_some.1 read
  -- a keyword would reach into what follows, which has no letter for it, or have been there before
  rcases List.append_eq_append_iff.1 parts with ⟨within, letters, tail⟩ | ⟨left, whole, tail⟩
  · cases within with
    | nil =>
      rw [List.append_nil] at letters
      have again : keyword? cs = some (.boolean flag, []) :=
        keyword?_eq_some.2 ⟨flag, rfl, by rw [letters, List.append_nil], rfl⟩
      rw [none_read] at again
      cases again
    | cons c within =>
      have among : c ∈ word flag := by simp [letters]
      have letter := isLetter_of_mem_word among
      rw [tail, List.cons_append, List.head?_cons, Option.any_some, letter] at apart
      cases apart
  · have unbroken : left.head?.any isLetter = false := by
      cases left with
      | nil => rfl
      | cons c left =>
        rw [tail] at free
        exact free
    have again := keyword?_eq_some.2 ⟨flag, rfl, whole, unbroken⟩
    rw [none_read] at again
    cases again

theorem number?_of_head (digit : c.isDigit = false) (minus : c ≠ '-') (point : c ≠ '.') :
    number? (c :: cs) = none := by
  simp [number?, unsignedNumber?, fraction, digit, minus, point]

theorem literal?_of_head (quote : c ≠ '"') : literal? (c :: cs) = none := by
  simp [literal?, quote]

theorem unsignedNumber?_ne_name {negative : Bool} : unsignedNumber? negative cs ≠ some (.name name, rest) := by
  intro read
  unfold unsignedNumber? at read
  dsimp only at read
  split at read <;> cases read

theorem number?_ne_name : number? cs ≠ some (.name name, rest) := by
  unfold number?
  split <;> exact unsignedNumber?_ne_name

theorem literal?_ne_name : literal? cs ≠ some (.name name, rest) := by
  intro read
  unfold literal? at read
  split at read
  · simp only [Option.bind_eq_bind, Option.bind_eq_some_iff] at read
    obtain ⟨text, -, after, -, same⟩ := read
    cases same
  · cases read

theorem mark?_ne_name : mark? cs ≠ some (.name name, rest) := by
  intro read
  unfold mark? at read
  split at read <;> cases read

theorem next?_eq_name (read : next? cs = some (.name name, rest)) :
    keyword? cs = none ∧ name? cs = some (.name name, rest) := by
  simp only [next?, Option.orElse_eq_orElse, Option.orElse_eq_or, Option.or_eq_some_iff] at read
  rcases read with read | ⟨no_word, read | ⟨-, read | ⟨-, read | ⟨-, read⟩⟩⟩⟩
  · obtain ⟨flag, same, -⟩ := keyword?_eq_some.1 read
    cases same
  · cases number?_ne_name read
  · cases literal?_ne_name read
  · exact ⟨no_word, read⟩
  · cases mark?_ne_name read

theorem name?_eq_some (read : name? (c :: cs) = some (.name name, rest)) :
    isNameStart c = true ∧ name.toList = c :: cs.takeWhile isNamePart := by
  unfold name? at read
  dsimp only at read
  split at read
  · rename_i starts
    cases read
    exact ⟨starts, String.toList_ofList⟩
  · cases read

theorem length_of_mem_ofChars? {ts : List Token} (read : ofChars? cs = some ts) (among : .name name ∈ ts) :
    name.toList.length ≤ cs.length := by
  induction size : cs.length using Nat.strong_induction_on generalizing cs ts with
  | _ n ih =>
    cases cs with
    | nil =>
      rw [ofChars?] at read
      cases read
      cases among
    | cons c cs =>
      rcases ofChars?_cons_eq_some read with ⟨t, rest, others, first, found, rfl⟩ | ⟨rest, space, found⟩
      · rcases List.mem_cons.1 among with rfl | later
        · rw [(name?_eq_some (next?_eq_name first).2).2, ← size]
          exact Nat.succ_le_succ (List.takeWhile_prefix _).length_le
        · have shorter := next?_length_lt first
          have bound := ih rest.length (by omega) found later rfl
          omega
      · have shorter := afterSpace?_length_lt space
        have bound := ih rest.length (by omega) found among rfl
        omega

theorem name_chars (read : ofText? name = some [.name name]) :
    ∃ c cs, name.toList = c :: cs ∧ isNameStart c = true ∧ (∀ d ∈ cs, isNamePart d = true) ∧
      keyword? (c :: cs) = none := by
  unfold ofText? at read
  cases chars : name.toList with
  | nil =>
    rw [chars, ofChars?] at read
    cases read
  | cons c cs =>
    rw [chars] at read
    rcases ofChars?_cons_eq_some read with ⟨t, rest, others, first, -, same⟩ | ⟨rest, space, found⟩
    · cases same
      obtain ⟨no_word, scanned⟩ := next?_eq_name first
      obtain ⟨starts, spelled⟩ := name?_eq_some scanned
      rw [chars, List.cons.injEq] at spelled
      exact ⟨c, cs, rfl, starts, List.takeWhile_eq_self_iff.1 spelled.2.symm, no_word⟩
    · -- behind a blank there is too little text left for the whole name
      have shorter := afterSpace?_length_lt space
      have bound := length_of_mem_ofChars? found List.mem_cons_self
      rw [chars] at bound
      omega

end Scanning

section Written

variable {c : Char} {cs rest : List Char}

def Closed (rest : List Char) : Prop := ∀ c ∈ rest.head?, c = ','

theorem closed_nil : Closed [] := by simp [Closed]

theorem closed_comma : Closed (',' :: rest) := by simp [Closed]

theorem next?_mark {t : Token} (mark : mark? (c :: cs) = some (t, cs)) : next? (c :: cs) = some (t, cs) := by
  unfold mark? at mark
  split at mark
  all_goals
    rename_i chars
    cases mark
  all_goals
    cases chars
    rfl

theorem next?_word {flag : Bool} (closed : Closed rest) : next? (word flag ++ rest) = some (.boolean flag, rest) := by
  have apart : rest.head?.any isLetter = false := by
    cases rest with
    | nil => rfl
    | cons c rest =>
      rw [closed c rfl]
      rfl
  have read := keyword?_eq_some.2 ⟨flag, rfl, rfl, apart⟩
  simp [next?, read]

theorem le_of_isNameStart (starts : isNameStart c = true) : 65 ≤ c.toNat := by
  simp only [isNameStart, isLetter, Char.isAlpha, Char.isUpper, Char.isLower, Bool.or_eq_true, Bool.and_eq_true,
    decide_eq_true_eq, beq_iff_eq, UInt32.le_iff_toNat_le, ge_iff_le] at starts
  rcases starts with ((upper | lower) | rfl) | beyond
  · exact upper.1
  · exact Nat.le_trans (by decide) lower.1
  · decide
  · exact Nat.le_trans (by decide) beyond.1

theorem isDigit_bounds (digit : c.isDigit = true) : 48 ≤ c.toNat ∧ c.toNat ≤ 57 := by
  simp only [Char.isDigit, Bool.and_eq_true, decide_eq_true_eq, UInt32.le_iff_toNat_le] at digit
  exact digit

theorem isDigit_of_isNameStart (starts : isNameStart c = true) : c.isDigit = false := by
  have above := le_of_isNameStart starts
  by_contra digit
  have bounds := isDigit_bounds (eq_true_of_ne_false digit)
  omega

def EndsName (rest : List Char) : Prop := ∀ c ∈ rest.head?, isNamePart c = false

theorem endsName_cons (stops : isNamePart c = false) : EndsName (c :: cs) := by
  rintro d ⟨⟩
  exact stops

theorem next?_name (starts : isNameStart c = true) (parts : ∀ d ∈ cs, isNamePart d = true)
    (no_word : keyword? (c :: cs) = none) (ends : EndsName rest) :
    next? (c :: cs ++ rest) = some (.name (String.ofList (c :: cs)), rest) := by
  have minus : c ≠ '-' := by
    rintro rfl
    cases starts
  have point : c ≠ '.' := by
    rintro rfl
    cases starts
  have quote : c ≠ '"' := by
    rintro rfl
    cases starts
  have apart : rest.head?.any isLetter = false := by
    cases rest with
    | nil => rfl
    | cons d rest =>
      have stops := ends d rfl
      simp only [isNamePart, isNameStart, Bool.or_eq_false_iff] at stops
      exact stops.1.1
  have unread := keyword?_append no_word apart
  obtain ⟨taken, left⟩ := run_append parts ends
  rw [List.cons_append] at unread ⊢
  simp [next?, unread, number?_of_head (isDigit_of_isNameStart starts) minus point, literal?_of_head quote, name?,
    starts, taken, left]

theorem ofText?_eq_name_iff {name : String} :
    ofText? name = some [.name name] ↔
      ∃ c cs, name.toList = c :: cs ∧ isNameStart c = true ∧ cs.all isNamePart = true ∧
        keyword? (c :: cs) = none := by
  constructor
  · intro read
    obtain ⟨c, cs, chars, starts, parts, no_word⟩ := name_chars read
    exact ⟨c, cs, chars, starts, List.all_eq_true.2 parts, no_word⟩
  · rintro ⟨c, cs, chars, starts, all, no_word⟩
    have parts := List.all_eq_true.1 all
    have ends : EndsName [] := by simp [EndsName]
    have first := next?_name starts parts no_word ends
    rw [List.append_nil, ← chars, String.ofList_toList] at first
    have nothing : ofChars? [] = some [] := by rw [ofChars?]
    rw [ofText?, ofChars?_of_next first, nothing]
    rfl

theorem keyword?_of_head (apart : isLetter c = false) : keyword? (c :: cs) = none := by
  rw [Option.eq_none_iff_forall_ne_some]
  rintro ⟨t, after⟩ read
  obtain ⟨flag, -, parts, -⟩ := keyword?_eq_some.1 read
  have among : c ∈ word flag := by
    cases flag <;> exact (List.cons.inj parts).1 ▸ List.mem_cons_self
  rw [isLetter_of_mem_word among] at apart
  cases apart

theorem exponent_closed (closed : Closed rest) : exponent rest = (0, rest) := by
  cases rest with
  | nil => rfl
  | cons c rest =>
    rw [closed c rfl]
    rfl

theorem Closed.no_digit (closed : Closed rest) : ∀ c ∈ rest.head?, c.isDigit = false := by
  intro c first
  rw [closed c first]
  rfl

theorem fraction_pointed {places : List Char} (fractional : ∀ c ∈ places, c.isDigit = true) (closed : Closed rest) :
    fraction (Decimal.pointed places ++ rest) = (places, rest) := by
  cases places with
  | nil =>
    cases rest with
    | nil => rfl
    | cons c rest =>
      rw [closed c rfl]
      rfl
  | cons d places =>
    obtain ⟨taken, left⟩ := run_append fractional closed.no_digit
    simp only [Decimal.pointed, List.cons_append, fraction] at taken left ⊢
    simp only [taken, left]

theorem unsignedNumber?_pointed {negative : Bool} {whole places : List Char} (some_digit : whole ≠ [])
    (digits : ∀ c ∈ whole, c.isDigit = true) (fractional : ∀ c ∈ places, c.isDigit = true) (closed : Closed rest) :
    unsignedNumber? negative (whole ++ (Decimal.pointed places ++ rest)) =
      some (.number (Binary64.ofDecimal negative (Decimal.ofPlaces whole places)), rest) := by
  have stops : ∀ c ∈ (Decimal.pointed places ++ rest).head?, c.isDigit = false := by
    cases places with
    | nil => exact closed.no_digit
    | cons d places =>
      rintro c ⟨⟩
      rfl
  obtain ⟨taken, left⟩ := run_append digits stops
  simp [unsignedNumber?, taken, left, fraction_pointed fractional closed, exponent_closed closed, some_digit,
    Decimal.ofPlaces]

theorem unsignedNumber?_positional (negative : Bool) (d : Decimal) (closed : Closed rest) :
    unsignedNumber? negative (d.positional ++ rest) =
      some (.number (Binary64.ofDecimal negative d), rest) := by
  obtain ⟨whole, places, shown, some_digit, digits, fractional, same⟩ := d.positional_reads_back
  rw [shown, List.append_assoc, unsignedNumber?_pointed some_digit digits fractional closed]
  unfold Binary64.ofDecimal
  rw [Binary64.codeOfDecimal_rescaled same]

theorem next?_digit (digit : c.isDigit = true) {t : Token}
    (read : unsignedNumber? false (c :: cs) = some (t, rest)) : next? (c :: cs) = some (t, rest) := by
  have bounds := isDigit_bounds digit
  have apart : isLetter c = false := by
    by_contra letter
    have above := le_of_isNameStart (c := c) (by simp [isNameStart, letter])
    omega
  have minus : c ≠ '-' := by
    rintro rfl
    cases digit
  have number : number? (c :: cs) = some (t, rest) := by
    unfold number?
    split
    · rename_i same
      cases same
      cases minus rfl
    · exact read
  simp [next?, keyword?_of_head apart, number]

theorem next?_minus {t : Token} (read : unsignedNumber? true cs = some (t, rest)) :
    next? ('-' :: cs) = some (t, rest) := by
  have no_word : keyword? ('-' :: cs) = none := rfl
  simp [next?, no_word, number?, read]

theorem next?_number {x : Binary64} (finite : x.isFinite = true) (closed : Closed rest) :
    next? (x.render ++ rest) = some (.number x, rest) := by
  obtain ⟨d, rounded, shown⟩ := Binary64.render_finite finite
  have same : Binary64.ofDecimal x.negative d = x := by
    rw [Binary64.ofDecimal, rounded, Binary64.ofCode_code]
  have read := unsignedNumber?_positional x.negative d closed
  rw [same] at read
  cases sign : x.negative with
  | true =>
    rw [sign] at read shown
    rw [shown]
    exact next?_minus read
  | false =>
    rw [sign] at read shown
    rw [shown]
    obtain ⟨whole, places, written, some_digit, digits, -⟩ := d.positional_reads_back
    cases whole with
    | nil => cases some_digit rfl
    | cons c whole =>
      rw [written] at read ⊢
      exact next?_digit (digits c List.mem_cons_self) read

/-- A character other than quote and backslash, or a backslash with the character after it, again and again. -/
def quotable : List Char → Bool
  | [] => true
  | '\\' :: _ :: rest => quotable rest
  | ['\\'] => false
  | c :: rest => c != '"' && quotable rest

theorem quotedText?_quotable (quote : quotable cs = true) : quotedText? (cs ++ '"' :: rest) = some cs := by
  fun_induction quotable cs with
  | case1 => rfl
  | case2 c cs ih => simp [quotedText?, ih quote]
  | case3 => cases quote
  | case4 c cs no_escape no_slash ih =>
    simp only [Bool.and_eq_true, bne_iff_ne] at quote
    have slash : c ≠ '\\' := by
      rintro rfl
      cases cs with
      | nil => exact no_slash rfl rfl
      | cons d cs => exact no_escape d cs rfl rfl
    simp [quotedText?, quote.1, slash, ih quote.2]

theorem dropBytes?_ascii (rest : List Char) (ascii : ∀ c ∈ cs, c.toNat < 128) :
    dropBytes? cs.length (cs ++ rest) = some rest := by
  induction cs with
  | nil => simp [dropBytes?]
  | cons c cs ih =>
    rw [List.forall_mem_cons] at ascii
    have size : c.utf8Size = 1 := by
      rw [Char.utf8Size_eq_one_iff, UInt32.le_iff_toNat_le]
      exact Nat.le_of_lt_succ ascii.1
    simp [dropBytes?, size, ih ascii.2]

theorem next?_literal (quote : quotable cs = true) (ascii : ∀ c ∈ cs, c.toNat < 128) :
    next? ('"' :: (cs ++ '"' :: rest)) = some (.literal (String.ofList cs), rest) := by
  have no_word : keyword? ('"' :: (cs ++ '"' :: rest)) = none := rfl
  have no_number : number? ('"' :: (cs ++ '"' :: rest)) = none := rfl
  -- characters are counted and bytes are dropped, which is the same for these
  have dropped : dropBytes? (cs.length + 1) (cs ++ '"' :: rest) = some rest := by
    have all : ∀ c ∈ cs ++ ['"'], c.toNat < 128 := by
      intro c among
      rcases List.mem_append.1 among with inner | last
      · exact ascii c inner
      · rw [List.mem_singleton.1 last]
        decide
    have dropped := dropBytes?_ascii rest all
    rwa [List.length_append, List.append_assoc] at dropped
  simp [next?, no_word, no_number, literal?, quotedText?_quotable quote, dropped]

end Written

end Interconnect.Config.Token
