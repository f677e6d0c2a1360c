import Mathlib
import Interconnect.Config.Typed
import Interconnect.Proofs.Config.Token

namespace Interconnect.Config

namespace Token

section Words

variable {t : Token} {cs rest : List Char} {c : Char}

def Separates (rest : List Char) : Prop := ∀ c ∈ rest.head?, c = '/' ∨ isBlank c = true ∧ isNameStart c = false

theorem ne_of_isBlank (blank : isBlank c = true) {d : Char} (solid : isBlank d = false) : c ≠ d := by
  intro same
  rw [same, solid] at blank
  cases blank

theorem isDigit_of_isBlank (blank : isBlank c = true) : c.isDigit = false := by
  by_contra digit
  have bounds := isDigit_bounds (eq_true_of_ne_false digit)
  simp only [isBlank, Bool.or_eq_true, Bool.and_eq_true, decide_eq_true_eq, beq_iff_eq] at blank
  omega

theorem Separates.no_part (separates : Separates rest) : EndsName rest := by
  intro c first
  rcases separates c first with rfl | ⟨blank, starts⟩
  · rfl
  · simp [isNamePart, starts, isDigit_of_isBlank blank]

theorem Separates.ne (separates : Separates (c :: rest)) {d : Char} (solid : isBlank d = false) (other : d ≠ '/') :
    c ≠ d := by
  rcases separates c rfl with rfl | ⟨blank, -⟩
  · exact other.symm
  · exact ne_of_isBlank blank solid

theorem Separates.no_letter (separates : Separates rest) : rest.head?.any isLetter = false := by
  cases rest with
  | nil => rfl
  | cons c rest =>
    have part := separates.no_part c rfl
    simp only [isNamePart, isNameStart, Bool.or_eq_false_iff] at part
    exact part.1.1

theorem Separates.no_digit (separates : Separates rest) : ∀ c ∈ rest.head?, c.isDigit = false := by
  intro c first
  have part := separates.no_part c first
  simp only [isNamePart, Bool.or_eq_false_iff] at part
  exact part.2

theorem scan_append {p : Char → Bool} (cs : List Char) (stops : ∀ c ∈ rest.head?, p c = false) :
    (cs ++ rest).takeWhile p = cs.takeWhile p ∧ (cs ++ rest).dropWhile p = cs.dropWhile p ++ rest := by
  induction cs with
  | nil => exact run_append nofun stops
  | cons c cs ih =>
    rw [List.cons_append]
    cases inside : p c with
    | true => simp only [List.takeWhile_cons, List.dropWhile_cons, inside, if_true, ih.1, ih.2, and_self]
    | false => simp [inside]

theorem fraction_append (separates : Separates rest) (cs : List Char) :
    fraction (cs ++ rest) = ((fraction cs).1, (fraction cs).2 ++ rest) := by
  have scan := fun cs => scan_append (p := Char.isDigit) cs separates.no_digit
  cases cs with
  | nil =>
    cases rest with
    | nil => rfl
    | cons c rest =>
      have point := separates.ne (d := '.') rfl (by decide)
      simp [fraction, point]
  | cons c cs =>
    by_cases point : c = '.'
    · rw [point]
      simp only [List.cons_append, fraction, (scan cs).1, (scan cs).2]
      cases cs.takeWhile Char.isDigit <;> rfl
    · simp [fraction, point]

theorem sign_append (separates : Separates rest) (cs : List Char) :
    sign (cs ++ rest) = ((sign cs).1, (sign cs).2 ++ rest) := by
  cases cs with
  | nil =>
    cases rest with
    | nil => rfl
    | cons c rest =>
      have minus := separates.ne (d := '-') rfl (by decide)
      have plus := separates.ne (d := '+') rfl (by decide)
      simp [sign, minus, plus]
  | cons c cs =>
    by_cases minus : c = '-'
    · rw [minus]
      rfl
    · by_cases plus : c = '+'
      · rw [plus]
        rfl
      · simp [sign, minus, plus]

theorem exponent_append (separates : Separates rest) (cs : List Char) :
    exponent (cs ++ rest) = ((exponent cs).1, (exponent cs).2 ++ rest) := by
  have scan := fun cs => scan_append (p := Char.isDigit) cs separates.no_digit
  cases cs with
  | nil =>
    cases rest with
    | nil => rfl
    | cons c rest =>
      have lower := separates.ne (d := 'e') rfl (by decide)
      have upper := separates.ne (d := 'E') rfl (by decide)
      simp [exponent, lower, upper]
  | cons c cs =>
    by_cases power : c = 'e' ∨ c = 'E'
    · simp only [List.cons_append, exponent, if_pos power, sign_append separates, (scan _).1, (scan _).2]
      cases (sign cs).2.takeWhile Char.isDigit <;> rfl
    · simp only [List.cons_append, exponent, if_neg power]

theorem unsignedNumber?_append (separates : Separates rest) {negative : Bool}
    (read : unsignedNumber? negative cs = some (t, [])) : unsignedNumber? negative (cs ++ rest) = some (t, rest) := by
  have scan := scan_append (p := Char.isDigit) cs separates.no_digit
  simp only [unsignedNumber?, scan.1, scan.2, fraction_append separates, exponent_append separates] at read ⊢
  split at read
  · cases read
  · rename_i some_digit
    rw [if_neg some_digit]
    simp only [Option.some.injEq, Prod.mk.injEq] at read ⊢
    exact ⟨read.1, by rw [read.2, List.nil_append]⟩

theorem number?_append (separates : Separates rest) (read : number? cs = some (t, [])) :
    number? (cs ++ rest) = some (t, rest) := by
  cases cs with
  | nil => cases read
  | cons c cs =>
    by_cases minus : c = '-'
    · rw [minus] at read ⊢
      exact unsignedNumber?_append separates read
    · simp only [number?, List.cons_append] at read ⊢
      split at read
      · rename_i same
        exact absurd (List.cons.inj same).1 minus
      · split
        · rename_i same
          exact absurd (List.cons.inj same).1 minus
        · exact unsignedNumber?_append separates read

theorem quotedText?_append {text : List Char} (read : quotedText? cs = some text) (rest : List Char) :
    quotedText? (cs ++ rest) = some text := by
  fun_induction quotedText? cs generalizing text with
  | case1 => cases read
  | case2 cs => exact read
  | case3 c cs ih =>
    rcases Option.map_eq_some_iff.1 read with ⟨inner, found, rfl⟩
    simp [quotedText?, ih found]
  | case4 => cases read
  | case5 c cs no_quote no_escape no_slash ih =>
    rcases Option.map_eq_some_iff.1 read with ⟨inner, found, rfl⟩
    have slash : c ≠ '\\' := by
      intro same
      cases cs with
      | nil => exact no_slash same rfl
      | cons d cs => exact no_escape d cs same rfl
    simp [quotedText?, slash, ih found]

theorem dropBytes?_append {n : Nat} {after : List Char} (dropped : dropBytes? n cs = some after) (rest : List Char) :
    dropBytes? n (cs ++ rest) = some (after ++ rest) := by
  fun_induction dropBytes? n cs with
  | case1 cs =>
    cases dropped
    rw [dropBytes?]
  | case2 => cases dropped
  | case3 n c cs fits ih =>
    rw [List.cons_append, dropBytes?, if_pos fits]
    exact ih dropped
  | case4 => cases dropped

theorem literal?_append (read : literal? cs = some (t, [])) (rest : List Char) :
    literal? (cs ++ rest) = some (t, rest) := by
  unfold literal? at read
  split at read
  · rename_i cs
    simp only [Option.bind_eq_bind, Option.bind_eq_some_iff, Option.some.injEq, Prod.mk.injEq] at read
    rcases read with ⟨text, quoted, after, dropped, rfl, rfl⟩
    simp [literal?, quotedText?_append quoted, dropBytes?_append dropped]
  · cases read

theorem next?_of_literal (read : literal? cs = some (t, rest)) : next? cs = some (t, rest) := by
  cases cs with
  | nil => cases read
  | cons c cs =>
    have quote : c = '"' := by
      by_contra other
      rw [literal?_of_head other] at read
      cases read
    rw [quote] at read ⊢
    have no_word : keyword? ('"' :: cs) = none := rfl
    have no_number : number? ('"' :: cs) = none := rfl
    simp [next?, no_word, no_number, read]

theorem mark?_append (read : mark? cs = some (t, [])) (rest : List Char) : mark? (cs ++ rest) = some (t, rest) := by
  unfold mark? at read
  split at read
  all_goals cases read
  all_goals rfl

theorem next?_append (separates : Separates rest) (read : next? cs = some (t, [])) :
    next? (cs ++ rest) = some (t, rest) := by
  simp only [next?, Option.orElse_eq_orElse, Option.orElse_eq_or, Option.or_eq_some_iff] at read
  rcases read with word | ⟨no_word, number | ⟨-, literal | ⟨-, name | ⟨-, mark⟩⟩⟩⟩
  · rcases keyword?_eq_some.1 word with ⟨flag, same, rfl, -⟩
    rw [List.append_nil]
    have read := keyword?_eq_some.2 ⟨flag, same, rfl, separates.no_letter⟩
    simp [next?, read]
  · have unread := keyword?_append no_word separates.no_letter
    simp [next?, unread, number?_append separates number]
  · exact next?_of_literal (literal?_append literal rest)
  · cases cs with
    | nil => cases name
    | cons c cs =>
      simp only [name?] at name
      split at name
      · rename_i starts
        simp only [Option.some.injEq, Prod.mk.injEq] at name
        rcases name with ⟨rfl, whole⟩
        have parts := List.dropWhile_eq_nil_iff.1 whole
        rw [List.takeWhile_eq_self_iff.2 parts]
        exact next?_name starts parts no_word separates.no_part
      · cases name
  · cases cs with
    | nil => cases mark
    | cons c cs =>
      have alone : cs = [] := by
        unfold mark? at mark
        split at mark <;> simp_all
      subst alone
      exact next?_mark (mark?_append mark rest)

end Words

section Comments

variable {cs body rest : List Char} {c : Char} {stars : Nat}

def HasEnd (cs : List Char) : Prop := ['*', '/'] <:+: cs

instance : Decidable (HasEnd cs) := inferInstanceAs (Decidable (_ <:+: _))

theorem hasEnd_cons : HasEnd (c :: cs) ↔ c = '*' ∧ cs.head? = some '/' ∨ HasEnd cs := by
  unfold HasEnd
  rw [List.infix_cons_iff, List.cons_prefix_cons]
  cases cs with
  | nil => simp
  | cons d cs => simp [List.cons_prefix_cons, eq_comm]

theorem hasEnd_stars (other : c ≠ '*') (apart : c = '/' → stars = 0) :
    HasEnd (List.replicate stars '*' ++ c :: cs) ↔ HasEnd cs := by
  induction stars with
  | zero => simp [hasEnd_cons, other]
  | succ stars ih =>
    have no_slash : c ≠ '/' := fun slash => nomatch apart slash
    have within := ih (fun slash => absurd slash no_slash)
    rw [List.replicate_succ, List.cons_append, hasEnd_cons, within]
    cases stars <;> simp [no_slash, List.replicate_succ]

theorem stars_append : List.replicate (stars + 1) '*' ++ cs = List.replicate stars '*' ++ '*' :: cs := by
  rw [List.replicate_succ', List.append_assoc]
  rfl

theorem afterComment?_star : afterComment? stars ('*' :: cs) = afterComment? (stars + 1) cs := by
  simp [afterComment?]

theorem afterComment?_slash : afterComment? (stars + 1) ('/' :: cs) =
    some (if stars = 0 then cs else (afterComment? 0 cs).getD cs) := by
  cases stars <;> simp [afterComment?]

theorem afterComment?_other (other : c ≠ '*') (apart : c = '/' → stars = 0) :
    afterComment? stars (c :: cs) = afterComment? 0 cs := by
  by_cases slash : c = '/'
  · simp [afterComment?, slash, apart slash]
  · simp [afterComment?, slash, other]

theorem afterComment?_eq_none_iff : afterComment? stars cs = none ↔ ¬ HasEnd (List.replicate stars '*' ++ cs) := by
  induction cs generalizing stars with
  | nil =>
    have no_end : ¬ HasEnd (List.replicate stars '*') := by
      intro found
      have slash : '/' ∈ List.replicate stars '*' := found.subset (by simp)
      cases List.eq_of_mem_replicate slash
    rw [List.append_nil]
    exact ⟨fun _ => no_end, fun _ => rfl⟩
  | cons c cs ih =>
    by_cases star : c = '*'
    · rw [star, afterComment?_star, ih, stars_append]
    · by_cases closes : c = '/' ∧ stars ≠ 0
      · rcases closes with ⟨rfl, some_star⟩
        rcases Nat.exists_eq_succ_of_ne_zero some_star with ⟨before, rfl⟩
        have found : HasEnd (List.replicate (before + 1) '*' ++ '/' :: cs) := by
          rw [stars_append]
          exact ⟨List.replicate before '*', cs, by simp⟩
        rw [Nat.succ_eq_add_one, afterComment?_slash]
        exact ⟨nofun, fun no_end => absurd found no_end⟩
      · have apart : c = '/' → stars = 0 := fun slash => by_contra fun some_star => closes ⟨slash, some_star⟩
        rw [hasEnd_stars star apart, afterComment?_other star apart, ih]
        rfl

theorem afterComment?_body (open_still : ¬ HasEnd (List.replicate stars '*' ++ body)) :
    afterComment? stars (body ++ '*' :: '/' :: rest) =
      some (if (List.replicate stars '*' ++ body).getLast? = some '*' then (afterComment? 0 rest).getD rest
        else rest) := by
  induction body generalizing stars with
  | nil =>
    rw [List.nil_append, afterComment?_star, afterComment?_slash]
    cases stars <;> simp [List.replicate_succ']
  | cons c body ih =>
    by_cases star : c = '*'
    · rw [star, ← stars_append] at open_still ⊢
      rw [List.cons_append, afterComment?_star]
      exact ih open_still
    · have apart : c = '/' → stars = 0 := by
        intro slash
        by_contra some_star
        rcases Nat.exists_eq_succ_of_ne_zero some_star with ⟨before, rfl⟩
        rw [slash, Nat.succ_eq_add_one, stars_append] at open_still
        exact open_still ⟨List.replicate before '*', body, by simp⟩
      rw [hasEnd_stars star apart] at open_still
      rw [List.cons_append, afterComment?_other star apart]
      have inner := @ih 0 open_still
      cases body with
      | nil => simpa [star] using inner
      | cons d body => simpa using inner

theorem afterComment?_length_lt {after : List Char} (found : afterComment? 0 cs = some after) :
    after.length < cs.length := by
  cases cs with
  | nil => cases found
  | cons c cs =>
    apply Nat.lt_succ_of_le
    by_cases star : c = '*'
    · rw [star, afterComment?_star] at found
      exact afterComment?_length_le found
    · rw [afterComment?_other star (fun _ => rfl)] at found
      exact afterComment?_length_le found

theorem afterComment?_body_iff (open_still : ¬ HasEnd body) :
    afterComment? 0 (body ++ '*' :: '/' :: rest) = some rest ↔ (body.getLast? = some '*' → ¬ HasEnd rest) := by
  have none_iff := @afterComment?_eq_none_iff rest 0
  have left := @afterComment?_body body rest 0 open_still
  rw [List.replicate_zero, List.nil_append] at none_iff left
  rw [left, Option.some.injEq]
  by_cases last : body.getLast? = some '*'
  · rw [if_pos last, ← none_iff]
    cases later : afterComment? 0 rest with
    | none => exact ⟨fun _ _ => rfl, fun _ => rfl⟩
    | some after =>
      have shorter := afterComment?_length_lt later
      apply iff_of_false
      · intro same
        rw [Option.getD_some] at same
        rw [same] at shorter
        exact Nat.lt_irrefl _ shorter
      · intro never
        cases never last
  · rw [if_neg last]
    exact ⟨fun _ ends => absurd ends last, fun _ => rfl⟩

end Comments

section Blanks

variable {rest : List Char} {c : Char}

theorem next?_blank (blank : isBlank c = true) (starts : isNameStart c = false) : next? (c :: rest) = none := by
  have letter : isLetter c = false := by
    simp only [isNameStart, Bool.or_eq_false_iff] at starts
    exact starts.1
  have digit := isDigit_of_isBlank blank
  have minus := ne_of_isBlank blank (d := '-') rfl
  have point := ne_of_isBlank blank (d := '.') rfl
  have quote := ne_of_isBlank blank (d := '"') rfl
  have unmarked : mark? (c :: rest) = none := by
    rw [Option.eq_none_iff_forall_ne_some]
    intro found read
    unfold mark? at read
    split at read
    all_goals
      rename_i same
      cases read
    all_goals
      cases same
      cases blank
  simp [next?, keyword?_of_head letter, number?_of_head digit minus point, literal?_of_head quote, name?, starts,
    unmarked]

theorem next?_of_isNameStart (starts : isNameStart c = true) : next? (c :: rest) ≠ none := by
  simp [next?, name?, starts]

theorem afterSpace?_blank (blank : isBlank c = true) : afterSpace? (c :: rest) = some (rest.dropWhile isBlank) := by
  have slash := ne_of_isBlank blank (d := '/') rfl
  unfold afterSpace?
  split
  · rename_i same
    exact absurd (List.cons.inj same).1 slash
  · rename_i same
    exact absurd (List.cons.inj same).1 slash
  · rename_i same
    cases same
    rw [if_pos blank]
  · rename_i same
    cases same

theorem dropWhile_solid (solid : ∀ c ∈ rest.head?, isBlank c = false) : rest.dropWhile isBlank = rest := by
  cases rest with
  | nil => rfl
  | cons c rest => exact List.dropWhile_cons_of_neg (by simp [solid c rfl])

theorem isNameStart_of_ascii (ascii : c.toNat < 128) (blank : isBlank c = true) : isNameStart c = false := by
  by_contra starts
  have above := le_of_isNameStart (eq_true_of_ne_false starts)
  simp only [isBlank, Bool.or_eq_true, Bool.and_eq_true, decide_eq_true_eq, beq_iff_eq] at blank
  omega

end Blanks

end Token

open Token (next? afterSpace? ofChars? ofText? isNameStart HasEnd Separates)

/-- What may stand between two tokens. -/
inductive Filler where
  | blank (c : Char) (blank : isBlank c = true)
  | line (body : List Char) (one_line : '\n' ∉ body)
  | block (body : List Char) (open_still : ¬ HasEnd body)

namespace Filler

def text : Filler → List Char
  | blank c _ => [c]
  | line body _ => '/' :: '/' :: (body ++ ['\n'])
  | block body _ => '/' :: '*' :: (body ++ ['*', '/'])

def isBlank : Filler → Bool
  | blank _ _ => true
  | _ => false

def Skipped (f : Filler) (rest : List Char) : Prop :=
  next? (f.text ++ rest) = none ∧ afterSpace? (f.text ++ rest) = some rest

/-- A blank must not begin a name, and a block comment that ends in more stars than one must be the last. -/
def Ends (rest : List Char) : Filler → Prop
  | blank c _ => isNameStart c = false
  | line _ _ => True
  | block body _ => body.getLast? = some '*' → ¬ HasEnd rest

theorem skipped_line (body : List Char) (one_line : '\n' ∉ body) (rest : List Char) :
    (line body one_line).Skipped rest := by
  have inside : ∀ c ∈ body, (c != '\n') = true := by
    intro c among
    rw [bne_iff_ne]
    intro same
    exact one_line (same ▸ among)
  have stops : ∀ c ∈ ('\n' :: rest).head?, (c != '\n') = false := by simp
  have scan := Token.run_append inside stops
  apply And.intro
  · rfl
  · show afterSpace? ('/' :: '/' :: (body ++ ['\n'] ++ rest)) = some rest
    rw [List.append_assoc]
    show (List.dropWhile _ (body ++ '\n' :: rest)).tail? = some rest
    rw [scan.2]
    rfl

theorem skipped_block_iff (body : List Char) (open_still : ¬ HasEnd body) (rest : List Char) :
    (block body open_still).Skipped rest ↔ (body.getLast? = some '*' → ¬ HasEnd rest) := by
  rw [← Token.afterComment?_body_iff open_still]
  have spelled : (block body open_still).text ++ rest = '/' :: '*' :: (body ++ '*' :: '/' :: rest) := by
    simp [text]
  unfold Skipped
  rw [spelled]
  exact ⟨And.right, fun left => ⟨rfl, left⟩⟩

theorem skipped_blank_iff (c : Char) (blank : Interconnect.isBlank c = true) {rest : List Char}
    (solid : ∀ d ∈ rest.head?, Interconnect.isBlank d = false) :
    (Filler.blank c blank).Skipped rest ↔ isNameStart c = false := by
  apply Iff.intro
  · intro skipped
    by_contra starts
    exact Token.next?_of_isNameStart (eq_true_of_ne_false starts) skipped.1
  · intro starts
    apply And.intro
    · exact Token.next?_blank blank starts
    · show afterSpace? (c :: rest) = some rest
      rw [Token.afterSpace?_blank blank, Token.dropWhile_solid solid]

theorem skipped_comment (f : Filler) (comment : f.isBlank = false) {rest : List Char} (ends : f.Ends rest) :
    f.Skipped rest := by
  cases f with
  | blank c blank => cases comment
  | line body one_line => exact skipped_line body one_line rest
  | block body open_still => exact (skipped_block_iff body open_still rest).2 ends

theorem solid_comment (f : Filler) (comment : f.isBlank = false) (rest : List Char) :
    ∀ c ∈ (f.text ++ rest).head?, Interconnect.isBlank c = false := by
  intro c first
  cases f with
  | blank d blank => cases comment
  | line body one_line =>
    cases first
    rfl
  | block body open_still =>
    cases first
    rfl

theorem Skipped.ofChars?_eq {f : Filler} {rest : List Char} (skipped : f.Skipped rest) :
    ofChars? (f.text ++ rest) = ofChars? rest :=
  Token.ofChars?_of_space skipped.1 skipped.2

/-- The conditions on fillers are exact, for each where no blank follows it. -/
theorem skipped_iff (f : Filler) {rest : List Char} (solid : ∀ d ∈ rest.head?, Interconnect.isBlank d = false) :
    f.Skipped rest ↔ f.Ends rest := by
  cases f with
  | blank c blank => exact skipped_blank_iff c blank solid
  | line body one_line => exact iff_of_true (skipped_line body one_line rest) trivial
  | block body open_still => exact skipped_block_iff body open_still rest

end Filler

structure Word where
  text : List Char
  token : Token
  read : next? text = some (token, [])
  ascii : ∀ c ∈ text, c.toNat < 128

inductive Piece where
  | word (w : Word)
  | filler (f : Filler)

def Piece.text : Piece → List Char
  | word w => w.text
  | filler f => f.text

def layOut (ps : List Piece) : List Char := ps.flatMap Piece.text

def words : List Piece → List Word
  | [] => []
  | .word w :: ps => w :: words ps
  | .filler _ :: ps => words ps

def Parted : List Piece → Prop
  | .word _ :: .word _ :: _ => False
  | _ :: ps => Parted ps
  | [] => True

def Clean (behind_blank : Bool) : List Piece → Prop
  | [] => True
  | .word _ :: ps => Clean false ps
  | .filler f :: ps => (behind_blank = true ∧ f.isBlank = true ∨ f.Ends (layOut ps)) ∧ Clean f.isBlank ps

section Reading

variable {ps : List Piece}

theorem Word.solid (w : Word) (rest : List Char) : ∀ c ∈ (w.text ++ rest).head?, isBlank c = false := by
  rcases w with ⟨text, t, read, ascii⟩
  cases text with
  | nil => cases read
  | cons c text =>
    intro d first
    cases first
    by_contra blank
    have blank := eq_true_of_ne_false blank
    have starts := Token.isNameStart_of_ascii (ascii c List.mem_cons_self) blank
    rw [Token.next?_blank blank starts] at read
    cases read

theorem Parted.tail {p : Piece} (parted : Parted (p :: ps)) : Parted ps := by
  cases p with
  | filler f => exact parted
  | word w =>
    cases ps with
    | nil => trivial
    | cons q ps =>
      cases q with
      | filler f => exact parted
      | word v => cases parted

theorem separates_layOut {w : Word} (parted : Parted (.word w :: ps)) (clean : Clean false ps) :
    Separates (layOut ps) := by
  intro c first
  cases ps with
  | nil => cases first
  | cons p ps =>
    cases p with
    | word v => cases parted
    | filler f =>
      rcases clean.1 with ⟨behind, -⟩ | ends
      · cases behind
      · cases f with
        | blank d blank =>
          cases first
          exact .inr ⟨blank, ends⟩
        | line body one_line =>
          cases first
          exact .inl rfl
        | block body open_still =>
          cases first
          exact .inl rfl

def beyond (behind_blank : Bool) (cs : List Char) : List Char := if behind_blank then cs.dropWhile isBlank else cs

theorem beyond_eq {cs : List Char} (solid : ∀ c ∈ cs.head?, isBlank c = false) (behind_blank : Bool) :
    beyond behind_blank cs = cs := by
  cases behind_blank with
  | false => rfl
  | true => exact Token.dropWhile_solid solid

theorem ofChars?_layOut (behind_blank : Bool) (parted : Parted ps) (clean : Clean behind_blank ps) :
    ofChars? (beyond behind_blank (layOut ps)) = some ((words ps).map Word.token) := by
  induction ps generalizing behind_blank with
  | nil =>
    have nothing : ofChars? [] = some [] := by rw [ofChars?]
    cases behind_blank <;> exact nothing
  | cons p ps ih =>
    cases p with
    | word w =>
      have separates := separates_layOut parted clean
      have first := Token.next?_append separates w.read
      have others := ih false parted.tail clean
      show ofChars? (beyond behind_blank (w.text ++ layOut ps)) = some (w.token :: (words ps).map Word.token)
      rw [beyond_eq (w.solid (layOut ps)), Token.ofChars?_of_next first]
      rw [show ofChars? (layOut ps) = _ from others]
      rfl
    | filler f =>
      rcases clean with ⟨ends, clean⟩
      have others := ih f.isBlank parted clean
      show ofChars? (beyond behind_blank (f.text ++ layOut ps)) = some ((words ps).map Word.token)
      cases comment : f.isBlank with
      | false =>
        rw [comment] at ends others
        have skipped := f.skipped_comment comment (ends.resolve_left (by simp))
        rw [beyond_eq (f.solid_comment comment _), skipped.ofChars?_eq]
        exact others
      | true =>
        cases f with
        | blank c blank =>
          cases behind_blank with
          | true =>
            show ofChars? (List.dropWhile isBlank (c :: layOut ps)) = _
            rw [List.dropWhile_cons_of_pos blank]
            exact others
          | false =>
            have starts : isNameStart c = false := ends.resolve_left (by simp)
            have unread : next? (c :: layOut ps) = none := Token.next?_blank blank starts
            exact (Token.ofChars?_of_space unread (Token.afterSpace?_blank blank)).trans others
        | line body one_line => cases comment
        | block body open_still => cases comment

def written (ps : List Piece) : String := String.ofList (layOut ps)

theorem ofText?_written (parted : Parted ps) (clean : Clean false ps) :
    ofText? (written ps) = some ((words ps).map Word.token) := by
  unfold written ofText?
  rw [String.toList_ofList]
  exact ofChars?_layOut false parted clean

end Reading

section Single

def singleSpaced (ws : List Word) : String := String.ofList ([' '].intercalate (ws.map Word.text))

def space : Piece := .filler (.blank ' ' rfl)

def spread : List Word → List Piece
  | [] => []
  | [w] => [.word w]
  | w :: ws => .word w :: space :: spread ws

theorem words_spread (ws : List Word) : words (spread ws) = ws := by
  fun_induction spread ws with
  | case1 => rfl
  | case2 w => rfl
  | case3 w ws _ ih => exact congrArg (w :: ·) ih

theorem parted_spread (ws : List Word) : Parted (spread ws) := by
  fun_induction spread ws with
  | case1 => trivial
  | case2 w => trivial
  | case3 w ws _ ih => exact ih

theorem clean_spread (ws : List Word) (behind_blank : Bool) : Clean behind_blank (spread ws) := by
  fun_induction spread ws generalizing behind_blank with
  | case1 => trivial
  | case2 w => trivial
  | case3 w ws _ ih => exact ⟨.inr rfl, ih true⟩

theorem layOut_spread (ws : List Word) : layOut (spread ws) = [' '].intercalate (ws.map Word.text) := by
  fun_induction spread ws with
  | case1 => rfl
  | case2 w => simp [layOut, Piece.text]
  | case3 w ws some_word ih =>
    cases ws with
    | nil => exact absurd rfl some_word
    | cons v ws =>
      show w.text ++ ([' '] ++ layOut (spread (v :: ws))) = _
      rw [ih]
      simp [List.intercalate_cons_cons]

theorem ofText?_singleSpaced (ws : List Word) : ofText? (singleSpaced ws) = some (ws.map Word.token) := by
  have read := ofText?_written (parted_spread ws) (clean_spread ws false)
  rwa [written, layOut_spread, words_spread] at read

end Single

theorem parse_congr {source other : String} (same : ofText? source = ofText? other) :
    Value.parse source = Value.parse other := by
  unfold Value.parse
  rw [same]

/-- Blanks and comments between tokens change nothing where each ends as it should, and each that no blank follows
is skipped exactly if it does. -/
theorem spacing_ignored (ps : List Piece) (parted : Parted ps) :
    (Clean false ps → Value.parse (written ps) = Value.parse (singleSpaced (words ps))) ∧
      ∀ before f after, ps = before ++ .filler f :: after → (∀ c ∈ (layOut after).head?, isBlank c = false) →
        (f.Skipped (layOut after) ↔ f.Ends (layOut after)) := by
  apply And.intro
  · intro clean
    apply parse_congr
    rw [ofText?_written parted clean, ofText?_singleSpaced]
  · intro before f after _ solid
    exact f.skipped_iff solid

def aWord : Word := ⟨['A'], .name "A", rfl, by simp⟩

def xWord : Word := ⟨['x'], .name "x", rfl, by simp⟩

def openWord : Word := ⟨['\x7b'], .openBrace, rfl, by simp⟩

def closeWord : Word := ⟨['\x7d'], .closeBrace, rfl, by simp⟩

def colonWord : Word := ⟨[':'], .colon, rfl, by simp⟩

def trueWord : Word := ⟨['t', 'r', 'u', 'e'], .boolean true, rfl, by simp⟩

theorem spacing_ignored_at_last_comment :
    let ps : List Piece := [.filler (.line [' ', '*', '/'] (by decide)), .word aWord,
      .filler (.block ['a'] (by decide)), .word openWord, .filler (.blank '\n' rfl), .filler (.blank '\u00A0' rfl),
      .word xWord, space, .word colonWord, .filler (.block ['*', '*'] (by decide)), .word trueWord, space,
      .word closeWord]
    written ps = "// */\nA/*a*/\x7b\n\u00A0x :/****/true \x7d" ∧ singleSpaced (words ps) = "A \x7b x : true \x7d" ∧
      Value.parse (written ps) = Value.parse (singleSpaced (words ps)) := by
  intro ps
  have parted : Parted ps := trivial
  have clean : Clean false ps := by
    refine ⟨.inr trivial, .inr fun ends => absurd ends (by decide), .inr rfl, .inl ⟨rfl, rfl⟩, .inr rfl,
      .inr fun _ => ?_, .inr rfl, trivial⟩
    decide
  exact ⟨rfl, rfl, (spacing_ignored ps parted).1 clean⟩

/-- A comment that ends in two stars takes a field with it, up to the end of the next comment; and a no-break space
behind a word is a name of its own. -/
theorem spacing_changes_meaning :
    let ps : List Piece := [.word aWord, space, .word openWord, .filler (.block ['*'] (by decide)), .word xWord,
      space, .word colonWord, space, .word trueWord, .filler (.block [] (by decide)), .word closeWord]
    let qs : List Piece := [.word trueWord, .filler (.blank '\u00A0' rfl)]
    (Parted ps ∧ Value.parse (written ps) = .ok (.object "A" []) ∧
        Value.parse (singleSpaced (words ps)) = .ok (.object "A" [("x", .boolean true)])) ∧
      Parted qs ∧ Value.parse (written qs) = .error (.error .notInGrammar) ∧
        Value.parse (singleSpaced (words qs)) = .ok (.boolean true) := by
  intro ps qs
  have nothing : ofChars? [] = some [] := by rw [ofChars?]
  have swallowed : ofText? (written ps) = some [.name "A", .openBrace, .closeBrace] := by
    unfold written ofText?
    rw [String.toList_ofList, show layOut ps = ['A', ' ', '\x7b', '/', '*', '*', '*', '/', 'x', ' ', ':', ' ', 't', 'r',
        'u', 'e', '/', '*', '*', '/', '\x7d'] from rfl,
      Token.ofChars?_of_next (t := .name "A") rfl, Token.ofChars?_of_space rfl rfl,
      Token.ofChars?_of_next (t := .openBrace) rfl, Token.ofChars?_of_space rfl rfl,
      Token.ofChars?_of_next (t := .closeBrace) rfl, nothing]
    rfl
  have named : ofText? (written qs) = some [.boolean true, .name "\u00A0"] := by
    unfold written ofText?
    rw [String.toList_ofList, show layOut qs = ['t', 'r', 'u', 'e', '\u00A0'] from rfl,
      Token.ofChars?_of_next (t := .boolean true) rfl, Token.ofChars?_of_next (t := .name "\u00A0") rfl,
      List.dropWhile_nil, nothing]
    rfl
  have plain := ofText?_singleSpaced (words ps)
  have alone := ofText?_singleSpaced (words qs)
  refine ⟨⟨trivial, ?_, ?_⟩, trivial, ?_, ?_⟩
  · simp only [Value.parse, swallowed]
    rfl
  · simp only [Value.parse, plain]
    rfl
  · simp only [Value.parse, named]
    rfl
  · simp only [Value.parse, alone]
    rfl

end Interconnect.Config
