import Interconnect.Config.Value
import Interconnect.Text.Blank

namespace Interconnect.Config

inductive Token where
  | boolean (flag : Bool)
  | number (number : Binary64)
  | literal (text : String)
  | name (text : String)
  | openBrace
  | closeBrace
  | openBracket
  | closeBracket
  | comma
  | colon
deriving DecidableEq

namespace Token

def isLetter (c : Char) : Bool := c.isAlpha || c == '_'

def isNameStart (c : Char) : Bool := isLetter c || (0x80 ≤ c.toNat && c.toNat ≤ 0xFF)

def isNamePart (c : Char) : Bool := isNameStart c || c.isDigit

def keyword? (cs : List Char) : Option (Token × List Char) :=
  match cs with
  | 't' :: 'r' :: 'u' :: 'e' :: rest => if rest.head?.any isLetter then none else some (boolean true, rest)
  | 'f' :: 'a' :: 'l' :: 's' :: 'e' :: rest =>
    if rest.head?.any isLetter then none else some (boolean false, rest)
  | _ => none

def fraction (cs : List Char) : List Char × List Char :=
  match cs with
  | '.' :: rest =>
    match rest.takeWhile Char.isDigit with
    | [] => ([], cs)
    | ds => (ds, rest.dropWhile Char.isDigit)
  | _ => ([], cs)

def sign (cs : List Char) : Bool × List Char :=
  match cs with
  | '-' :: rest => (true, rest)
  | '+' :: rest => (false, rest)
  | _ => (false, cs)

def exponent (cs : List Char) : Int × List Char :=
  match cs with
  | c :: rest =>
    if c = 'e' ∨ c = 'E' then
      let (negative, rest) := sign rest
      match rest.takeWhile Char.isDigit with
      | [] => (0, cs)
      | ds =>
        let n : Int := Decimal.ofDigits ds
        (if negative then -n else n, rest.dropWhile Char.isDigit)
    else (0, cs)
  | [] => (0, [])

def unsignedNumber? (negative : Bool) (cs : List Char) : Option (Token × List Char) :=
  let whole := cs.takeWhile Char.isDigit
  let (places, rest) := fraction (cs.dropWhile Char.isDigit)
  if whole.isEmpty && places.isEmpty then none
  else
    let (power, rest) := exponent rest
    let value : Decimal := ⟨Decimal.ofDigits (whole ++ places), power - places.length⟩
    some (number (Binary64.ofDecimal negative value), rest)

def number? (cs : List Char) : Option (Token × List Char) :=
  match cs with
  | '-' :: rest => unsignedNumber? true rest
  | _ => unsignedNumber? false cs

def quotedText? : List Char → Option (List Char)
  | [] => none
  | '"' :: _ => some []
  | '\\' :: c :: rest => (quotedText? rest).map ('\\' :: c :: ·)
  | ['\\'] => none
  | c :: rest => (quotedText? rest).map (c :: ·)

def dropBytes? : Nat → List Char → Option (List Char)
  | 0, cs => some cs
  | _ + 1, [] => none
  | n + 1, c :: cs => if c.utf8Size ≤ n + 1 then dropBytes? (n + 1 - c.utf8Size) cs else none

/-- The text of a literal is measured in characters, but as many bytes are taken from the input: after a
literal with wider characters the next token starts inside it. -/
def literal? (cs : List Char) : Option (Token × List Char) :=
  match cs with
  | '"' :: rest => do
    let text ← quotedText? rest
    let rest ← dropBytes? (text.length + 1) rest
    some (literal (String.ofList text), rest)
  | _ => none

def name? (cs : List Char) : Option (Token × List Char) :=
  match cs with
  | c :: rest =>
    if isNameStart c then
      some (name (String.ofList (c :: rest.takeWhile isNamePart)), rest.dropWhile isNamePart)
    else none
  | [] => none

def mark? (cs : List Char) : Option (Token × List Char) :=
  match cs with
  | '\x7b' :: rest => some (openBrace, rest)
  | '\x7d' :: rest => some (closeBrace, rest)
  | '[' :: rest => some (openBracket, rest)
  | ']' :: rest => some (closeBracket, rest)
  | ',' :: rest => some (comma, rest)
  | ':' :: rest => some (colon, rest)
  | _ => none

def next? (cs : List Char) : Option (Token × List Char) :=
  keyword? cs <|> number? cs <|> literal? cs <|> name? cs <|> mark? cs

/-- What follows a block comment, given how many stars were just read. A slash after exactly one star closes
the comment; after more stars it does so only if nothing closes the comment later. -/
def afterComment? : Nat → List Char → Option (List Char)
  | _, [] => none
  | stars, c :: rest =>
    if c = '*' then afterComment? (stars + 1) rest
    else if c = '/' ∧ stars = 1 then some rest
    else if c = '/' ∧ 1 < stars then some ((afterComment? 0 rest).getD rest)
    else afterComment? 0 rest

def afterSpace? : List Char → Option (List Char)
  | '/' :: '/' :: rest => (rest.dropWhile (· != '\n')).tail?
  | '/' :: '*' :: rest => afterComment? 0 rest
  | c :: rest => if isBlank c then some (rest.dropWhile isBlank) else none
  | [] => none

theorem length_dropWhile_le (p : Char → Bool) (cs : List Char) : (cs.dropWhile p).length ≤ cs.length :=
  (List.dropWhile_suffix p).length_le

theorem keyword?_length_lt {t : Token} {cs rest : List Char} (h : keyword? cs = some (t, rest)) :
    rest.length < cs.length := by
  unfold keyword? at h
  split at h
  · split at h
    · cases h
    · cases h; simp; omega
  · split at h
    · cases h
    · cases h; simp; omega
  · cases h

theorem fraction_length_le (cs : List Char) : (fraction cs).2.length ≤ cs.length := by
  unfold fraction
  split
  · rename_i rest
    split
    · exact Nat.le_refl _
    · exact Nat.le_succ_of_le (length_dropWhile_le _ rest)
  · exact Nat.le_refl _

theorem fraction_length_lt {cs : List Char} (h : (fraction cs).1 ≠ []) :
    (fraction cs).2.length < cs.length := by
  unfold fraction at h ⊢
  split
  · rename_i rest
    split
    · simp_all
    · exact Nat.lt_succ_of_le (length_dropWhile_le _ rest)
  · simp_all

theorem sign_length_le (cs : List Char) : (sign cs).2.length ≤ cs.length := by
  unfold sign
  split <;> simp

theorem exponent_length_le (cs : List Char) : (exponent cs).2.length ≤ cs.length := by
  unfold exponent
  split
  · rename_i c rest
    split
    · dsimp only
      split
      · exact Nat.le_refl _
      · exact Nat.le_succ_of_le (Nat.le_trans (length_dropWhile_le _ _) (sign_length_le rest))
    · exact Nat.le_refl _
  · exact Nat.le_refl _

theorem unsignedNumber?_length_lt {negative : Bool} {t : Token} {cs rest : List Char}
    (h : unsignedNumber? negative cs = some (t, rest)) : rest.length < cs.length := by
  unfold unsignedNumber? at h
  dsimp only at h
  split at h
  · cases h
  · rename_i some_digit
    simp only [Option.some.injEq, Prod.mk.injEq] at h
    rw [← h.2]
    refine Nat.lt_of_le_of_lt (exponent_length_le _) ?_
    have dropped := length_dropWhile_le Char.isDigit cs
    by_cases places : (fraction (cs.dropWhile Char.isDigit)).1 = []
    · have whole : cs.takeWhile Char.isDigit ≠ [] := by simp_all
      have total := congrArg List.length (List.takeWhile_append_dropWhile (p := Char.isDigit) (l := cs))
      have positive := List.length_pos_iff.2 whole
      have bound := fraction_length_le (cs.dropWhile Char.isDigit)
      rw [List.length_append] at total
      omega
    · exact Nat.lt_of_lt_of_le (fraction_length_lt places) dropped

theorem number?_length_lt {t : Token} {cs rest : List Char} (h : number? cs = some (t, rest)) :
    rest.length < cs.length := by
  unfold number? at h
  split at h
  · exact Nat.lt_succ_of_lt (unsignedNumber?_length_lt h)
  · exact unsignedNumber?_length_lt h

theorem dropBytes?_length_le {n : Nat} {cs rest : List Char} (h : dropBytes? n cs = some rest) :
    rest.length ≤ cs.length := by
  fun_induction dropBytes? n cs with
  | case1 => cases h; exact Nat.le_refl _
  | case2 => cases h
  | case3 n c cs fits ih => exact Nat.le_succ_of_le (ih h)
  | case4 => cases h

theorem literal?_length_lt {t : Token} {cs rest : List Char} (h : literal? cs = some (t, rest)) :
    rest.length < cs.length := by
  unfold literal? at h
  split at h
  · simp only [Option.bind_eq_bind, Option.bind_eq_some_iff, Option.some.injEq, Prod.mk.injEq] at h
    obtain ⟨text, -, after, dropped, -, rfl⟩ := h
    exact Nat.lt_succ_of_le (dropBytes?_length_le dropped)
  · cases h

theorem name?_length_lt {t : Token} {cs rest : List Char} (h : name? cs = some (t, rest)) :
    rest.length < cs.length := by
  unfold name? at h
  split at h
  · split at h
    · simp only [Option.some.injEq, Prod.mk.injEq] at h
      rw [← h.2]
      exact Nat.lt_succ_of_le (length_dropWhile_le _ _)
    · cases h
  · cases h

theorem mark?_length_lt {t : Token} {cs rest : List Char} (h : mark? cs = some (t, rest)) :
    rest.length < cs.length := by
  unfold mark? at h
  split at h <;> simp_all

theorem next?_length_lt {t : Token} {cs rest : List Char} (h : next? cs = some (t, rest)) :
    rest.length < cs.length := by
  simp only [next?, Option.orElse_eq_orElse, Option.orElse_eq_or, Option.or_eq_some_iff] at h
  rcases h with h | ⟨-, h | ⟨-, h | ⟨-, h | ⟨-, h⟩⟩⟩⟩
  · exact keyword?_length_lt h
  · exact number?_length_lt h
  · exact literal?_length_lt h
  · exact name?_length_lt h
  · exact mark?_length_lt h

theorem afterComment?_length_le {stars : Nat} {cs rest : List Char} (h : afterComment? stars cs = some rest) :
    rest.length ≤ cs.length := by
  induction cs generalizing stars rest with
  | nil => cases h
  | cons c cs ih =>
    unfold afterComment? at h
    split at h
    · exact Nat.le_succ_of_le (ih h)
    · split at h
      · cases h; exact Nat.le_succ _
      · split at h
        · cases later : afterComment? 0 cs with
          | none => simp [later] at h; simp [h]
          | some after =>
            simp [later] at h
            subst h
            exact Nat.le_succ_of_le (ih later)
        · exact Nat.le_succ_of_le (ih h)

theorem afterSpace?_length_lt {cs rest : List Char} (h : afterSpace? cs = some rest) :
    rest.length < cs.length := by
  unfold afterSpace? at h
  split at h
  · rename_i body
    have bound := length_dropWhile_le (· != '\n') body
    cases found : body.dropWhile (· != '\n') with
    | nil => simp [found] at h
    | cons c after =>
      simp [found] at h bound
      subst h
      simp; omega
  · have bound := afterComment?_length_le h
    simp; omega
  · split at h
    · cases h
      exact Nat.lt_succ_of_le (length_dropWhile_le _ _)
    · cases h
  · cases h

/-- The tokens of a text, without its blanks and comments. -/
def ofChars? (cs : List Char) : Option (List Token) :=
  match cs with
  | [] => some []
  | c :: cs =>
    match _found : next? (c :: cs) with
    | some (t, rest) => (ofChars? rest).map (t :: ·)
    | none =>
      match _space : afterSpace? (c :: cs) with
      | some rest => ofChars? rest
      | none => none
termination_by cs.length
decreasing_by
  · exact next?_length_lt _found
  · exact afterSpace?_length_lt _space

def ofText? (text : String) : Option (List Token) := ofChars? text.toList

end Token

end Interconnect.Config
