import Mathlib
import Interconnect.Proofs.Config.Spacing

namespace Interconnect.Config

namespace Token

def Plain (cs : List Char) : Prop := ∀ c ∈ cs, c ≠ '"' ∧ c ≠ '\\'

def behindQuote : List String → List Char
  | [] => [']']
  | text :: texts => ',' :: '"' :: (text.toList ++ '"' :: behindQuote texts)

/-- Within the quotes of an item, with the scan at the beginning of a token. -/
def Astray (cs : List Char) : Prop :=
  ∃ text texts, Plain text ∧ (∀ t ∈ texts, Plain t.toList) ∧ cs = text ++ '"' :: behindQuote texts

def Passes (cs rest : List Char) : Prop := ∃ before, cs = before ++ rest ∧ '"' ∉ before

section Passing

variable {cs rest after : List Char} {c : Char} {t : Token}

theorem Passes.refl (cs : List Char) : Passes cs cs := ⟨[], rfl, List.not_mem_nil⟩

theorem Passes.trans (first : Passes cs rest) (second : Passes rest after) : Passes cs after := by
  obtain ⟨before, rfl, apart⟩ := first
  obtain ⟨between, rfl, apart'⟩ := second
  refine ⟨before ++ between, (List.append_assoc ..).symm, fun member => ?_⟩
  rcases List.mem_append.mp member with early | late
  · exact apart early
  · exact apart' late

theorem passes_cons (other : c ≠ '"') (cs : List Char) : Passes (c :: cs) cs :=
  ⟨[c], rfl, fun member => other (List.mem_singleton.mp member).symm⟩

theorem passes_dropWhile {p : Char → Bool} (stops : p '"' = false) (cs : List Char) : Passes cs (cs.dropWhile p) := by
  refine ⟨cs.takeWhile p, List.takeWhile_append_dropWhile.symm, fun member => ?_⟩
  have taken := List.mem_takeWhile_imp member
  rw [stops] at taken
  cases taken

theorem passes_fraction (cs : List Char) : Passes cs (fraction cs).2 := by
  unfold fraction
  split
  · rename_i rest
    split
    · exact .refl _
    · exact (passes_cons (by decide) rest).trans (passes_dropWhile rfl rest)
  · exact .refl _

theorem passes_sign (cs : List Char) : Passes cs (sign cs).2 := by
  unfold sign
  split
  · exact passes_cons (by decide) _
  · exact passes_cons (by decide) _
  · exact .refl _

theorem passes_exponent (cs : List Char) : Passes cs (exponent cs).2 := by
  unfold exponent
  split
  · rename_i c rest
    split
    · rename_i power
      have other : c ≠ '"' := by
        rcases power with rfl | rfl <;> decide
      dsimp only
      split
      · exact .refl _
      · exact (passes_cons other rest).trans ((passes_sign rest).trans (passes_dropWhile rfl _))
    · exact .refl _
  · exact .refl _

theorem passes_unsignedNumber {negative : Bool} (read : unsignedNumber? negative cs = some (t, rest)) :
    Passes cs rest := by
  unfold unsignedNumber? at read
  dsimp only at read
  split at read
  · cases read
  · cases read
    exact (passes_dropWhile rfl cs).trans ((passes_fraction _).trans (passes_exponent _))

theorem passes_number (read : number? cs = some (t, rest)) : Passes cs rest := by
  unfold number? at read
  split at read
  · exact (passes_cons (by decide) _).trans (passes_unsignedNumber read)
  · exact passes_unsignedNumber read

theorem passes_keyword (read : keyword? cs = some (t, rest)) : Passes cs rest := by
  obtain ⟨flag, -, rfl, -⟩ := keyword?_eq_some.mp read
  refine ⟨word flag, rfl, fun member => ?_⟩
  have letter := isLetter_of_mem_word member
  cases letter

theorem passes_name (read : name? cs = some (t, rest)) : Passes cs rest := by
  unfold name? at read
  split at read
  · rename_i c cs
    split at read
    · rename_i starts
      cases read
      have other : c ≠ '"' := by
        rintro rfl
        cases starts
      exact (passes_cons other cs).trans (passes_dropWhile rfl cs)
    · cases read
  · cases read

theorem passes_mark (read : mark? cs = some (t, rest)) : Passes cs rest := by
  unfold mark? at read
  split at read
  all_goals cases read
  all_goals exact passes_cons (by decide) _

theorem passes_next (apart : cs.head? ≠ some '"') (read : next? cs = some (t, rest)) : Passes cs rest := by
  simp only [next?, Option.orElse_eq_orElse, Option.orElse_eq_or, Option.or_eq_some_iff] at read
  rcases read with word | ⟨-, number | ⟨-, literal | ⟨-, name | ⟨-, mark⟩⟩⟩⟩
  · exact passes_keyword word
  · exact passes_number number
  · unfold literal? at literal
    split at literal
    · exact absurd rfl apart
    · cases literal
  · exact passes_name name
  · exact passes_mark mark

theorem afterComment?_eq_some {stars : Nat} (found : afterComment? stars cs = some rest) :
    ∃ before, cs = before ++ '/' :: rest := by
  induction cs generalizing stars rest with
  | nil => cases found
  | cons c cs ih =>
    have later {stars : Nat} {rest : List Char} (found : afterComment? stars cs = some rest) :
        ∃ before, c :: cs = before ++ '/' :: rest := by
      obtain ⟨before, rfl⟩ := ih found
      exact ⟨c :: before, rfl⟩
    unfold afterComment? at found
    split at found
    · exact later found
    · split at found
      · rename_i slash
        cases found
        exact ⟨[], congrArg (· :: cs) slash.1⟩
      · split at found
        · rename_i slash
          cases goes_on : afterComment? 0 cs with
          | none =>
            rw [goes_on] at found
            cases found
            exact ⟨[], congrArg (· :: cs) slash.1⟩
          | some after =>
            rw [goes_on] at found
            cases found
            exact later goes_on
        · exact later found

theorem afterSpace?_eq_some (space : afterSpace? cs = some rest) :
    Passes cs rest ∨ ∃ before c, cs = before ++ c :: rest ∧ (c = '/' ∨ c = '\n') := by
  unfold afterSpace? at space
  split at space
  · rename_i body
    have parts := List.takeWhile_append_dropWhile (p := (· != '\n')) (l := body)
    cases ended : body.dropWhile (· != '\n') with
    | nil =>
      rw [ended] at space
      cases space
    | cons c after =>
      rw [ended] at space parts
      cases space
      have line_end : c = '\n' := by
        have stops := List.head?_dropWhile_not (· != '\n') body
        rw [ended] at stops
        simpa using stops
      refine .inr ⟨'/' :: '/' :: body.takeWhile (· != '\n'), c, ?_, .inr line_end⟩
      rw [List.cons_append, List.cons_append, parts]
  · obtain ⟨before, rfl⟩ := afterComment?_eq_some space
    exact .inr ⟨'/' :: '*' :: before, '/', rfl, .inl rfl⟩
  · rename_i c body _ _
    split at space
    · rename_i blank
      cases space
      exact .inl ((passes_cons (ne_of_isBlank blank rfl) body).trans (passes_dropWhile rfl body))
    · cases space
  · cases space

end Passing

theorem exists_append_of_cons {cs before rest : List Char} {c d : Char} (other : d ≠ c)
    (same : before ++ c :: rest = d :: cs) : ∃ before, before ++ c :: rest = cs := by
  cases before with
  | nil => exact absurd (List.cons.inj same).1.symm other
  | cons e before => exact ⟨before, (List.cons.inj same).2⟩

namespace Astray

variable {cs rest before : List Char} {c : Char} {t : Token}

theorem passes (astray : Astray cs) (passes : Passes cs rest) : Astray rest := by
  obtain ⟨text, texts, plain, plains, rfl⟩ := astray
  obtain ⟨before, same, apart⟩ := passes
  rcases List.append_eq_append_iff.mp same with ⟨past, rfl, behind⟩ | ⟨left, rfl, rfl⟩
  · cases past with
    | nil => exact ⟨[], texts, nofun, plains, behind.symm⟩
    | cons c past =>
      -- the scan would have gone past the closing quote
      obtain ⟨quote, -⟩ := List.cons.inj behind
      rw [← quote] at apart
      exact absurd (List.mem_append_right text List.mem_cons_self) apart
  · exact ⟨left, texts, fun c member => plain c (List.mem_append_right before member), plains, rfl⟩

theorem within_or_behind {text : List Char} {texts : List String} (other : '"' ≠ c) (plain : Plain text)
    (plains : ∀ t ∈ texts, Plain t.toList) (same : before ++ c :: rest = text ++ '"' :: behindQuote texts) :
    Astray rest ∨ ∃ past, past ++ c :: rest = behindQuote texts := by
  rcases List.append_eq_append_iff.mp same with ⟨left, rfl, tail⟩ | ⟨past, -, behind⟩
  · cases left with
    | nil => exact absurd (List.cons.inj tail).1.symm other
    | cons d left =>
      have inner : Plain left := fun c member => plain c (List.mem_append_right before (List.mem_cons_of_mem d member))
      exact .inl ⟨left, texts, inner, plains, (List.cons.inj tail).2⟩
  · exact .inr (exists_append_of_cons other behind.symm)

theorem beyond (astray : Astray (before ++ c :: rest)) (ends : c = '/' ∨ c = '\n') : Astray rest := by
  have marks : '"' ≠ c ∧ ',' ≠ c ∧ ']' ≠ c := by rcases ends with rfl | rfl <;> decide
  obtain ⟨text, texts, plain, plains, same⟩ := astray
  induction texts generalizing text before with
  | nil =>
    rcases within_or_behind marks.1 plain plains same with astray | ⟨past, behind⟩
    · exact astray
    · obtain ⟨past, nothing⟩ := exists_append_of_cons marks.2.2 behind
      simp at nothing
  | cons second texts ih =>
    rcases within_or_behind marks.1 plain plains same with astray | ⟨past, behind⟩
    · exact astray
    · obtain ⟨past, behind⟩ := exists_append_of_cons marks.2.1 behind
      obtain ⟨past, inside⟩ := exists_append_of_cons marks.1 behind
      obtain ⟨inner, others⟩ := List.forall_mem_cons.mp plains
      exact ih second.toList inner others inside

theorem next (astray : Astray cs) (read : next? cs = some (t, rest)) : Astray rest := by
  by_cases quote : cs.head? = some '"'
  · obtain ⟨text, texts, plain, plains, rfl⟩ := astray
    cases text with
    | cons c text =>
      cases quote
      exact absurd rfl (plain '"' List.mem_cons_self).1
    | nil =>
      cases texts with
      | nil => cases read
      | cons second texts =>
        obtain ⟨inner, others⟩ := List.forall_mem_cons.mp plains
        have between : next? ('"' :: ([','] ++ '"' :: (second.toList ++ '"' :: behindQuote texts))) =
            some (.literal (String.ofList [',']), second.toList ++ '"' :: behindQuote texts) :=
          next?_literal rfl (by simp)
        have same := read.symm.trans between
        cases same
        exact ⟨second.toList, texts, inner, others, rfl⟩
  · exact astray.passes (passes_next quote read)

theorem space (astray : Astray cs) (space : afterSpace? cs = some rest) : Astray rest := by
  rcases afterSpace?_eq_some space with passes | ⟨before, c, rfl, ends⟩
  · exact astray.passes passes
  · exact astray.beyond ends

/-- There is no way out: whatever is taken for a token or skipped, the last quote has none to close it. -/
theorem ofChars?_eq_none (astray : Astray cs) : ofChars? cs = none := by
  induction size : cs.length using Nat.strong_induction_on generalizing cs with
  | _ n ih =>
    cases cs with
    | nil =>
      obtain ⟨text, texts, -, -, same⟩ := astray
      simp at same
    | cons c cs =>
      rw [Option.eq_none_iff_forall_ne_some]
      intro ts read
      rcases ofChars?_cons_eq_some read with ⟨t, rest, others, first, found, -⟩ | ⟨rest, skipped, found⟩
      · have shorter := next?_length_lt first
        rw [ih rest.length (by omega) (astray.next first) rfl] at found
        cases found
      · have shorter := afterSpace?_length_lt skipped
        rw [ih rest.length (by omega) (astray.space skipped) rfl] at found
        cases found

end Astray

section Items

variable {cs rest after text : List Char} {texts : List String} {n : Nat}

theorem Plain.quotable (plain : Plain cs) : quotable cs = true := by
  fun_induction Token.quotable cs with
  | case1 => rfl
  | case2 c cs ih => exact absurd rfl (plain '\\' List.mem_cons_self).2
  | case3 => exact absurd rfl (plain '\\' List.mem_cons_self).2
  | case4 c cs _ _ ih =>
    obtain ⟨first, others⟩ := List.forall_mem_cons.mp plain
    rw [Bool.and_eq_true, bne_iff_ne]
    exact ⟨first.1, ih others⟩

def bytes (cs : List Char) : Nat := (cs.map Char.utf8Size).sum

theorem length_le_bytes (cs : List Char) : cs.length ≤ bytes cs := by
  induction cs with
  | nil => exact Nat.le_refl 0
  | cons c cs ih =>
    have one := c.utf8Size_pos
    simp only [bytes, List.map_cons, List.sum_cons, List.length_cons] at ih ⊢
    omega

theorem length_lt_bytes (wide : ¬ ∀ c ∈ cs, c.toNat < 128) : cs.length < bytes cs := by
  induction cs with
  | nil => exact absurd nofun wide
  | cons c cs ih =>
    simp only [bytes, List.map_cons, List.sum_cons, List.length_cons] at ih ⊢
    have one := c.utf8Size_pos
    by_cases narrow : c.toNat < 128
    · have later := ih fun all => wide (List.forall_mem_cons.mpr ⟨narrow, all⟩)
      omega
    · have two : c.utf8Size ≠ 1 := by
        rw [ne_eq, Char.utf8Size_eq_one_iff, UInt32.le_iff_toNat_le]
        exact fun single => narrow (Nat.lt_succ_of_le single)
      have others := length_le_bytes cs
      unfold bytes at others
      omega

theorem dropBytes?_within (few : n ≤ bytes cs) (dropped : dropBytes? n (cs ++ rest) = some after) :
    ∃ before left, cs = before ++ left ∧ after = left ++ rest := by
  induction cs generalizing n with
  | nil =>
    rw [Nat.le_zero.mp few, dropBytes?] at dropped
    cases dropped
    exact ⟨[], [], rfl, rfl⟩
  | cons c cs ih =>
    cases n with
    | zero =>
      rw [dropBytes?] at dropped
      cases dropped
      exact ⟨[], c :: cs, rfl, rfl⟩
    | succ n =>
      rw [List.cons_append, dropBytes?] at dropped
      split at dropped
      · have fewer : n + 1 - c.utf8Size ≤ bytes cs := by
          simp only [bytes, List.map_cons, List.sum_cons] at few ⊢
          omega
        obtain ⟨before, left, rfl, rfl⟩ := ih fewer dropped
        exact ⟨c :: before, left, rfl, rfl⟩
      · cases dropped

theorem next?_quote (cs : List Char) : next? ('"' :: cs) = literal? ('"' :: cs) := by
  have no_word : keyword? ('"' :: cs) = none := rfl
  have no_number : number? ('"' :: cs) = none := rfl
  have no_name : name? ('"' :: cs) = none := rfl
  have no_mark : mark? ('"' :: cs) = none := rfl
  simp [next?, no_word, no_number, no_name, no_mark]

theorem ofChars?_wide (plain : Plain text) (plains : ∀ t ∈ texts, Plain t.toList)
    (wide : ¬ ∀ c ∈ text, c.toNat < 128) : ofChars? ('"' :: (text ++ '"' :: behindQuote texts)) = none := by
  have found : quotedText? (text ++ '"' :: behindQuote texts) = some text := quotedText?_quotable plain.quotable
  cases dropped : dropBytes? (text.length + 1) (text ++ '"' :: behindQuote texts) with
  | none =>
    have unread : next? ('"' :: (text ++ '"' :: behindQuote texts)) = none := by
      rw [next?_quote]
      simp [literal?, found, dropped]
    have solid : afterSpace? ('"' :: (text ++ '"' :: behindQuote texts)) = none := rfl
    rw [Option.eq_none_iff_forall_ne_some]
    intro ts read
    rcases ofChars?_cons_eq_some read with ⟨t, rest, others, first, -⟩ | ⟨rest, skipped, -⟩
    · rw [unread] at first
      cases first
    · rw [solid] at skipped
      cases skipped
  | some after =>
    have first : next? ('"' :: (text ++ '"' :: behindQuote texts)) =
        some (.literal (String.ofList text), after) := by
      rw [next?_quote]
      simp [literal?, found, dropped]
    obtain ⟨before, left, rfl, rfl⟩ := dropBytes?_within (length_lt_bytes wide) dropped
    have astray : Astray (left ++ '"' :: behindQuote texts) :=
      ⟨left, texts, fun c member => plain c (List.mem_append_right before member), plains, rfl⟩
    rw [ofChars?_of_next first, astray.ofChars?_eq_none]
    rfl

end Items

end Token

open Token (ofChars? ofText? Plain behindQuote)

def quoted (text : String) : List Char := '"' :: (text.toList ++ ['"'])

def listing (texts : List String) : String := String.ofList ('[' :: ([','].intercalate (texts.map quoted) ++ [']']))

def IsAscii (text : String) : Prop := ∀ c ∈ text.toList, c.toNat < 128

instance (text : String) : Decidable (IsAscii text) := inferInstanceAs (Decidable (∀ _ ∈ _, _))

def laterTokens (texts : List String) : List Token :=
  texts.flatMap (fun text => [.comma, .literal text]) ++ [.closeBracket]

section Reading

variable {texts : List String}

theorem ofChars?_end : ofChars? [']'] = some [.closeBracket] := by
  have nothing : ofChars? [] = some [] := by rw [ofChars?]
  rw [Token.ofChars?_of_next (Token.next?_mark rfl), nothing]
  rfl

theorem ofChars?_items (text : String) (plain : Plain text.toList) (plains : ∀ t ∈ texts, Plain t.toList) :
    ofChars? ('"' :: (text.toList ++ '"' :: behindQuote texts)) =
      if ∀ t ∈ text :: texts, IsAscii t then some (.literal text :: laterTokens texts) else none := by
  induction texts generalizing text with
  | nil =>
    by_cases ascii : IsAscii text
    · rw [Token.ofChars?_of_next (Token.next?_literal plain.quotable ascii), behindQuote, ofChars?_end,
        String.ofList_toList, if_pos (by simpa using ascii)]
      rfl
    · rw [Token.ofChars?_wide plain plains ascii, if_neg (by simpa using ascii)]
  | cons second texts ih =>
    obtain ⟨inner, others⟩ := List.forall_mem_cons.mp plains
    by_cases ascii : IsAscii text
    · rw [Token.ofChars?_of_next (Token.next?_literal plain.quotable ascii), behindQuote,
        Token.ofChars?_of_next (Token.next?_mark rfl), ih second inner others, String.ofList_toList]
      by_cases all : ∀ t ∈ second :: texts, IsAscii t
      · rw [if_pos all, if_pos (List.forall_mem_cons.mpr ⟨ascii, all⟩)]
        rfl
      · rw [if_neg all, if_neg fun every => all (List.forall_mem_cons.mp every).2]
        rfl
    · rw [Token.ofChars?_wide plain plains ascii, if_neg fun every => ascii (every text List.mem_cons_self)]

theorem intercalate_quoted (text : String) (texts : List String) :
    [','].intercalate ((text :: texts).map quoted) ++ [']'] =
      '"' :: (text.toList ++ '"' :: behindQuote texts) := by
  induction texts generalizing text with
  | nil => simp [quoted, behindQuote]
  | cons second texts ih =>
    have others := ih second
    rw [List.map_cons] at others
    rw [List.map_cons, List.map_cons, List.intercalate_cons_cons, List.append_assoc, List.append_assoc, others, quoted,
      behindQuote]
    simp

open Progress (step?)

theorem run_laterTokens (v : Value) (items : List Value) (texts : List String) :
    (laterTokens texts).foldlM step? (.afterValue v [.array items]) =
      some (.afterValue (.array ((v :: items).reverse ++ texts.map .literal)) []) := by
  induction texts generalizing v items with
  | nil => simp [laterTokens, step?, Progress.endValue?]
  | cons text texts ih =>
    have rest := ih (.literal text) (v :: items)
    show (laterTokens texts).foldlM step? (.afterValue (.literal text) [.array (v :: items)]) = _
    rw [rest, List.reverse_cons, List.append_assoc]
    rfl

theorem parse_eq_ok {source : String} {tokens : List Token} {v : Value} (read : ofText? source = some tokens)
    (built : Value.ofTokens? tokens = some v) : Value.parse source = .ok v := by
  rw [Value.parse, read]
  dsimp only
  rw [built]
  rfl

theorem ofText?_listing_nil : ofText? (listing []) = some [.openBracket, .closeBracket] := by
  rw [ofText?, listing, String.toList_ofList, Token.ofChars?_of_next (Token.next?_mark rfl)]
  show (ofChars? [']']).map (.openBracket :: ·) = _
  rw [ofChars?_end]
  rfl

theorem ofText?_listing (text : String) (plains : ∀ t ∈ text :: texts, Plain t.toList) :
    ofText? (listing (text :: texts)) =
      if ∀ t ∈ text :: texts, IsAscii t then some (.openBracket :: .literal text :: laterTokens texts) else none := by
  obtain ⟨first, others⟩ := List.forall_mem_cons.mp plains
  rw [ofText?, listing, String.toList_ofList, Token.ofChars?_of_next (Token.next?_mark rfl), intercalate_quoted,
    ofChars?_items text first others]
  split <;> rfl

/-- A list of texts without quotes and backslashes is read back if all of it is ASCII, and is no sequence of tokens
otherwise. -/
theorem literals_read_back (texts : List String) (plain : ∀ text ∈ texts, Plain text.toList) :
    Value.parse (listing texts) =
      if ∀ text ∈ texts, IsAscii text then .ok (.array (texts.map .literal)) else .error (.breach .noToken) := by
  cases texts with
  | nil =>
    rw [if_pos nofun]
    exact parse_eq_ok ofText?_listing_nil rfl
  | cons text texts =>
    have read := ofText?_listing text plain
    by_cases ascii : ∀ t ∈ text :: texts, IsAscii t
    · rw [if_pos ascii] at read ⊢
      apply parse_eq_ok read
      have run := run_laterTokens (.literal text) [] texts
      show ((laterTokens texts).foldlM step? (.afterValue (.literal text) [.array []])).bind Progress.value? = _
      rw [run]
      rfl
    · rw [if_neg ascii] at read ⊢
      rw [Value.parse, read]
      rfl

theorem labels_read_back :
    let texts := ["dim0_pos", "East, or West"]
    (∀ text ∈ texts, Plain text.toList) ∧ listing texts = "[\"dim0_pos\",\"East, or West\"]" ∧
      Value.parse (listing texts) = .ok (.array [.literal "dim0_pos", .literal "East, or West"]) := by
  intro texts
  have plain : ∀ text ∈ texts, Plain text.toList := by simp [texts, Plain]
  have read := literals_read_back texts plain
  rw [if_pos (by simp [texts, IsAscii])] at read
  exact ⟨plain, rfl, read⟩

/-- One accented letter is enough: its closing quote is taken for an opening one. -/
theorem accent_leaves_quote_open :
    Plain "\u00E9".toList ∧ listing ["\u00E9"] = "[\"\u00E9\"]" ∧
      Value.parse (listing ["\u00E9"]) = .error (.breach .noToken) := by
  have plain : ∀ text ∈ ["\u00E9"], Plain text.toList := by simp [Plain]
  have read := ofText?_listing "\u00E9" plain
  rw [if_neg (by simp [IsAscii])] at read
  refine ⟨plain _ List.mem_cons_self, rfl, ?_⟩
  rw [Value.parse, read]
  rfl

end Reading

end Interconnect.Config
