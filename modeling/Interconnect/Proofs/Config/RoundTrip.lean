import Mathlib
import Interconnect.Config.Typed
import Interconnect.Config.Printer
import Interconnect.Proofs.Config.Token

namespace Interconnect.Config

namespace Value

open Token (ofText? ofChars? quotable IsGap Closed isNamePart ofChars?_of_next ofChars?_gaps ofChars?_gap_gap)

mutual

/-- What a text can hold: no absent value, finite numbers, literals that a closing quote ends, and names that are
read as one token each. -/
def Writable : Value → Prop
  | literal text => quotable text.toList = true ∧ ∀ c ∈ text.toList, c.toNat < 128
  | number x => x.isFinite = true
  | object name fields => ofText? name = some [.name name] ∧ WritableFields fields
  | array items => WritableItems items
  | boolean _ => True
  | absent => False

def WritableItems : List Value → Prop
  | [] => True
  | v :: vs => Writable v ∧ WritableItems vs

def WritableFields : List (String × Value) → Prop
  | [] => True
  | (name, v) :: fields => ofText? name = some [.name name] ∧ Writable v ∧ WritableFields fields

end

mutual

def names : Value → List String
  | object name fields => name :: fieldNames fields
  | array items => itemNames items
  | _ => []

def itemNames : List Value → List String
  | [] => []
  | v :: vs => names v ++ itemNames vs

def fieldNames : List (String × Value) → List String
  | [] => []
  | (name, v) :: fields => name :: (names v ++ fieldNames fields)

end

def innerNames : Value → List String
  | object _ fields => fieldNames fields
  | v => names v

mutual

def tokens (ts : List Token) : Value → List Token
  | literal text => .literal text :: ts
  | number x => .number x :: ts
  | object name fields => .name name :: .openBrace :: fieldTokens (.closeBrace :: ts) fields
  | array items => .openBracket :: itemTokens (.closeBracket :: ts) items
  | boolean flag => .boolean flag :: ts
  | absent => ts

def itemTokens (ts : List Token) : List Value → List Token
  | [] => ts
  | v :: vs => tokens (.comma :: itemTokens ts vs) v

def fieldTokens (ts : List Token) : List (String × Value) → List Token
  | [] => ts
  | (name, v) :: fields => .name name :: .colon :: tokens (.comma :: fieldTokens ts fields) v

end

section Reading

variable {depth : Nat} {rest : List Char} {name : String}

theorem isGap_of_mem_tabs {c : Char} (among : c ∈ tabs depth) : IsGap c := .inl (List.eq_of_mem_replicate among)

theorem ofChars?_newline {cs : List Char} (solid : ∀ c ∈ cs.head?, isBlank c = false) :
    ofChars? ('\n' :: cs) = ofChars? cs := by
  have line_end : ∀ c ∈ ['\n'], IsGap c := by simp [IsGap]
  exact ofChars?_gaps line_end solid

theorem ofChars?_newline_tabs {cs : List Char} (solid : ∀ c ∈ cs.head?, isBlank c = false) :
    ofChars? ('\n' :: (tabs depth ++ cs)) = ofChars? cs := by
  have indented : ∀ c ∈ '\n' :: tabs depth, IsGap c := by
    intro c among
    rcases List.mem_cons.1 among with rfl | tab
    · exact .inr rfl
    · exact isGap_of_mem_tabs tab
  exact ofChars?_gaps indented solid

theorem solid_cons {c : Char} {cs : List Char} (solid : isBlank c = false) :
    ∀ d ∈ (c :: cs).head?, isBlank d = false := by
  rintro d ⟨⟩
  exact solid

theorem ofChars?_newline_render (v : Value) :
    ofChars? ('\n' :: render (depth + 1) rest v) = ofChars? (render (depth + 1) rest v) := by
  cases v with
  | boolean flag => cases flag <;> exact ofChars?_gap_gap (.inr rfl) (.inl rfl)
  | _ => exact ofChars?_gap_gap (.inr rfl) (.inl rfl)

theorem solid_of_closed (closed : Closed rest) : ∀ c ∈ rest.head?, isBlank c = false := by
  intro c first
  rw [closed c first]
  rfl

theorem ofChars?_name {stop : Char} (read : ofText? name = some [.name name]) (stops : isNamePart stop = false) :
    ofChars? (name.toList ++ stop :: rest) = (ofChars? (stop :: rest)).map (.name name :: ·) := by
  obtain ⟨c, cs, chars, starts, all, no_word⟩ := Token.ofText?_eq_name_iff.1 read
  have parts := List.all_eq_true.1 all
  have ends : Token.EndsName (stop :: rest) := Token.endsName_cons stops
  have first := Token.next?_name starts parts no_word ends
  rw [← chars, String.ofList_toList] at first
  exact ofChars?_of_next first

theorem solid_name {cs : List Char} (read : ofText? name = some [.name name])
    (solid : ∀ c ∈ name.toList.head?, isBlank c = false) :
    ∀ c ∈ (name.toList ++ cs).head?, isBlank c = false := by
  obtain ⟨c, tail, chars, -⟩ := Token.ofText?_eq_name_iff.1 read
  rw [chars] at solid ⊢
  exact solid

/-- Every name that is printed after a blank begins with none. -/
def Solid (names : List String) : Prop := ∀ name ∈ names, ∀ c ∈ name.toList.head?, isBlank c = false

theorem read_object {close : List Char} {fields : List (String × Value)} {ts : List Token}
    (read : ofText? name = some [.name name])
    (inner : ofChars? ('\n' :: renderFields depth close fields) = some ts) :
    ofChars? (name.toList ++ '\n' :: (tabs depth ++ '\x7b' :: '\n' :: renderFields depth close fields)) =
      some (.name name :: .openBrace :: ts) := by
  have brace : ofChars? ('\x7b' :: '\n' :: renderFields depth close fields) = some (.openBrace :: ts) := by
    rw [ofChars?_of_next (Token.next?_mark rfl), inner]
    rfl
  rw [ofChars?_name read rfl, ofChars?_newline_tabs (solid_cons rfl), brace]
  rfl

theorem read_close (depth : Nat) (mark : Char) {t : Token} {ts : List Token}
    (scanned : ∀ cs, Token.mark? (mark :: cs) = some (t, cs)) (solid : isBlank mark = false) (closed : Closed rest)
    (after : ofChars? rest = some ts) :
    ofChars? ('\n' :: (tabs depth ++ mark :: '\n' :: rest)) = some (t :: ts) := by
  rw [ofChars?_newline_tabs (solid_cons solid), ofChars?_of_next (Token.next?_mark (scanned _)),
    ofChars?_newline (solid_of_closed closed), after]
  rfl

theorem read_tabs {cs : List Char} (solid : ∀ c ∈ cs.head?, isBlank c = false) :
    ofChars? (tabs depth ++ cs) = ofChars? cs :=
  ofChars?_gaps (fun _ => isGap_of_mem_tabs) solid

theorem solid_number {x : Binary64} (finite : x.isFinite = true) :
    ∀ c ∈ (x.render ++ rest).head?, isBlank c = false := by
  obtain ⟨d, -, shown⟩ := Binary64.render_finite finite
  obtain ⟨whole, places, written, some_digit, digits, -⟩ := d.positional_reads_back
  cases sign : x.negative with
  | true =>
    rw [shown, sign]
    exact solid_cons rfl
  | false =>
    cases whole with
    | nil => cases some_digit rfl
    | cons c whole =>
      have bounds := Token.isDigit_bounds (digits c List.mem_cons_self)
      rw [shown, sign, written]
      apply solid_cons
      simp only [isBlank, Bool.or_eq_false_iff, Bool.and_eq_false_iff, decide_eq_false_iff_not, beq_eq_false_iff_ne]
      omega

mutual

theorem read_render (depth : Nat) {rest : List Char} {ts : List Token} (v : Value) (writable : v.Writable)
    (solid : Solid v.names) (closed : Closed rest) (after : ofChars? rest = some ts) :
    ofChars? (render depth rest v) = some (tokens ts v) := by
  cases v with
  | literal text =>
    obtain ⟨quote, ascii⟩ := writable
    rw [render, read_tabs (solid_cons rfl), ofChars?_of_next (Token.next?_literal quote ascii), after,
      String.ofList_toList]
    rfl
  | number x =>
    rw [render, read_tabs (solid_number writable), ofChars?_of_next (Token.next?_number writable closed), after]
    rfl
  | object name fields =>
    obtain ⟨read, inside⟩ := writable
    obtain ⟨first, others⟩ := List.forall_mem_cons.1 solid
    have close := read_close depth '\x7d' (fun _ => rfl) rfl closed after
    have inner := read_renderFields depth fields inside others close
    rw [render, read_tabs (solid_name read first), read_object read inner]
    rfl
  | array items =>
    have close := read_close depth ']' (fun _ => rfl) rfl closed after
    have inner := read_renderItems depth items writable solid close
    rw [render, read_tabs (solid_cons rfl), ofChars?_of_next (Token.next?_mark rfl), inner]
    rfl
  | boolean flag =>
    have shown : render depth rest (boolean flag) = tabs depth ++ (Token.word flag ++ rest) := by
      cases flag <;> rw [render, Token.word]
    have head : ∀ c ∈ (Token.word flag ++ rest).head?, isBlank c = false := by
      cases flag <;> exact solid_cons rfl
    rw [shown, read_tabs head, ofChars?_of_next (Token.next?_word closed), after]
    rfl
  | absent => cases writable

theorem read_renderItems (depth : Nat) {rest : List Char} {ts : List Token} (vs : List Value)
    (writable : WritableItems vs) (solid : Solid (itemNames vs))
    (after : ofChars? ('\n' :: rest) = some ts) :
    ofChars? ('\n' :: renderItems depth rest vs) = some (itemTokens ts vs) := by
  cases vs with
  | nil => exact after
  | cons v vs =>
    obtain ⟨first, others⟩ := writable
    have later := read_renderItems depth vs others
      (fun name among => solid name (List.mem_append_right _ among)) after
    have comma : ofChars? (',' :: '\n' :: renderItems depth rest vs) = some (.comma :: itemTokens ts vs) := by
      rw [ofChars?_of_next (Token.next?_mark rfl), later]
      rfl
    rw [renderItems, ofChars?_newline_render]
    exact read_render _ v first (fun name among => solid name (List.mem_append_left _ among)) Token.closed_comma comma

theorem read_renderFields (depth : Nat) {rest : List Char} {ts : List Token} (fields : List (String × Value))
    (writable : WritableFields fields) (solid : Solid (fieldNames fields))
    (after : ofChars? ('\n' :: rest) = some ts) :
    ofChars? ('\n' :: renderFields depth rest fields) = some (fieldTokens ts fields) := by
  cases fields with
  | nil => exact after
  | cons field fields =>
    obtain ⟨name, v⟩ := field
    obtain ⟨read, value, others⟩ := writable
    obtain ⟨first, inner⟩ := List.forall_mem_cons.1 solid
    have later := read_renderFields depth fields others
      (fun name among => inner name (List.mem_append_right _ among)) after
    have comma : ofChars? (',' :: '\n' :: renderFields depth rest fields) =
        some (.comma :: fieldTokens ts fields) := by
      rw [ofChars?_of_next (Token.next?_mark rfl), later]
      rfl
    have read_value := read_render (depth + 1) v value
      (fun name among => inner name (List.mem_append_left _ among)) Token.closed_comma comma
    rw [renderFields, ofChars?_newline_tabs (solid_name read first), ofChars?_name read rfl,
      ofChars?_of_next (Token.next?_mark rfl), ofChars?_newline_render, read_value]
    rfl

end

theorem read_text {v : Value} (writable : v.Writable) (solid : Solid v.innerNames) :
    ofText? v.text = some (tokens [] v) := by
  -- the outermost name has no indentation before it, so a blank that it begins with is kept
  have nothing : ofChars? [] = some [] := by rw [ofChars?]
  unfold text ofText?
  rw [String.toList_ofList]
  cases v with
  | object name fields =>
    obtain ⟨read, inside⟩ := writable
    have close := read_close 0 '\x7d' (fun _ => rfl) rfl Token.closed_nil nothing
    have inner := read_renderFields 0 fields inside solid close
    rw [render]
    exact read_object read inner
  | _ => exact read_render 0 _ writable solid Token.closed_nil nothing

end Reading

section Parsing

open Progress (step?)

theorem begin_item {v : Value} (writable : v.Writable) (ts : List Token) (items : List Value) (outer : List Frame) :
    (tokens ts v).foldlM step? (.atItem items outer) =
      (tokens ts v).foldlM step? (.atValue (.array items :: outer)) := by
  cases v with
  | absent => cases writable
  | _ => rfl

mutual

theorem parse_tokens (v : Value) (writable : v.Writable) (ts : List Token) (outer : List Frame) :
    (tokens ts v).foldlM step? (.atValue outer) = ts.foldlM step? (.afterValue v outer) := by
  cases v with
  | object name fields =>
    have inner := parse_fields fields writable.2 (.closeBrace :: ts) name [] outer
    rw [List.append_nil] at inner
    refine inner.trans ?_
    simp [step?]
  | array items =>
    have inner := parse_items items writable (.closeBracket :: ts) [] outer
    rw [List.append_nil] at inner
    refine inner.trans ?_
    simp [step?]
  | absent => cases writable
  | _ => rfl

theorem parse_items (vs : List Value) (writable : WritableItems vs) (ts : List Token) (items : List Value)
    (outer : List Frame) :
    (itemTokens ts vs).foldlM step? (.atItem items outer) = ts.foldlM step? (.atItem (vs.reverse ++ items) outer) := by
  cases vs with
  | nil => rfl
  | cons v vs =>
    have first := parse_tokens v writable.1 (.comma :: itemTokens ts vs) (.array items :: outer)
    have others := parse_items vs writable.2 ts (v :: items) outer
    rw [itemTokens, begin_item writable.1, first, List.reverse_cons, List.append_assoc]
    exact others

theorem parse_fields (fs : List (String × Value)) (writable : WritableFields fs) (ts : List Token) (name : String)
    (fields : List (String × Value)) (outer : List Frame) :
    (fieldTokens ts fs).foldlM step? (.atField name fields outer) =
      ts.foldlM step? (.atField name (fs.reverse ++ fields) outer) := by
  cases fs with
  | nil => rfl
  | cons field fs =>
    obtain ⟨field, v⟩ := field
    have first := parse_tokens v writable.2.1 (.comma :: fieldTokens ts fs) (.object name fields field :: outer)
    have others := parse_fields fs writable.2.2 ts name ((field, v) :: fields) outer
    rw [List.reverse_cons, List.append_assoc]
    exact first.trans others

end

theorem ofTokens?_tokens {v : Value} (writable : v.Writable) : ofTokens? (tokens [] v) = some v := by
  unfold ofTokens?
  rw [parse_tokens v writable]
  rfl

end Parsing

theorem parse_of_tokens {v : Value} {source : String} (writable : v.Writable)
    (read : ofText? source = some (tokens [] v)) : parse source = .ok v := by
  simp only [parse, read, ofTokens?_tokens writable]
  rfl

/-- A value is read back from its text if no field and no inner object has a name that begins with a blank. -/
theorem parse_text {v : Value} (writable : v.Writable) (solid : Solid v.innerNames) : parse v.text = .ok v :=
  parse_of_tokens writable (read_text writable solid)

theorem parse_text_nested :
    let v : Value := object "\u00A0Router"
      [("legend_name", literal "a \\\" b"),
        ("weights", array [number ⟨0xBFB999999999999A⟩, array [], object "true_" [("x1", boolean true)]])]
    v.Writable ∧ Solid v.innerNames ∧ parse v.text = .ok v := by
  intro v
  have router : ofText? "\u00A0Router" = some [.name "\u00A0Router"] :=
    Token.ofText?_eq_name_iff.2 ⟨'\u00A0', "Router".toList, rfl, rfl, rfl, rfl⟩
  have legend : ofText? "legend_name" = some [.name "legend_name"] :=
    Token.ofText?_eq_name_iff.2 ⟨'l', "egend_name".toList, rfl, rfl, rfl, rfl⟩
  have weights : ofText? "weights" = some [.name "weights"] :=
    Token.ofText?_eq_name_iff.2 ⟨'w', "eights".toList, rfl, rfl, rfl, rfl⟩
  have almost_word : ofText? "true_" = some [.name "true_"] :=
    Token.ofText?_eq_name_iff.2 ⟨'t', "rue_".toList, rfl, rfl, rfl, rfl⟩
  have numbered : ofText? "x1" = some [.name "x1"] :=
    Token.ofText?_eq_name_iff.2 ⟨'x', "1".toList, rfl, rfl, rfl, rfl⟩
  have writable : v.Writable :=
    ⟨router, legend, ⟨rfl, by simp⟩, weights,
      ⟨rfl, trivial, ⟨almost_word, numbered, trivial, trivial⟩, trivial⟩, trivial⟩
  have solid : Solid v.innerNames := by
    simp [v, Solid, innerNames, fieldNames, itemNames, names]
    decide
  exact ⟨writable, solid, parse_text writable solid⟩

/-- A no-break space before the name of a field is lost with the indentation. -/
theorem leading_blank_lost :
    let v : Value := object "A" [("\u00A0x", boolean true)]
    v.Writable ∧ parse v.text = .ok (object "A" [("x", boolean true)]) ∧ parse v.text ≠ .ok v := by
  intro v
  have outer : ofText? "A" = some [.name "A"] := Token.ofText?_eq_name_iff.2 ⟨'A', [], rfl, rfl, rfl, rfl⟩
  have blank : ofText? "\u00A0x" = some [.name "\u00A0x"] :=
    Token.ofText?_eq_name_iff.2 ⟨'\u00A0', ['x'], rfl, rfl, rfl, rfl⟩
  have plain : ofText? "x" = some [.name "x"] := Token.ofText?_eq_name_iff.2 ⟨'x', [], rfl, rfl, rfl, rfl⟩
  have nothing : ofChars? [] = some [] := by rw [ofChars?]
  have close := read_close 0 '\x7d' (fun _ => rfl) rfl Token.closed_nil nothing
  have inner := read_renderFields 0 [("x", boolean true)] ⟨plain, trivial, trivial⟩
    (by simp [Solid, fieldNames, names]; decide) close
  have skipped : ofChars? ('\n' :: renderFields 0 ('\x7d' :: '\n' :: []) [("\u00A0x", boolean true)]) =
      ofChars? ('\n' :: renderFields 0 ('\x7d' :: '\n' :: []) [("x", boolean true)]) := by
    rw [renderFields, renderFields]
    have solid : ∀ c ∈ ('x' :: ':' :: '\n' ::
        render 1 (',' :: '\n' :: '\x7d' :: '\n' :: []) (boolean true)).head?, isBlank c = false := solid_cons rfl
    have left := Token.ofChars?_blanks ['\t', '\u00A0'] (.inr rfl) (List.all_eq_true.1 rfl) solid
    have right := Token.ofChars?_blanks ['\t'] (.inr rfl) (List.all_eq_true.1 rfl) solid
    exact left.trans right.symm
  have read : parse v.text = .ok (object "A" [("x", boolean true)]) := by
    apply parse_of_tokens (v := object "A" [("x", boolean true)]) ⟨outer, plain, trivial, trivial⟩
    unfold text ofText?
    rw [String.toList_ofList]
    exact read_object outer (skipped.trans inner)
  refine ⟨⟨outer, blank, trivial, trivial⟩, read, ?_⟩
  rw [read]
  simp [v]

end Value

end Interconnect.Config
