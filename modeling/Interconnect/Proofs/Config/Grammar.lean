import Mathlib
import Interconnect.Proofs.Config.Token
import Interconnect.Config.Typed

namespace Interconnect.Config

inductive Symbol where
  | boolean (flag : Bool)
  | number
  | literal
  | name
  | openBrace
  | closeBrace
  | openBracket
  | closeBracket
  | comma
  | colon
  | value
  | object
  | members
  | pair
  | array
  | elements
deriving DecidableEq

def Token.symbol : Token → Symbol
  | boolean flag => .boolean flag
  | number _ => .number
  | literal _ => .literal
  | name _ => .name
  | openBrace => .openBrace
  | closeBrace => .closeBrace
  | openBracket => .openBracket
  | closeBracket => .closeBracket
  | comma => .comma
  | colon => .colon

inductive Meaning where
  | token (t : Token)
  | value (v : Value)
  | object (v : Value)
  | members (fields : List (String × Value))
  | pair (name : String) (v : Value)
  | array (items : List Value)
  | elements (items : List Value)

/-- The rules: what a phrase is made of, and what it means, given what its parts mean. -/
inductive Rule : Symbol → List Symbol → List Meaning → Meaning → Prop where
  | literal (text : String) : Rule .value [.literal] [.token (.literal text)] (.value (.literal text))
  | number (x : Binary64) : Rule .value [.number] [.token (.number x)] (.value (.number x))
  | object (v : Value) : Rule .value [.object] [.object v] (.value v)
  | array (items : List Value) : Rule .value [.array] [.array items] (.value (.array items))
  | boolean (flag : Bool) : Rule .value [.boolean flag] [.token (.boolean flag)] (.value (.boolean flag))
  | bare (name : String) : Rule .object [.name] [.token (.name name)] (.object (.object name []))
  | noMembers (name : String) :
    Rule .object [.name, .openBrace, .closeBrace] [.token (.name name), .token .openBrace, .token .closeBrace]
      (.object (.object name []))
  | braces (name : String) (fields : List (String × Value)) :
    Rule .object [.name, .openBrace, .members, .closeBrace]
      [.token (.name name), .token .openBrace, .members fields, .token .closeBrace] (.object (.object name fields))
  | bracesComma (name : String) (fields : List (String × Value)) :
    Rule .object [.name, .openBrace, .members, .comma, .closeBrace]
      [.token (.name name), .token .openBrace, .members fields, .token .comma, .token .closeBrace]
      (.object (.object name fields))
  | firstMember (name : String) (v : Value) : Rule .members [.pair] [.pair name v] (.members [(name, v)])
  | nextMember (fields : List (String × Value)) (name : String) (v : Value) :
    Rule .members [.members, .comma, .pair] [.members fields, .token .comma, .pair name v]
      (.members (fields ++ [(name, v)]))
  | pair (name : String) (v : Value) :
    Rule .pair [.name, .colon, .value] [.token (.name name), .token .colon, .value v] (.pair name v)
  | noElements : Rule .array [.openBracket, .closeBracket] [.token .openBracket, .token .closeBracket] (.array [])
  | brackets (items : List Value) :
    Rule .array [.openBracket, .elements, .closeBracket]
      [.token .openBracket, .elements items, .token .closeBracket] (.array items)
  | bracketsComma (items : List Value) :
    Rule .array [.openBracket, .elements, .comma, .closeBracket]
      [.token .openBracket, .elements items, .token .comma, .token .closeBracket] (.array items)
  | firstElement (v : Value) : Rule .elements [.value] [.value v] (.elements [v])
  | nextElement (items : List Value) (v : Value) :
    Rule .elements [.elements, .comma, .value] [.elements items, .token .comma, .value v]
      (.elements (items ++ [v]))

structure Phrase where
  symbol : Symbol
  tokens : List Token
  meaning : Meaning

/-- The tokens are derived from the symbol, and mean this. -/
inductive Derives : Symbol → List Token → Meaning → Prop where
  | token {s : Symbol} (t : Token) (kind : t.symbol = s) : Derives s [t] (.token t)
  | rule {s : Symbol} {m : Meaning} (parts : List Phrase)
      (derived : ∀ p ∈ parts, Derives p.symbol p.tokens p.meaning)
      (rule : Rule s (parts.map Phrase.symbol) (parts.map Phrase.meaning) m) :
      Derives s (parts.flatMap Phrase.tokens) m

section Reading

open Progress (endValue?)

variable {v : Value} {ts : List Token} {t : Token} {name : String} {fields : List (String × Value)}
  {items : List Value} {outer : List Frame} {p q : Progress}

namespace Progress

def run (p : Progress) (ts : List Token) : Option Progress := ts.foldlM step? p

theorem run_cons (p : Progress) (t : Token) (ts : List Token) : p.run (t :: ts) = (p.step? t).bind (·.run ts) :=
  List.foldlM_cons

theorem run_append (p : Progress) (ts us : List Token) : p.run (ts ++ us) = (p.run ts).bind (·.run us) :=
  List.foldlM_append

inductive Ends (v : Value) (outer : List Frame) : Progress → Prop where
  | value : Ends v outer (.afterValue v outer)
  | name (name : String) (bare : v = .object name []) : Ends v outer (.afterName name outer)

theorem Ends.step?_eq (ends : p.Ends v outer) (plain : t ≠ .openBrace) : p.step? t = endValue? v outer t := by
  cases ends with
  | value => rfl
  | name name bare =>
    subst bare
    cases t with
    | openBrace => exact absurd rfl plain
    | _ => rfl

theorem Ends.value?_eq (ends : p.Ends v []) : p.value? = some v := by
  cases ends with
  | value => rfl
  | name name bare =>
    subst bare
    rfl

def EndsFields (p : Progress) (name : String) (fields : List (String × Value)) (outer : List Frame) : Prop :=
  ∃ before field v, fields = before ++ [(field, v)] ∧ p.Ends v (.object name before.reverse field :: outer)

def EndsItems (p : Progress) (items : List Value) (outer : List Frame) : Prop :=
  ∃ before v, items = before ++ [v] ∧ p.Ends v (.array before.reverse :: outer)

theorem EndsFields.comma (ends : p.EndsFields name fields outer) :
    p.step? .comma = some (.atField name fields.reverse outer) := by
  rcases ends with ⟨before, field, v, rfl, ends⟩
  rw [ends.step?_eq (t := .comma) nofun, List.reverse_append]
  rfl

theorem EndsFields.close (ends : p.EndsFields name fields outer) :
    p.step? .closeBrace = some (.afterValue (.object name fields) outer) := by
  rcases ends with ⟨before, field, v, rfl, ends⟩
  rw [ends.step?_eq (t := .closeBrace) nofun]
  simp [endValue?]

theorem EndsItems.comma (ends : p.EndsItems items outer) : p.step? .comma = some (.atItem items.reverse outer) := by
  rcases ends with ⟨before, v, rfl, ends⟩
  rw [ends.step?_eq (t := .comma) nofun, List.reverse_append]
  rfl

theorem EndsItems.close (ends : p.EndsItems items outer) :
    p.step? .closeBracket = some (.afterValue (.array items) outer) := by
  rcases ends with ⟨before, v, rfl, ends⟩
  rw [ends.step?_eq (t := .closeBracket) nofun]
  simp [endValue?]

end Progress

def BeginsItem (ts : List Token) : Prop := ∃ t us, ts = t :: us ∧ t ≠ .closeBracket

theorem BeginsItem.run_eq (begins : BeginsItem ts) (items : List Value) (outer : List Frame) :
    (Progress.atItem items outer).run ts = (Progress.atValue (.array items :: outer)).run ts := by
  rcases begins with ⟨t, us, rfl, apart⟩
  rw [Progress.run_cons, Progress.run_cons]
  cases t with
  | closeBracket => exact absurd rfl apart
  | _ => rfl

/-- What the parser makes of the tokens of a phrase, wherever such a phrase may stand. -/
def Reads (ts : List Token) : Meaning → Prop
  | .token t => ts = [t]
  | .value v | .object v =>
    BeginsItem ts ∧ ∀ outer, ∃ p, (Progress.atValue outer).run ts = some p ∧ p.Ends v outer
  | .members fields =>
    ∀ name outer, ∃ p, (Progress.atField name [] outer).run ts = some p ∧ p.EndsFields name fields outer
  | .pair field v =>
    ∀ name fields outer, ∃ p, (Progress.atField name fields outer).run ts = some p ∧
      p.Ends v (.object name fields field :: outer)
  | .array items =>
    BeginsItem ts ∧ ∀ outer, (Progress.atValue outer).run ts = some (.afterValue (.array items) outer)
  | .elements items =>
    ∀ outer, ∃ p, (Progress.atItem [] outer).run ts = some p ∧ p.EndsItems items outer

theorem Rule.reads {s : Symbol} {body : List Symbol} {meanings : List Meaning} {m : Meaning}
    (rule : Rule s body meanings m) {texts : List (List Token)} (parts : List.Forall₂ Reads texts meanings) :
    Reads texts.flatten m := by
  cases rule with
  | literal text =>
    rcases parts with _ | ⟨rfl, _ | _⟩
    exact ⟨⟨_, _, rfl, nofun⟩, fun outer => ⟨_, rfl, .value⟩⟩
  | number x =>
    rcases parts with _ | ⟨rfl, _ | _⟩
    exact ⟨⟨_, _, rfl, nofun⟩, fun outer => ⟨_, rfl, .value⟩⟩
  | object v =>
    rcases parts with _ | ⟨inner, _ | _⟩
    rw [List.flatten_singleton]
    exact inner
  | array items =>
    rcases parts with _ | ⟨⟨begins, inner⟩, _ | _⟩
    rw [List.flatten_singleton]
    exact ⟨begins, fun outer => ⟨_, inner outer, .value⟩⟩
  | boolean flag =>
    rcases parts with _ | ⟨rfl, _ | _⟩
    exact ⟨⟨_, _, rfl, nofun⟩, fun outer => ⟨_, rfl, .value⟩⟩
  | bare name =>
    rcases parts with _ | ⟨rfl, _ | _⟩
    exact ⟨⟨_, _, rfl, nofun⟩, fun outer => ⟨_, rfl, .name name rfl⟩⟩
  | noMembers name =>
    rcases parts with _ | ⟨rfl, _ | ⟨rfl, _ | ⟨rfl, _ | _⟩⟩⟩
    exact ⟨⟨_, _, rfl, nofun⟩, fun outer => ⟨_, rfl, .value⟩⟩
  | braces name fields =>
    rcases parts with _ | ⟨rfl, _ | ⟨rfl, _ | @⟨ts, _, _, _, members, _ | ⟨rfl, _ | _⟩⟩⟩⟩
    refine ⟨⟨_, _, rfl, nofun⟩, fun outer => ⟨_, ?_, .value⟩⟩
    rcases members name outer with ⟨p, read, ends⟩
    show (Progress.atField name [] outer).run (ts ++ [Token.closeBrace]) = _
    rw [Progress.run_append, read, Option.bind_some, Progress.run_cons, ends.close]
    rfl
  | bracesComma name fields =>
    rcases parts with _ | ⟨rfl, _ | ⟨rfl, _ | @⟨ts, _, _, _, members, _ | ⟨rfl, _ | ⟨rfl, _ | _⟩⟩⟩⟩⟩
    refine ⟨⟨_, _, rfl, nofun⟩, fun outer => ⟨_, ?_, .value⟩⟩
    rcases members name outer with ⟨p, read, ends⟩
    show (Progress.atField name [] outer).run (ts ++ [Token.comma, Token.closeBrace]) = _
    rw [Progress.run_append, read, Option.bind_some, Progress.run_cons, ends.comma, Option.bind_some]
    show some (Progress.afterValue (.object name fields.reverse.reverse) outer) = _
    rw [List.reverse_reverse]
  | firstMember name v =>
    rcases parts with _ | ⟨first, _ | _⟩
    rw [List.flatten_singleton]
    intro object outer
    rcases first object [] outer with ⟨p, read, ends⟩
    exact ⟨p, read, [], name, v, rfl, ends⟩
  | nextMember fields name v =>
    rcases parts with _ | @⟨ts, _, _, _, members, _ | ⟨rfl, _ | @⟨us, _, _, _, next, _ | _⟩⟩⟩
    intro object outer
    rcases members object outer with ⟨p, read, ends⟩
    rcases next object fields.reverse outer with ⟨q, read', ends'⟩
    refine ⟨q, ?_, fields, name, v, rfl, ends'⟩
    show (Progress.atField object [] outer).run (ts ++ Token.comma :: (us ++ [])) = _
    rw [Progress.run_append, read, Option.bind_some, Progress.run_cons, ends.comma, Option.bind_some,
      List.append_nil, read']
  | pair name v =>
    rcases parts with _ | ⟨rfl, _ | ⟨rfl, _ | @⟨ts, _, _, _, value, _ | _⟩⟩⟩
    intro object fields outer
    rcases value with ⟨-, value⟩
    rcases value (.object object fields name :: outer) with ⟨p, read, ends⟩
    refine ⟨p, ?_, ends⟩
    show (Progress.atValue (.object object fields name :: outer)).run (ts ++ []) = _
    rw [List.append_nil, read]
  | noElements =>
    rcases parts with _ | ⟨rfl, _ | ⟨rfl, _ | _⟩⟩
    exact ⟨⟨_, _, rfl, nofun⟩, fun outer => rfl⟩
  | brackets items =>
    rcases parts with _ | ⟨rfl, _ | @⟨ts, _, _, _, elements, _ | ⟨rfl, _ | _⟩⟩⟩
    refine ⟨⟨_, _, rfl, nofun⟩, fun outer => ?_⟩
    rcases elements outer with ⟨p, read, ends⟩
    show (Progress.atItem [] outer).run (ts ++ [Token.closeBracket]) = _
    rw [Progress.run_append, read, Option.bind_some, Progress.run_cons, ends.close]
    rfl
  | bracketsComma items =>
    rcases parts with _ | ⟨rfl, _ | @⟨ts, _, _, _, elements, _ | ⟨rfl, _ | ⟨rfl, _ | _⟩⟩⟩⟩
    refine ⟨⟨_, _, rfl, nofun⟩, fun outer => ?_⟩
    rcases elements outer with ⟨p, read, ends⟩
    show (Progress.atItem [] outer).run (ts ++ [Token.comma, Token.closeBracket]) = _
    rw [Progress.run_append, read, Option.bind_some, Progress.run_cons, ends.comma, Option.bind_some]
    show some (Progress.afterValue (.array items.reverse.reverse) outer) = _
    rw [List.reverse_reverse]
  | firstElement v =>
    rcases parts with _ | ⟨⟨begins, first⟩, _ | _⟩
    rw [List.flatten_singleton]
    intro outer
    rcases first (.array [] :: outer) with ⟨p, read, ends⟩
    rw [begins.run_eq]
    exact ⟨p, read, [], v, rfl, ends⟩
  | nextElement items v =>
    rcases parts with _ | @⟨ts, _, _, _, elements, _ | ⟨rfl, _ | @⟨us, _, _, _, ⟨begins, next⟩, _ | _⟩⟩⟩
    intro outer
    rcases elements outer with ⟨p, read, ends⟩
    rcases next (.array items.reverse :: outer) with ⟨q, read', ends'⟩
    refine ⟨q, ?_, items, v, rfl, ends'⟩
    show (Progress.atItem [] outer).run (ts ++ Token.comma :: (us ++ [])) = _
    rw [Progress.run_append, read, Option.bind_some, Progress.run_cons, ends.comma, Option.bind_some,
      List.append_nil, begins.run_eq, read']

theorem Derives.reads {s : Symbol} {m : Meaning} (derives : Derives s ts m) : Reads ts m := by
  induction derives with
  | token t kind => rfl
  | rule parts derived rule ih =>
    have read : List.Forall₂ Reads (parts.map Phrase.tokens) (parts.map Phrase.meaning) := by
      rw [List.forall₂_map_left_iff, List.forall₂_map_right_iff, List.forall₂_same]
      exact ih
    rw [List.flatMap_def]
    exact rule.reads read

theorem Derives.ofTokens?_eq (derives : Derives .value ts (.value v)) : Value.ofTokens? ts = some v := by
  rcases derives.reads with ⟨-, read⟩
  rcases read [] with ⟨p, run, ends⟩
  unfold Value.ofTokens?
  rw [show ts.foldlM Progress.step? (.atValue []) = some p from run]
  exact ends.value?_eq

end Reading

section Deriving

open Progress (step? beginValue? endValue?)

variable {v : Value} {ts us : List Token} {t : Token} {name field : String} {fields : List (String × Value)}
  {items : List Value} {outer : List Frame} {p q : Progress}

def Phrase.ofToken (t : Token) : Phrase := ⟨t.symbol, [t], .token t⟩

@[simp] theorem Phrase.tokens_ofToken (t : Token) : (Phrase.ofToken t).tokens = [t] := rfl

namespace Derives

theorem ofToken (t : Token) :
    Derives (Phrase.ofToken t).symbol (Phrase.ofToken t).tokens (Phrase.ofToken t).meaning := .token t rfl

theorem value_of_object (object : Derives .object ts (.object v)) : Derives .value ts (.value v) := by
  have whole := Derives.rule [⟨.object, ts, .object v⟩] (by simpa using object) (.object v)
  simpa using whole

theorem value_of_array (array : Derives .array ts (.array items)) : Derives .value ts (.value (.array items)) := by
  have whole := Derives.rule [⟨.array, ts, .array items⟩] (by simpa using array) (.array items)
  simpa using whole

theorem bare (name : String) : Derives .value [.name name] (.value (.object name [])) :=
  value_of_object (.rule [.ofToken (.name name)] (by simpa using ofToken _) (.bare name))

theorem noMembers (name : String) :
    Derives .value [.name name, .openBrace, .closeBrace] (.value (.object name [])) := by
  apply value_of_object
  apply Derives.rule [.ofToken (.name name), .ofToken .openBrace, .ofToken .closeBrace] _ (.noMembers name)
  simp only [List.forall_mem_cons]
  exact ⟨ofToken _, ofToken _, ofToken _, List.forall_mem_nil _⟩

theorem braces (name : String) (members : Derives .members ts (.members fields)) :
    Derives .value (.name name :: .openBrace :: (ts ++ [Token.closeBrace])) (.value (.object name fields)) := by
  apply value_of_object
  apply Derives.rule [.ofToken (.name name), .ofToken .openBrace, ⟨.members, ts, .members fields⟩,
    .ofToken .closeBrace] _ (.braces name fields)
  simp only [List.forall_mem_cons]
  exact ⟨ofToken _, ofToken _, members, ofToken _, List.forall_mem_nil _⟩

theorem bracesComma (name : String) (members : Derives .members ts (.members fields)) :
    Derives .value (.name name :: .openBrace :: (ts ++ [Token.comma, Token.closeBrace]))
      (.value (.object name fields)) := by
  apply value_of_object
  apply Derives.rule [.ofToken (.name name), .ofToken .openBrace, ⟨.members, ts, .members fields⟩, .ofToken .comma,
    .ofToken .closeBrace] _ (.bracesComma name fields)
  simp only [List.forall_mem_cons]
  exact ⟨ofToken _, ofToken _, members, ofToken _, ofToken _, List.forall_mem_nil _⟩

theorem pair (field : String) (value : Derives .value ts (.value v)) :
    Derives .pair (.name field :: .colon :: ts) (.pair field v) := by
  have whole := Derives.rule [.ofToken (.name field), .ofToken .colon, ⟨.value, ts, .value v⟩]
    (by simp only [List.forall_mem_cons]; exact ⟨ofToken _, ofToken _, value, List.forall_mem_nil _⟩) (.pair field v)
  simpa using whole

theorem firstMember (field : String) (value : Derives .value ts (.value v)) :
    Derives .members (.name field :: .colon :: ts) (.members [(field, v)]) := by
  have whole := Derives.rule [⟨.pair, _, .pair field v⟩] (by simpa using pair field value) (.firstMember field v)
  simpa using whole

theorem nextMember (members : Derives .members us (.members fields)) (field : String)
    (value : Derives .value ts (.value v)) :
    Derives .members (us ++ .comma :: .name field :: .colon :: ts) (.members (fields ++ [(field, v)])) := by
  have whole := Derives.rule [⟨.members, us, .members fields⟩, .ofToken .comma, ⟨.pair, _, .pair field v⟩]
    (by simp only [List.forall_mem_cons]; exact ⟨members, ofToken _, pair field value, List.forall_mem_nil _⟩)
    (.nextMember fields field v)
  simpa using whole

theorem noElements : Derives .value [.openBracket, .closeBracket] (.value (.array [])) := by
  apply value_of_array
  apply Derives.rule [.ofToken .openBracket, .ofToken .closeBracket] _ .noElements
  simp only [List.forall_mem_cons]
  exact ⟨ofToken _, ofToken _, List.forall_mem_nil _⟩

theorem brackets (elements : Derives .elements ts (.elements items)) :
    Derives .value (.openBracket :: (ts ++ [Token.closeBracket])) (.value (.array items)) := by
  apply value_of_array
  apply Derives.rule [.ofToken .openBracket, ⟨.elements, ts, .elements items⟩, .ofToken .closeBracket] _
    (.brackets items)
  simp only [List.forall_mem_cons]
  exact ⟨ofToken _, elements, ofToken _, List.forall_mem_nil _⟩

theorem bracketsComma (elements : Derives .elements ts (.elements items)) :
    Derives .value (.openBracket :: (ts ++ [Token.comma, Token.closeBracket])) (.value (.array items)) := by
  apply value_of_array
  apply Derives.rule [.ofToken .openBracket, ⟨.elements, ts, .elements items⟩, .ofToken .comma,
    .ofToken .closeBracket] _ (.bracketsComma items)
  simp only [List.forall_mem_cons]
  exact ⟨ofToken _, elements, ofToken _, ofToken _, List.forall_mem_nil _⟩

theorem firstElement (value : Derives .value ts (.value v)) : Derives .elements ts (.elements [v]) := by
  have whole := Derives.rule [⟨.value, ts, .value v⟩] (by simpa using value) (.firstElement v)
  simpa using whole

theorem nextElement (elements : Derives .elements us (.elements items)) (value : Derives .value ts (.value v)) :
    Derives .elements (us ++ .comma :: ts) (.elements (items ++ [v])) := by
  have whole := Derives.rule [⟨.elements, us, .elements items⟩, .ofToken .comma, ⟨.value, ts, .value v⟩]
    (by simp only [List.forall_mem_cons]; exact ⟨elements, ofToken _, value, List.forall_mem_nil _⟩)
    (.nextElement items v)
  simpa using whole

end Derives

inductive FieldsBefore : List Token → List (String × Value) → Prop where
  | none : FieldsBefore [] []
  | comma {ts : List Token} {fields : List (String × Value)} (members : Derives .members ts (.members fields)) :
    FieldsBefore (ts ++ [.comma]) fields

inductive ItemsBefore : List Token → List Value → Prop where
  | none : ItemsBefore [] []
  | comma {ts : List Token} {items : List Value} (elements : Derives .elements ts (.elements items)) :
    ItemsBefore (ts ++ [.comma]) items

theorem FieldsBefore.members (before : FieldsBefore us fields) (field : String)
    (value : Derives .value ts (.value v)) :
    Derives .members (us ++ .name field :: .colon :: ts) (.members (fields ++ [(field, v)])) := by
  cases before with
  | none => exact .firstMember field value
  | comma members =>
    rw [List.append_assoc]
    exact members.nextMember field value

theorem FieldsBefore.close (before : FieldsBefore us fields) (name : String) :
    Derives .value (.name name :: .openBrace :: (us ++ [Token.closeBrace])) (.value (.object name fields)) := by
  cases before with
  | none => exact .noMembers name
  | comma members =>
    rw [List.append_assoc]
    exact .bracesComma name members

theorem ItemsBefore.elements (before : ItemsBefore us items) (value : Derives .value ts (.value v)) :
    Derives .elements (us ++ ts) (.elements (items ++ [v])) := by
  cases before with
  | none => exact .firstElement value
  | comma elements =>
    rw [List.append_assoc]
    exact elements.nextElement value

theorem ItemsBefore.close (before : ItemsBefore us items) :
    Derives .value (.openBracket :: (us ++ [Token.closeBracket])) (.value (.array items)) := by
  cases before with
  | none => exact .noElements
  | comma elements =>
    rw [List.append_assoc]
    exact .bracketsComma elements

inductive Leads : List Token → List Frame → Prop where
  | start : Leads [] []
  | array {ts us : List Token} {items : List Value} {outer : List Frame} (before : Leads ts outer)
      (inner : ItemsBefore us items.reverse) : Leads (ts ++ .openBracket :: us) (.array items :: outer)
  | object {ts us : List Token} (name field : String) {fields : List (String × Value)} {outer : List Frame}
      (before : Leads ts outer) (inner : FieldsBefore us fields.reverse) :
      Leads (ts ++ .name name :: .openBrace :: (us ++ [.name field, .colon])) (.object name fields field :: outer)

/-- What the tokens have been read as, in terms of the grammar. -/
inductive Reached : List Token → Progress → Prop where
  | atValue {ts : List Token} {outer : List Frame} (before : Leads ts outer) : Reached ts (.atValue outer)
  | atItem {ts us : List Token} {items : List Value} {outer : List Frame} (before : Leads ts outer)
      (inner : ItemsBefore us items.reverse) : Reached (ts ++ .openBracket :: us) (.atItem items outer)
  | atField {ts us : List Token} (name : String) {fields : List (String × Value)} {outer : List Frame}
      (before : Leads ts outer) (inner : FieldsBefore us fields.reverse) :
      Reached (ts ++ .name name :: .openBrace :: us) (.atField name fields outer)
  | atColon {ts us : List Token} (name field : String) {fields : List (String × Value)} {outer : List Frame}
      (before : Leads ts outer) (inner : FieldsBefore us fields.reverse) :
      Reached (ts ++ .name name :: .openBrace :: (us ++ [.name field])) (.atColon name fields field outer)
  | afterName {ts : List Token} {outer : List Frame} (before : Leads ts outer) (name : String) :
      Reached (ts ++ [.name name]) (.afterName name outer)
  | afterValue {ts us : List Token} {v : Value} {outer : List Frame} (before : Leads ts outer)
      (inner : Derives .value us (.value v)) : Reached (ts ++ us) (.afterValue v outer)

theorem Leads.begin (before : Leads ts outer) (step : beginValue? outer t = some q) : Reached (ts ++ [t]) q := by
  cases t with
  | boolean flag =>
    cases step
    exact .afterValue before (.rule [.ofToken (.boolean flag)] (by simpa using Derives.ofToken _) (.boolean flag))
  | number x =>
    cases step
    exact .afterValue before (.rule [.ofToken (.number x)] (by simpa using Derives.ofToken _) (.number x))
  | literal text =>
    cases step
    exact .afterValue before (.rule [.ofToken (.literal text)] (by simpa using Derives.ofToken _) (.literal text))
  | name name =>
    cases step
    exact .afterName before name
  | openBracket =>
    cases step
    exact .atItem before .none
  | _ => cases step

theorem Leads.end (before : Leads ts outer) (inner : Derives .value us (.value v))
    (step : endValue? v outer t = some q) : Reached (ts ++ us ++ [t]) q := by
  cases before with
  | start => cases step
  | @array ts ws items outer before items_before =>
    have elements := items_before.elements inner
    rw [← List.reverse_cons] at elements
    cases t with
    | comma =>
      cases step
      have reached := Reached.atItem before (.comma elements)
      simpa using reached
    | closeBracket =>
      cases step
      have reached := Reached.afterValue before (.brackets elements)
      simpa using reached
    | _ => cases step
  | @object ts ws name field fields outer before fields_before =>
    have members := fields_before.members field inner
    rw [← List.reverse_cons] at members
    cases t with
    | comma =>
      cases step
      have reached := Reached.atField name before (.comma members)
      simpa using reached
    | closeBrace =>
      cases step
      have reached := Reached.afterValue before (.braces name members)
      simpa using reached
    | _ => cases step

theorem Reached.step (reached : Reached ts p) (step : p.step? t = some q) : Reached (ts ++ [t]) q := by
  cases reached with
  | atValue before => exact before.begin step
  | @atItem ts us items outer before inner =>
    cases t with
    | closeBracket =>
      cases step
      have reached := Reached.afterValue before inner.close
      simpa using reached
    | _ => exact (Leads.array before inner).begin step
  | @atField ts us name fields outer before inner =>
    cases t with
    | closeBrace =>
      cases step
      have reached := Reached.afterValue before (inner.close name)
      simpa using reached
    | name field =>
      cases step
      have reached := Reached.atColon name field before inner
      simpa using reached
    | _ => cases step
  | @atColon ts us name field fields outer before inner =>
    cases t with
    | colon =>
      cases step
      have reached := Reached.atValue (Leads.object name field before inner)
      simpa using reached
    | _ => cases step
  | @afterName ts outer before name =>
    cases t with
    | openBrace =>
      cases step
      have none_before : FieldsBefore [] ([] : List (String × Value)).reverse := .none
      have reached := Reached.atField name before none_before
      simpa using reached
    | _ => exact before.end (.bare name) step
  | afterValue before inner => exact before.end inner step

theorem Reached.run (reached : Reached ts p) (run : p.run us = some q) : Reached (ts ++ us) q := by
  induction us generalizing ts p with
  | nil =>
    cases run
    rw [List.append_nil]
    exact reached
  | cons t us ih =>
    rw [Progress.run_cons] at run
    rcases Option.bind_eq_some_iff.1 run with ⟨next, step, rest⟩
    have further := ih (reached.step step) rest
    rwa [List.append_assoc] at further

theorem derives_of_ofTokens? (read : Value.ofTokens? ts = some v) : Derives .value ts (.value v) := by
  rcases Option.bind_eq_some_iff.1 read with ⟨p, run, whole⟩
  have reached := (Reached.atValue .start).run run
  unfold Progress.value? at whole
  split at whole
  · rename_i name
    cases whole
    cases reached with
    | afterName before =>
      cases before
      exact .bare name
  · rename_i value
    cases whole
    cases reached with
    | afterValue before inner =>
      cases before
      exact inner
  · cases whole

theorem ofTokens?_eq_some_iff : Value.ofTokens? ts = some v ↔ Derives .value ts (.value v) :=
  ⟨derives_of_ofTokens?, Derives.ofTokens?_eq⟩

end Deriving

section Listing

variable {v : Value} {ts : List Token} {name : String} {fields : List (String × Value)} {items : List Value}

structure Entry where
  name : String
  tokens : List Token
  value : Value

structure Item where
  tokens : List Token
  value : Value

namespace Entry

def written (e : Entry) : List Token := .name e.name :: .colon :: e.tokens

def field (e : Entry) : String × Value := (e.name, e.value)

end Entry

def joined (parts : List (List Token)) : List Token := [Token.comma].intercalate parts

theorem joined_singleton (part : List Token) : joined [part] = part := List.intercalate_singleton

theorem joined_concat (first : List Token) (parts : List (List Token)) (last : List Token) :
    joined (first :: parts ++ [last]) = joined (first :: parts) ++ .comma :: last := by
  induction parts generalizing first with
  | nil =>
    show joined [first, last] = joined [first] ++ .comma :: last
    simp [joined]
  | cons next parts ih =>
    have later := ih next
    simp only [joined, List.cons_append, List.intercalate_cons_cons] at later ⊢
    rw [later]
    simp

theorem joined_append {parts : List (List Token)} (some_part : parts ≠ []) (last : List Token) :
    joined (parts ++ [last]) = joined parts ++ .comma :: last := by
  cases parts with
  | nil => exact absurd rfl some_part
  | cons first parts => exact joined_concat first parts last

theorem joined_induction {α : Type} {written : α → List Token} {good : α → Prop}
    {motive : List Token → List α → Prop} {parts : List α} (some_part : parts ≠ []) (all : ∀ a ∈ parts, good a)
    (first : ∀ a, good a → motive (written a) [a])
    (next : ∀ ts before a, motive ts before → good a → motive (ts ++ .comma :: written a) (before ++ [a])) :
    motive (joined (parts.map written)) parts := by
  induction parts using List.reverseRecOn with
  | nil => exact absurd rfl some_part
  | append_singleton parts a ih =>
    have last := all a (by simp)
    cases parts with
    | nil =>
      show motive (joined [written a]) [a]
      rw [joined_singleton]
      exact first a last
    | cons head parts =>
      have before := ih nofun fun b among => all b (List.mem_append_left _ among)
      rw [List.map_append, List.map_singleton, List.map_cons, joined_concat]
      exact next _ _ a before last

def ListsFields (ts : List Token) (fields : List (String × Value)) : Prop :=
  ∃ entries : List Entry, entries ≠ [] ∧ (∀ e ∈ entries, Derives .value e.tokens (.value e.value)) ∧
    ts = joined (entries.map Entry.written) ∧ fields = entries.map Entry.field

def ListsItems (ts : List Token) (items : List Value) : Prop :=
  ∃ entries : List Item, entries ≠ [] ∧ (∀ e ∈ entries, Derives .value e.tokens (.value e.value)) ∧
    ts = joined (entries.map Item.tokens) ∧ items = entries.map Item.value

/-- A name alone, with empty braces, or with fields in braces and perhaps a comma after the last. -/
def SpellsObject (ts : List Token) (name : String) (fields : List (String × Value)) : Prop :=
  fields = [] ∧ (ts = [.name name] ∨ ts = [.name name, .openBrace, .closeBrace]) ∨
    ∃ listed, ListsFields listed fields ∧
      (ts = .name name :: .openBrace :: (listed ++ [.closeBrace]) ∨
        ts = .name name :: .openBrace :: (listed ++ [.comma, .closeBrace]))

def SpellsArray (ts : List Token) (items : List Value) : Prop :=
  items = [] ∧ ts = [.openBracket, .closeBracket] ∨
    ∃ listed, ListsItems listed items ∧
      (ts = .openBracket :: (listed ++ [.closeBracket]) ∨ ts = .openBracket :: (listed ++ [.comma, .closeBracket]))

def Spells (ts : List Token) : Value → Prop
  | .object name fields => SpellsObject ts name fields
  | .array items => SpellsArray ts items
  | .literal text => ts = [.literal text]
  | .number x => ts = [.number x]
  | .boolean flag => ts = [.boolean flag]
  | .absent => False

theorem ListsFields.concat (listed : ListsFields ts fields) (e : Entry)
    (value : Derives .value e.tokens (.value e.value)) :
    ListsFields (ts ++ .comma :: e.written) (fields ++ [e.field]) := by
  rcases listed with ⟨entries, some_entry, values, rfl, rfl⟩
  have some_part : entries.map Entry.written ≠ [] := by simpa using some_entry
  refine ⟨entries ++ [e], by simp, ?_, ?_, by rw [List.map_append, List.map_singleton]⟩
  · exact List.forall_mem_append.2 ⟨values, List.forall_mem_singleton.2 value⟩
  · rw [List.map_append, List.map_singleton, joined_append some_part]

theorem ListsItems.concat (listed : ListsItems ts items) (e : Item)
    (value : Derives .value e.tokens (.value e.value)) :
    ListsItems (ts ++ .comma :: e.tokens) (items ++ [e.value]) := by
  rcases listed with ⟨entries, some_entry, values, rfl, rfl⟩
  have some_part : entries.map Item.tokens ≠ [] := by simpa using some_entry
  refine ⟨entries ++ [e], by simp, ?_, ?_, by rw [List.map_append, List.map_singleton]⟩
  · exact List.forall_mem_append.2 ⟨values, List.forall_mem_singleton.2 value⟩
  · rw [List.map_append, List.map_singleton, joined_append some_part]

def Unfolds (ts : List Token) : Meaning → Prop
  | .token t => ts = [t]
  | .value v => Derives .value ts (.value v) ∧ Spells ts v
  | .object v => Spells ts v
  | .members fields => ListsFields ts fields
  | .pair name v => ∃ e : Entry, Derives .value e.tokens (.value e.value) ∧ ts = e.written ∧ (name, v) = e.field
  | .array items => SpellsArray ts items
  | .elements items => ListsItems ts items

theorem Rule.unfolds {s : Symbol} {body : List Symbol} {meanings : List Meaning} {m : Meaning}
    (rule : Rule s body meanings m) {texts : List (List Token)} (whole : Derives s texts.flatten m)
    (parts : List.Forall₂ Unfolds texts meanings) : Unfolds texts.flatten m := by
  cases rule with
  | literal text =>
    rcases parts with _ | ⟨rfl, _ | _⟩
    exact ⟨whole, rfl⟩
  | number x =>
    rcases parts with _ | ⟨rfl, _ | _⟩
    exact ⟨whole, rfl⟩
  | object v =>
    rcases parts with _ | ⟨object, _ | _⟩
    rw [List.flatten_singleton] at whole ⊢
    exact ⟨whole, object⟩
  | array items =>
    rcases parts with _ | ⟨array, _ | _⟩
    rw [List.flatten_singleton] at whole ⊢
    exact ⟨whole, array⟩
  | boolean flag =>
    rcases parts with _ | ⟨rfl, _ | _⟩
    exact ⟨whole, rfl⟩
  | bare name =>
    rcases parts with _ | ⟨rfl, _ | _⟩
    exact .inl ⟨rfl, .inl rfl⟩
  | noMembers name =>
    rcases parts with _ | ⟨rfl, _ | ⟨rfl, _ | ⟨rfl, _ | _⟩⟩⟩
    exact .inl ⟨rfl, .inr rfl⟩
  | braces name fields =>
    rcases parts with _ | ⟨rfl, _ | ⟨rfl, _ | @⟨ts, _, _, _, members, _ | ⟨rfl, _ | _⟩⟩⟩⟩
    exact .inr ⟨ts, members, .inl (by simp)⟩
  | bracesComma name fields =>
    rcases parts with _ | ⟨rfl, _ | ⟨rfl, _ | @⟨ts, _, _, _, members, _ | ⟨rfl, _ | ⟨rfl, _ | _⟩⟩⟩⟩⟩
    exact .inr ⟨ts, members, .inr (by simp)⟩
  | firstMember name v =>
    rcases parts with _ | ⟨⟨e, value, rfl, field⟩, _ | _⟩
    rw [List.flatten_singleton, field]
    exact ⟨[e], nofun, by simpa using value, (joined_singleton _).symm, rfl⟩
  | nextMember fields name v =>
    rcases parts with _ | @⟨ts, _, _, _, members, _ | ⟨rfl, _ | ⟨⟨e, value, rfl, field⟩, _ | _⟩⟩⟩
    have listed := ListsFields.concat members e value
    rw [← field] at listed
    show ListsFields _ _
    simpa using listed
  | pair name v =>
    rcases parts with _ | ⟨rfl, _ | ⟨rfl, _ | @⟨ts, _, _, _, ⟨value, -⟩, _ | _⟩⟩⟩
    exact ⟨⟨name, ts, v⟩, value, by simp [Entry.written], rfl⟩
  | noElements =>
    rcases parts with _ | ⟨rfl, _ | ⟨rfl, _ | _⟩⟩
    exact .inl ⟨rfl, rfl⟩
  | brackets items =>
    rcases parts with _ | ⟨rfl, _ | @⟨ts, _, _, _, elements, _ | ⟨rfl, _ | _⟩⟩⟩
    exact .inr ⟨ts, elements, .inl (by simp)⟩
  | bracketsComma items =>
    rcases parts with _ | ⟨rfl, _ | @⟨ts, _, _, _, elements, _ | ⟨rfl, _ | ⟨rfl, _ | _⟩⟩⟩⟩
    exact .inr ⟨ts, elements, .inr (by simp)⟩
  | firstElement v =>
    rcases parts with _ | @⟨ts, _, _, _, ⟨value, -⟩, _ | _⟩
    rw [List.flatten_singleton]
    exact ⟨[⟨ts, v⟩], nofun, by simpa using value, (joined_singleton _).symm, rfl⟩
  | nextElement items v =>
    rcases parts with _ | @⟨ts, _, _, _, elements, _ | ⟨rfl, _ | @⟨us, _, _, _, ⟨value, -⟩, _ | _⟩⟩⟩
    have listed := ListsItems.concat elements ⟨us, v⟩ value
    show ListsItems _ _
    simpa using listed

theorem Derives.unfolds {s : Symbol} {m : Meaning} (derives : Derives s ts m) : Unfolds ts m := by
  induction derives with
  | token t kind => rfl
  | rule parts derived rule ih =>
    have unfolded : List.Forall₂ Unfolds (parts.map Phrase.tokens) (parts.map Phrase.meaning) := by
      rw [List.forall₂_map_left_iff, List.forall₂_map_right_iff, List.forall₂_same]
      exact ih
    have whole := Derives.rule parts derived rule
    rw [List.flatMap_def] at whole ⊢
    exact rule.unfolds whole unfolded

theorem ListsFields.derives (listed : ListsFields ts fields) : Derives .members ts (.members fields) := by
  rcases listed with ⟨entries, some_entry, values, rfl, rfl⟩
  apply joined_induction (motive := fun ts entries => Derives .members ts (.members (entries.map Entry.field)))
    some_entry values
  · intro e value
    exact .firstMember e.name value
  · intro ts before e members value
    rw [List.map_append, List.map_singleton]
    exact members.nextMember e.name value

theorem ListsItems.derives (listed : ListsItems ts items) : Derives .elements ts (.elements items) := by
  rcases listed with ⟨entries, some_entry, values, rfl, rfl⟩
  apply joined_induction (motive := fun ts entries => Derives .elements ts (.elements (entries.map Item.value)))
    some_entry values
  · intro e value
    exact .firstElement value
  · intro ts before e elements value
    rw [List.map_append, List.map_singleton]
    exact elements.nextElement value

theorem derives_object_iff : Derives .value ts (.value (.object name fields)) ↔ SpellsObject ts name fields := by
  constructor
  · intro derives
    exact derives.unfolds.2
  · rintro (⟨rfl, rfl | rfl⟩ | ⟨listed, members, rfl | rfl⟩)
    · exact .bare name
    · exact .noMembers name
    · exact .braces name members.derives
    · exact .bracesComma name members.derives

theorem derives_array_iff : Derives .value ts (.value (.array items)) ↔ SpellsArray ts items := by
  constructor
  · intro derives
    exact derives.unfolds.2
  · rintro (⟨rfl, rfl⟩ | ⟨listed, elements, rfl | rfl⟩)
    · exact .noElements
    · exact .brackets elements.derives
    · exact .bracketsComma elements.derives

end Listing

section Parsing

variable {ts : List Token} {source : String}

theorem Derives.unique {v w : Value} (left : Derives .value ts (.value v)) (right : Derives .value ts (.value w)) :
    v = w :=
  Option.some.inj (left.ofTokens?_eq.symm.trans right.ofTokens?_eq)

theorem parse_eq_ok_iff {v : Value} (tokenized : Token.ofText? source = some ts) :
    Value.parse source = .ok v ↔ Derives .value ts (.value v) := by
  rw [← ofTokens?_eq_some_iff]
  simp only [Value.parse, tokenized]
  cases Value.ofTokens? ts with
  | none => exact ⟨nofun, nofun⟩
  | some w =>
    show Except.ok w = Except.ok v ↔ some w = some v
    rw [Except.ok.injEq, Option.some.injEq]

theorem parse_of_underived (tokenized : Token.ofText? source = some ts)
    (underived : ∀ v, ¬ Derives .value ts (.value v)) : Value.parse source = .error (.error .notInGrammar) := by
  have unread : Value.ofTokens? ts = none := by
    rw [Option.eq_none_iff_forall_ne_some]
    intro v read
    exact underived v (derives_of_ofTokens? read)
  simp only [Value.parse, tokenized, unread]
  rfl

/-- A text that comes apart into tokens is read exactly as the grammar derives them, and refused if it does not.
A list of tokens means one value at most, whose fields and items are those written, in their order. -/
theorem parse_eq_ok_iff_derives (source : String) (ts : List Token) (tokenized : Token.ofText? source = some ts) :
    (∀ v, Value.parse source = .ok v ↔ Derives .value ts (.value v)) ∧
      ((∀ v, ¬ Derives .value ts (.value v)) →
        ∃ e : Error, Value.parse source = .error (.error e) ∧ e.kind = .couldNotParseConfiguration) ∧
      (∀ us v w, Derives .value us (.value v) → Derives .value us (.value w) → v = w) ∧
      (∀ us name fields, Derives .value us (.value (.object name fields)) ↔ SpellsObject us name fields) ∧
      ∀ us items, Derives .value us (.value (.array items)) ↔ SpellsArray us items := by
  refine ⟨fun v => parse_eq_ok_iff tokenized, fun underived => ?_, fun _ _ _ => Derives.unique,
    fun _ _ _ => derives_object_iff, fun _ _ => derives_array_iff⟩
  exact ⟨.notInGrammar, parse_of_underived tokenized underived, rfl⟩

theorem parse_eq_ok_iff_derives_repeated :
    let ts : List Token := [.name "R", .openBrace, .name "a", .colon, .boolean true, .comma, .name "a", .colon,
      .openBracket, .name "b", .closeBracket, .comma, .closeBrace]
    Token.ofText? "R\x7ba:true, a:[b],\x7d" = some ts ∧
      Value.parse "R\x7ba:true, a:[b],\x7d" =
        .ok (.object "R" [("a", .boolean true), ("a", .array [.object "b" []])]) := by
  intro ts
  have nothing : Token.ofChars? [] = some [] := by rw [Token.ofChars?]
  have tokenized : Token.ofText? "R\x7ba:true, a:[b],\x7d" = some ts := by
    unfold Token.ofText?
    rw [show "R\x7ba:true, a:[b],\x7d".toList = ['R', '\x7b', 'a', ':', 't', 'r', 'u', 'e', ',', ' ', 'a', ':', '[',
        'b', ']', ',', '\x7d'] from rfl,
      Token.ofChars?_of_next (t := .name "R") rfl, Token.ofChars?_of_next (t := .openBrace) rfl,
      Token.ofChars?_of_next (t := .name "a") rfl, Token.ofChars?_of_next (t := .colon) rfl,
      Token.ofChars?_of_next (t := .boolean true) rfl, Token.ofChars?_of_next (t := .comma) rfl,
      Token.ofChars?_of_space rfl rfl, Token.ofChars?_of_next (t := .name "a") rfl,
      Token.ofChars?_of_next (t := .colon) rfl, Token.ofChars?_of_next (t := .openBracket) rfl,
      Token.ofChars?_of_next (t := .name "b") rfl, Token.ofChars?_of_next (t := .closeBracket) rfl,
      Token.ofChars?_of_next (t := .comma) rfl, Token.ofChars?_of_next (t := .closeBrace) rfl, nothing]
    rfl
  have flag : Derives .value [.boolean true] (.value (.boolean true)) :=
    .rule [.ofToken (.boolean true)] (by simpa using Derives.ofToken _) (.boolean true)
  have array := Derives.brackets (.firstElement (.bare "b"))
  have members := (Derives.firstMember "a" flag).nextMember "a" array
  exact ⟨tokenized, ((parse_eq_ok_iff_derives _ ts tokenized).1 _).2 (.bracesComma "R" members)⟩

end Parsing

end Interconnect.Config
