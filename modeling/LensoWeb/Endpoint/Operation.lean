import LensoWeb.Foundation.ObjectMap
import LensoWeb.Foundation.Terminated

/-!
# Operation Objects in attributes

`#[openapi({ .. })]` takes an OpenAPI Operation Object in a JSON-like notation. The macro
reads it from Rust tokens: keys may be identifiers, a comma may close an object or an array,
and a key may stand in an object only once.

Token trees are those of the compiler, without invisible groups. What `serde_json` makes of
the text of a number is a parameter. The messages are the macro's own; an error that the
token library words is `syn`.
-/

namespace Endpoint

open Foundation

/-- `proc_macro2::Delimiter`. -/
inductive Delimiter where
  | parenthesis
  | brace
  | bracket
deriving DecidableEq

/-- A literal token. Numbers are kept as they are written. -/
inductive Literal where
  | str (value : Str)
  | int (source : Str)
  | float (source : Str)
  | other (source : Str)
deriving DecidableEq

/-- `proc_macro2::TokenTree`. A raw identifier has its mark in its text. -/
inductive Token where
  | ident (text : Str)
  | punct (mark : Char)
  | literal (literal : Literal)
  | group (delimiter : Delimiter) (content : List Token)

/-- `syn::Error`, with the message where the macro words it. -/
inductive ParseError where
  | syn
  | message (text : Str)
deriving DecidableEq

/-- `syn::Lit`. -/
inductive Lit where
  | str (value : Str)
  | bool (value : Bool)
  | int (source : Str)
  | float (source : Str)
  | other (source : Str)
deriving DecidableEq

/-- The literal of one token. -/
def Literal.toLit : Literal → Lit
  | str value => .str value
  | int source => .int source
  | float source => .float source
  | other source => .other source

/-- `Lit::parse`: a literal, a truth value, or a number behind a minus sign. -/
def parseLit : List Token → Except ParseError (Lit × List Token)
  | .literal literal :: rest => .ok (literal.toLit, rest)
  | .punct mark :: .literal (.int source) :: rest =>
      if mark = '-' then .ok (.int ('-' :: source), rest) else .error .syn
  | .punct mark :: .literal (.float source) :: rest =>
      if mark = '-' then .ok (.float ('-' :: source), rest) else .error .syn
  | .ident text :: rest =>
      if text = lit "true" then .ok (.bool true, rest)
      else if text = lit "false" then .ok (.bool false, rest)
      else .error .syn
  | _ => .error .syn

/-- `Ident::unraw`. -/
def unraw (text : Str) : Str := (Str.strip (lit "r#") text).getD text

/-- `parse_object_key`. -/
def parseObjectKey : List Token → Except ParseError (Str × List Token)
  | .literal (.str value) :: rest => .ok (value, rest)
  | .ident text :: rest => .ok (unraw text, rest)
  | _ => .error .syn

/-- Whether a token is the mark. -/
def Token.isPunct (mark : Char) : Token → Bool
  | punct other => other == mark
  | _ => false

/-- The text of a number; no other literal is written like one. -/
def Lit.number? : Lit → Option Str
  | int source => some source
  | float source => some source
  | _ => none

/-- `serde_json::Number::from_str`: no number has two signs. A float may be read from other
texts than the one that it is printed as. -/
structure NumberReader where
  read : Str → Option Number
  unsigned : ∀ source, read ('-' :: '-' :: source) = none

section Values

variable [FieldOrder] (number : NumberReader)

/-- `parse_number_literal`. -/
def parseNumberLiteral (literal : Lit) (negative : Bool) : Except ParseError Json :=
  match literal.number?.bind fun source => number.read (if negative then '-' :: source else source) with
  | some value => .ok (.number value)
  | none => .error (.message (lit "OpenAPI numeric values must be unsuffixed JSON numbers"))

/-- `parse_literal`. -/
def parseLiteral (literal : Lit) : Except ParseError Json :=
  match literal with
  | .str value => .ok (.string value)
  | .bool value => .ok (.bool value)
  | .int _ => parseNumberLiteral number literal false
  | .float _ => parseNumberLiteral number literal false
  | .other _ => .error (.message (Foundation.lit
      "OpenAPI metadata supports JSON string, number, boolean, null, array, and object values"))

/-- One round of `parse_object_entries`, with the reader of values. -/
def parseObjectEntry (value : List Token → Except ParseError (Json × List Token))
    (object : List (Str × Json)) (tokens : List Token) :
    Except ParseError (List (Str × Json) × List Token) := do
  let (key, rest) ← parseObjectKey tokens
  match rest with
  | colon :: rest =>
      if colon.isPunct ':' then do
        let (value, rest) ← value rest
        if (Assoc.find key object).isSome then
          .error (.message (lit "duplicate OpenAPI object key " ++ ['\x60'] ++ key ++ ['\x60']))
        else .ok (ObjectMap.insert key value object, rest)
      else .error .syn
  | [] => .error .syn

/-- One round of the list in `parse_json_value`, with the reader of values. -/
def parseItem (value : List Token → Except ParseError (Json × List Token)) (items : List Json)
    (tokens : List Token) : Except ParseError (List Json × List Token) := do
  let (value, rest) ← value tokens
  return (items ++ [value], rest)

/-- `parse_json_value`, with the reader of the values inside. -/
def parseValueWith (value : List Token → Except ParseError (Json × List Token)) :
    List Token → Except ParseError (Json × List Token)
  | .group .brace content :: rest => do
      let fields ← readTerminated (parseObjectEntry value) (Token.isPunct ',') .syn content.length []
        content
      return (.object fields, rest)
  | .group .bracket content :: rest => do
      let items ← readTerminated (parseItem value) (Token.isPunct ',') .syn content.length [] content
      return (.array items, rest)
  | .group .parenthesis _ :: _ => .error .syn
  | .punct mark :: rest =>
      if mark = '-' then do
        let (literal, rest) ← parseLit rest
        return (← parseNumberLiteral number literal true, rest)
      else .error .syn
  | .ident text :: rest =>
      if text = lit "true" then .ok (.bool true, rest)
      else if text = lit "false" then .ok (.bool false, rest)
      else if text = lit "null" then .ok (.null, rest)
      else .error (.message (lit "expected a JSON value"))
  | .literal literal :: rest => do
      return (← parseLiteral number literal.toLit, rest)
  | [] => .error .syn

/-- `parse_json_value`. The fuel is used up by nesting. -/
def parseJsonValue : Nat → List Token → Except ParseError (Json × List Token)
  | 0 => fun _ => .error .syn
  | fuel + 1 => parseValueWith number (parseJsonValue fuel)

mutual

/-- How deeply groups are nested. -/
def Token.depth : Token → Nat
  | .group _ content => tokensDepth content + 1
  | _ => 0

def tokensDepth : List Token → Nat
  | [] => 0
  | token :: rest => max token.depth (tokensDepth rest)

end

/-- `parse_object_entries`, between the braces of an object. -/
def parseObjectEntries (content : List Token) : Except ParseError (List (Str × Json)) :=
  readTerminated (parseObjectEntry (parseJsonValue number (tokensDepth content + 1)))
    (Token.isPunct ',') .syn content.length [] content

/-! ### The notation -/

/-- A key is a text or an identifier. -/
inductive NamesKey : Token → Str → Prop where
  | text (value : Str) : NamesKey (.literal (.str value)) value
  | ident (text : Str) : NamesKey (.ident text) (unraw text)

/-- An entry adds a key that the object does not have. -/
def EntryRound (Value : Json → List Token → Prop) (object : List (Str × Json))
    (word : List Token) (extended : List (Str × Json)) : Prop :=
  ∃ token key value written, word = token :: .punct ':' :: written ∧ NamesKey token key ∧
    Value value written ∧ Assoc.find key object = none ∧
    extended = ObjectMap.insert key value object

/-- An item is added at the end. -/
def ItemRound (Value : Json → List Token → Prop) (items : List Json) (word : List Token)
    (extended : List Json) : Prop :=
  ∃ value, Value value word ∧ extended = items ++ [value]

/-- The values that hold no others, and their tokens. -/
inductive WritesScalar : Json → List Token → Prop where
  | null : WritesScalar .null [.ident (lit "null")]
  | true : WritesScalar (.bool true) [.ident (lit "true")]
  | false : WritesScalar (.bool false) [.ident (lit "false")]
  | string (text : Str) : WritesScalar (.string text) [.literal (.str text)]
  | number (literal : Literal) (source : Str) (value : Number)
      (written : literal.toLit.number? = some source) (read : number.read source = some value) :
      WritesScalar (.number value) [.literal literal]
  | negative (literal : Literal) (source : Str) (value : Number)
      (written : literal.toLit.number? = some source) (read : number.read ('-' :: source) = some value) :
      WritesScalar (.number value) [.punct '-', .literal literal]

/-- The tokens of a value whose containers are nested less deeply than the bound. -/
def WritesWithin : Nat → Json → List Token → Prop
  | 0, _, _ => False
  | depth + 1, value, tokens =>
      WritesScalar number value tokens ∨
      (∃ content items, tokens = [.group .bracket content] ∧ value = .array items ∧
        Terminated (ItemRound (WritesWithin depth)) (Token.isPunct ',') [] content items) ∨
      (∃ content fields, tokens = [.group .brace content] ∧ value = .object fields ∧
        Terminated (EntryRound (WritesWithin depth)) (Token.isPunct ',') [] content fields)

/-- The tokens that stand for a value. -/
def Writes (value : Json) (tokens : List Token) : Prop :=
  ∃ depth, WritesWithin number depth value tokens

/-- A reader of values takes the tokens of one value off the input. -/
structure ReadsValues (read : List Token → Except ParseError (Json × List Token))
    (Value : Json → List Token → Prop) : Prop where
  reads : ∀ {input value rest}, read input = .ok (value, rest) →
    ∃ word, input = word ++ rest ∧ Value value word
  read : ∀ {value word}, Value value word → ∀ rest, read (word ++ rest) = .ok (value, rest)
  nonempty : ∀ {value word}, Value value word → word ≠ []

end Values

/-! ### Keys and scalars -/

section Scalars

variable (number : NumberReader)

theorem isPunct_iff {mark : Char} {token : Token} :
    token.isPunct mark = true ↔ token = .punct mark := by
  cases token <;> simp [Token.isPunct]

theorem parseObjectKey_eq_ok {input rest : List Token} {key : Str} :
    parseObjectKey input = .ok (key, rest) ↔ ∃ token, input = token :: rest ∧ NamesKey token key := by
  constructor
  · intro parsed
    unfold parseObjectKey at parsed
    split at parsed
    · cases parsed
      exact ⟨_, rfl, .text _⟩
    · cases parsed
      exact ⟨_, rfl, .ident _⟩
    · cases parsed
  · rintro ⟨token, rfl, names⟩
    cases names <;> rfl

theorem WritesScalar.nonempty {value : Json} {word : List Token}
    (writes : WritesScalar number value word) : word ≠ [] := by
  cases writes <;> exact List.cons_ne_nil _ _

theorem parseNumberLiteral_eq_ok {literal : Lit} {negative : Bool} {value : Json} :
    parseNumberLiteral number literal negative = .ok value ↔
      ∃ source read, literal.number? = some source ∧
        number.read (if negative then '-' :: source else source) = some read ∧ value = .number read := by
  unfold parseNumberLiteral
  constructor
  · intro parsed
    split at parsed
    · next read found =>
      cases parsed
      obtain ⟨source, written, numbered⟩ := Option.bind_eq_some_iff.mp found
      exact ⟨source, read, written, numbered, rfl⟩
    · cases parsed
  · rintro ⟨source, read, written, numbered, rfl⟩
    rw [written, Option.bind_some, numbered]

/-- A number behind a minus sign is one literal. -/
theorem negative_of_parseLit {input rest : List Token} {literal : Lit} {value : Json}
    (parsed : parseLit input = .ok (literal, rest))
    (negated : parseNumberLiteral number literal true = .ok value) :
    ∃ token, input = .literal token :: rest ∧
      WritesScalar number value [.punct '-', .literal token] := by
  obtain ⟨source, read, written, numbered, rfl⟩ := (parseNumberLiteral_eq_ok number).mp negated
  unfold parseLit at parsed
  split at parsed
  · next token behind =>
    cases parsed
    exact ⟨token, rfl, .negative token source read written numbered⟩
  · split at parsed
    · cases parsed
      cases written
      rw [if_pos rfl, number.unsigned] at numbered
      cases numbered
    · cases parsed
  · split at parsed
    · cases parsed
      cases written
      rw [if_pos rfl, number.unsigned] at numbered
      cases numbered
    · cases parsed
  · split at parsed
    · cases parsed
      cases written
    · split at parsed
      · cases parsed
        cases written
      · cases parsed
  · cases parsed

/-- A literal that is read is a scalar. -/
theorem scalar_of_parseLiteral {literal : Literal} {value : Json}
    (parsed : parseLiteral number literal.toLit = .ok value) :
    WritesScalar number value [.literal literal] := by
  cases literal with
  | str text =>
      cases parsed
      exact .string text
  | other source => cases parsed
  | int source =>
      obtain ⟨source, read, written, numbered, rfl⟩ := (parseNumberLiteral_eq_ok number).mp parsed
      exact .number _ source read written numbered
  | float source =>
      obtain ⟨source, read, written, numbered, rfl⟩ := (parseNumberLiteral_eq_ok number).mp parsed
      exact .number _ source read written numbered

theorem reads_parseItem {value : List Token → Except ParseError (Json × List Token)}
    {Value : Json → List Token → Prop} (reads : ReadsValues value Value) :
    Reads (parseItem value) (ItemRound Value) where
  reads := by
    intro items input extended rest parsed
    obtain ⟨⟨json, behind⟩, valued, parsed⟩ := Result.bind_eq_ok.mp parsed
    cases parsed
    obtain ⟨word, rfl, writes⟩ := reads.reads valued
    exact ⟨word, rfl, json, writes, rfl⟩
  read := by
    rintro items word _ ⟨json, writes, rfl⟩ rest
    rw [parseItem, reads.read writes]
    rfl
  nonempty := by
    rintro items word extended ⟨json, writes, -⟩
    exact reads.nonempty writes

theorem tokensDepth_le_of_subset {tokens others : List Token} (inside : tokens ⊆ others) :
    tokensDepth tokens ≤ tokensDepth others := by
  have member : ∀ {others : List Token} {token : Token}, token ∈ others →
      token.depth ≤ tokensDepth others := by
    intro others token found
    induction others with
    | nil => cases found
    | cons first rest ih =>
        rw [tokensDepth]
        obtain rfl | later := List.mem_cons.mp found
        · exact Nat.le_max_left _ _
        · exact (ih later).trans (Nat.le_max_right _ _)
  induction tokens with
  | nil => exact Nat.zero_le _
  | cons token rest ih =>
      rw [tokensDepth]
      exact Nat.max_le.mpr ⟨member (inside List.mem_cons_self),
        ih fun _ found => inside (List.mem_cons_of_mem _ found)⟩

/-- The numbers that some text denotes. -/
def NumberReader.denoted : Set Number := {value | ∃ source, number.read source = some value}

/-- The numbers that can be read from their spelling. -/
def NumberReader.spelled (spell : Number → Str) : Set Number :=
  {value | number.read (spell value) = some value}

/-- There is a spelling for all numbers that some text denotes. -/
theorem NumberReader.exists_spelling : ∃ spell, number.denoted ⊆ number.spelled spell := by
  have spells : ∀ value, ∃ text, value ∈ number.denoted → number.read text = some value := by
    intro value
    by_cases denoted : value ∈ number.denoted
    · obtain ⟨source, read⟩ := denoted
      exact ⟨source, fun _ => read⟩
    · exact ⟨[], fun read => absurd read denoted⟩
  choose spell reads using spells
  exact ⟨spell, fun value => reads value⟩

end Scalars

/-! ### What is read -/

section Reading

variable [FieldOrder] (number : NumberReader)

theorem reads_parseObjectEntry {value : List Token → Except ParseError (Json × List Token)}
    {Value : Json → List Token → Prop} (reads : ReadsValues value Value) :
    Reads (parseObjectEntry value) (EntryRound Value) where
  reads := by
    intro object input extended rest parsed
    obtain ⟨⟨key, behind⟩, named, keyed⟩ := Result.bind_eq_ok.mp parsed
    obtain ⟨token, rfl, names⟩ := parseObjectKey_eq_ok.mp named
    dsimp only at keyed
    split at keyed
    · next colon behind =>
      split at keyed
      · next isColon =>
        obtain ⟨⟨json, after⟩, valued, inserted⟩ := Result.bind_eq_ok.mp keyed
        obtain ⟨word, rfl, writes⟩ := reads.reads valued
        dsimp only at inserted
        split at inserted
        · cases inserted
        · next fresh =>
          cases inserted
          rw [isPunct_iff.mp isColon]
          exact ⟨token :: .punct ':' :: word, rfl, token, key, json, word, rfl, names, writes,
            Option.not_isSome_iff_eq_none.mp fresh, rfl⟩
      · cases keyed
    · cases keyed
  read := by
    rintro object _ _ ⟨token, key, json, written, rfl, names, writes, fresh, rfl⟩ rest
    have named : parseObjectKey (token :: .punct ':' :: written ++ rest) =
        .ok (key, .punct ':' :: (written ++ rest)) := parseObjectKey_eq_ok.mpr ⟨token, rfl, names⟩
    rw [parseObjectEntry, named]
    show (value (written ++ rest) >>= _) = _
    rw [reads.read writes]
    show (if (Assoc.find key object).isSome then _ else _) = _
    rw [fresh]
    rfl
  nonempty := by
    rintro object word extended ⟨token, key, json, written, rfl, -⟩
    exact List.cons_ne_nil _ _

/-- A value that the reader takes off the input is written there. -/
theorem writes_of_parseJsonValue {fuel : Nat}
    (reads : ReadsValues (parseJsonValue number fuel) (WritesWithin number fuel))
    {input rest : List Token} {value : Json}
    (parsed : parseJsonValue number (fuel + 1) input = .ok (value, rest)) :
    ∃ word, input = word ++ rest ∧ WritesWithin number (fuel + 1) value word := by
  rw [parseJsonValue] at parsed
  cases input with
  | nil => cases parsed
  | cons token behind =>
      cases token with
      | ident text =>
          simp only [parseValueWith] at parsed
          split at parsed
          · next same =>
            cases parsed
            exact ⟨[_], rfl, .inl (same ▸ .true)⟩
          split at parsed
          · next same =>
            cases parsed
            exact ⟨[_], rfl, .inl (same ▸ .false)⟩
          split at parsed
          · next same =>
            cases parsed
            exact ⟨[_], rfl, .inl (same ▸ .null)⟩
          · cases parsed
      | punct mark =>
          simp only [parseValueWith] at parsed
          split at parsed
          · next minus =>
            obtain ⟨⟨literal, after⟩, read, parsed⟩ := Result.bind_eq_ok.mp parsed
            obtain ⟨json, negated, parsed⟩ := Result.bind_eq_ok.mp parsed
            cases parsed
            obtain ⟨token, rfl, writes⟩ := negative_of_parseLit number read negated
            exact ⟨[.punct mark, .literal token], rfl, .inl (minus ▸ writes)⟩
          · cases parsed
      | literal literal =>
          obtain ⟨json, read, parsed⟩ := Result.bind_eq_ok.mp parsed
          cases parsed
          exact ⟨[_], rfl, .inl (scalar_of_parseLiteral number read)⟩
      | group delimiter content =>
          cases delimiter with
          | parenthesis => cases parsed
          | brace =>
              obtain ⟨fields, entries, parsed⟩ := Result.bind_eq_ok.mp parsed
              cases parsed
              exact ⟨[_], rfl, .inr (.inr ⟨content, fields, rfl, rfl,
                (reads_parseObjectEntry reads).terminated_of_read entries⟩)⟩
          | bracket =>
              obtain ⟨items, listed, parsed⟩ := Result.bind_eq_ok.mp parsed
              cases parsed
              exact ⟨[_], rfl, .inr (.inl ⟨content, items, rfl, rfl,
                (reads_parseItem reads).terminated_of_read listed⟩)⟩

/-- A scalar is read whatever follows it. -/
theorem parseValueWith_of_scalar (inner : List Token → Except ParseError (Json × List Token))
    {value : Json} {word : List Token} (writes : WritesScalar number value word)
    (rest : List Token) : parseValueWith number inner (word ++ rest) = .ok (value, rest) := by
  cases writes with
  | null => rfl
  | true => rfl
  | false => rfl
  | string text => rfl
  | number literal source value written read =>
      have literalRead : parseLiteral number literal.toLit = .ok (.number value) := by
        cases literal with
        | str _ => cases written
        | other _ => cases written
        | int _ => exact (parseNumberLiteral_eq_ok number).mpr ⟨source, value, written, read, rfl⟩
        | float _ => exact (parseNumberLiteral_eq_ok number).mpr ⟨source, value, written, read, rfl⟩
      show (parseLiteral number literal.toLit >>= fun json => pure (json, rest)) = _
      rw [literalRead]
      rfl
  | negative literal source value written read =>
      have negated : parseNumberLiteral number literal.toLit true = .ok (.number value) :=
        (parseNumberLiteral_eq_ok number).mpr ⟨source, value, written, read, rfl⟩
      show (parseNumberLiteral number literal.toLit true >>= fun json => pure (json, rest)) = _
      rw [negated]
      rfl

/-- The reader of values agrees with the notation, up to the same depth. -/
theorem readsValues_parseJsonValue (fuel : Nat) :
    ReadsValues (parseJsonValue number fuel) (WritesWithin number fuel) := by
  induction fuel with
  | zero => exact ⟨nofun, nofun, nofun⟩
  | succ fuel ih =>
      refine ⟨writes_of_parseJsonValue number ih, ?_, ?_⟩
      · rintro value word (scalar | ⟨content, items, rfl, rfl, listed⟩ |
          ⟨content, fields, rfl, rfl, entries⟩) rest
        · exact parseValueWith_of_scalar number _ scalar rest
        · show (readTerminated _ _ _ _ _ _ >>= fun items => pure (Json.array items, rest)) = _
          rw [(reads_parseItem ih).read_of_terminated (Nat.le_refl _) listed]
          rfl
        · show (readTerminated _ _ _ _ _ _ >>= fun fields => pure (Json.object fields, rest)) = _
          rw [(reads_parseObjectEntry ih).read_of_terminated (Nat.le_refl _) entries]
          rfl
      · rintro value word (scalar | ⟨content, items, rfl, -⟩ | ⟨content, fields, rfl, -⟩)
        · exact scalar.nonempty number
        · exact List.cons_ne_nil _ _
        · exact List.cons_ne_nil _ _

/-- The nesting of the tokens bounds the nesting of the value. -/
theorem WritesWithin.deepen {depth : Nat} {value : Json} {tokens : List Token}
    (writes : WritesWithin number depth value tokens) {bound : Nat}
    (deep : tokensDepth tokens < bound) : WritesWithin number bound value tokens := by
  induction depth generalizing value tokens bound with
  | zero => exact writes.elim
  | succ depth ih =>
      obtain ⟨bound, rfl⟩ := Nat.exists_eq_add_one_of_ne_zero (Nat.ne_zero_of_lt deep)
      have deeper : ∀ {delimiter content} {word : List Token} {inner : Json},
          tokensDepth [.group delimiter content] < bound + 1 → word ⊆ content →
          WritesWithin number depth inner word → WritesWithin number bound inner word := by
        intro delimiter content word inner nested inside writes
        simp only [tokensDepth, Token.depth, Nat.max_zero] at nested
        have shallow := tokensDepth_le_of_subset inside
        exact ih writes (by omega)
      obtain scalar | ⟨content, items, rfl, rfl, listed⟩ | ⟨content, fields, rfl, rfl, entries⟩ :=
        writes
      · exact .inl scalar
      · refine .inr (.inl ⟨content, items, rfl, rfl, listed.imp ?_⟩)
        rintro before word after inside ⟨inner, writes, rfl⟩
        exact ⟨inner, deeper deep inside.subset writes, rfl⟩
      · refine .inr (.inr ⟨content, fields, rfl, rfl, entries.imp ?_⟩)
        rintro before word after inside ⟨token, key, inner, written, rfl, names, writes, fresh, rfl⟩
        refine ⟨token, key, inner, written, rfl, names, deeper deep ?_ writes, fresh, rfl⟩
        exact fun _ found => inside.subset (List.mem_cons_of_mem _ (List.mem_cons_of_mem _ found))

/-- The entries of an object, as they may be written. -/
def WritesEntries (fields : List (Str × Json)) (content : List Token) : Prop :=
  Terminated (EntryRound (Writes number)) (Token.isPunct ',') [] content fields

/-- The macro reads exactly the notation. -/
theorem parseObjectEntries_eq_ok_iff {content : List Token} {fields : List (Str × Json)} :
    parseObjectEntries number content = .ok fields ↔ WritesEntries number fields content := by
  rw [parseObjectEntries,
    (reads_parseObjectEntry (readsValues_parseJsonValue number _)).readTerminated_eq_ok_iff]
  constructor
  · intro entries
    refine entries.imp ?_
    rintro before word after inside ⟨token, key, value, written, rfl, names, writes, fresh, rfl⟩
    exact ⟨token, key, value, written, rfl, names, ⟨_, writes⟩, fresh, rfl⟩
  · intro entries
    refine entries.imp ?_
    rintro before word after inside
      ⟨token, key, value, written, rfl, names, ⟨depth, writes⟩, fresh, rfl⟩
    refine ⟨token, key, value, written, rfl, names, writes.deepen number ?_, fresh, rfl⟩
    refine Nat.lt_succ_of_le (tokensDepth_le_of_subset fun _ found => inside.subset ?_)
    exact List.mem_cons_of_mem _ (List.mem_cons_of_mem _ found)

/-! ### The values that can be written -/

/-- All objects are maps, and all numbers are in the set. -/
inductive Authorable (Numbers : Set Number) : Json → Prop where
  | null : Authorable Numbers .null
  | bool (value : Bool) : Authorable Numbers (.bool value)
  | string (text : Str) : Authorable Numbers (.string text)
  | number {value : Number} (read : value ∈ Numbers) : Authorable Numbers (.number value)
  | array {items : List Json} (each : ∀ item ∈ items, Authorable Numbers item) :
      Authorable Numbers (.array items)
  | object {fields : List (Str × Json)} (arranged : ObjectMap.Arranged fields)
      (each : ∀ field ∈ fields, Authorable Numbers field.2) : Authorable Numbers (.object fields)

theorem Authorable.mono {Numbers Others : Set Number} (subset : Numbers ⊆ Others) {value : Json}
    (authorable : Authorable Numbers value) : Authorable Others value := by
  induction authorable with
  | null => exact .null
  | bool value => exact .bool value
  | string text => exact .string text
  | number read => exact .number (subset read)
  | array _ ih => exact .array ih
  | object arranged _ ih => exact .object arranged ih

theorem arranged_of_entries {Value : Json → List Token → Prop} {content : List Token}
    {fields : List (Str × Json)}
    (entries : Terminated (EntryRound Value) (Token.isPunct ',') [] content fields) :
    ObjectMap.Arranged fields := by
  refine Terminated.preserves ObjectMap.Arranged entries ?_ ObjectMap.arranged_nil
  rintro before word after ⟨token, key, inner, written, rfl, names, writes, fresh, rfl⟩ arranged
  exact arranged.insert key inner

/-- Entries with authorable values make an authorable object. -/
theorem authorable_of_entries {Numbers : Set Number} {Value : Json → List Token → Prop}
    (each : ∀ value word, Value value word → Authorable Numbers value) {content : List Token}
    {fields : List (Str × Json)}
    (entries : Terminated (EntryRound Value) (Token.isPunct ',') [] content fields) :
    Authorable Numbers (.object fields) := by
  refine .object (arranged_of_entries entries) ?_
  refine Terminated.preserves (fun fields => ∀ field ∈ fields, Authorable Numbers field.2) entries
    ?_ (by simp)
  rintro before word after ⟨token, key, inner, written, rfl, names, writes, fresh, rfl⟩ stored
    field member
  obtain rfl | old := ObjectMap.mem_of_mem_insert member
  · exact each _ _ writes
  · exact stored field old

/-- Every value that is written is authorable. -/
theorem WritesWithin.authorable {depth : Nat} {value : Json} {tokens : List Token}
    (writes : WritesWithin number depth value tokens) : Authorable number.denoted value := by
  induction depth generalizing value tokens with
  | zero => exact writes.elim
  | succ depth ih =>
      obtain scalar | ⟨content, items, rfl, rfl, listed⟩ | ⟨content, fields, rfl, rfl, entries⟩ :=
        writes
      · cases scalar with
        | null => exact .null
        | true => exact .bool _
        | false => exact .bool _
        | string text => exact .string text
        | number literal source value written read => exact .number ⟨source, read⟩
        | negative literal source value written read => exact .number ⟨'-' :: source, read⟩
      · refine .array (Terminated.preserves
          (fun items => ∀ item ∈ items, Authorable number.denoted item) listed ?_ (by simp))
        rintro before word after ⟨inner, writes, rfl⟩ each item member
        obtain old | new := List.mem_append.mp member
        · exact each item old
        · rw [List.mem_singleton.mp new]
          exact ih writes
      · exact authorable_of_entries (fun _ _ => ih) entries

end Reading

/-! ### Spellings -/

section Spelled

variable (spell : Number → Str)

/-- The literal of a number without a sign. -/
def numberLiteral (source : Str) : Literal :=
  if source.all Char.isDigit then .int source else .float source

/-- The tokens of a number. -/
def numberTokens (value : Number) : List Token :=
  match spell value with
  | '-' :: source => [.punct '-', .literal (numberLiteral source)]
  | source => [.literal (numberLiteral source)]

mutual

/-- Tokens for a value, with a comma behind every member. -/
def jsonTokens : Json → List Token
  | .null => [.ident (lit "null")]
  | .bool true => [.ident (lit "true")]
  | .bool false => [.ident (lit "false")]
  | .number value => numberTokens spell value
  | .string text => [.literal (.str text)]
  | .array items => [.group .bracket (itemTokens items)]
  | .object fields => [.group .brace (fieldTokens fields)]

def itemTokens : List Json → List Token
  | [] => []
  | item :: rest => jsonTokens item ++ .punct ',' :: itemTokens rest

def fieldTokens : List (Str × Json) → List Token
  | [] => []
  | (key, value) :: rest =>
      .literal (.str key) :: .punct ':' :: jsonTokens value ++ .punct ',' :: fieldTokens rest

end

theorem number?_numberLiteral (source : Str) :
    (numberLiteral source).toLit.number? = some source := by
  unfold numberLiteral
  split <;> rfl

end Spelled

section Tokens

variable (number : NumberReader) {spell : Number → Str}

/-- The tokens of items add the items. -/
theorem terminated_itemTokens {Value : Json → List Token → Prop} (before items : List Json)
    (each : ∀ item ∈ items, Value item (jsonTokens spell item)) :
    Terminated (ItemRound Value) (Token.isPunct ',') before (itemTokens spell items)
      (before ++ items) := by
  induction items generalizing before with
  | nil =>
      rw [List.append_nil]
      exact .done before
  | cons item rest ih =>
      rw [itemTokens, List.append_cons before item rest]
      exact .more ⟨item, each item List.mem_cons_self, rfl⟩ rfl
        (ih (before ++ [item]) fun other member => each other (List.mem_cons_of_mem _ member))

theorem writes_numberTokens {value : Number} (read : value ∈ number.spelled spell) :
    WritesScalar number (.number value) (numberTokens spell value) := by
  have read : number.read (spell value) = some value := read
  unfold numberTokens
  split
  · next source text =>
    rw [text] at read
    exact .negative _ source value (number?_numberLiteral source) read
  · exact .number _ (spell value) value (number?_numberLiteral _) read

end Tokens

section Written

variable [FieldOrder] (number : NumberReader) {spell : Number → Str}

/-- The notation of a value that is nested no more deeply stays one. -/
theorem WritesWithin.mono {depth bound : Nat} {value : Json} {tokens : List Token}
    (writes : WritesWithin number depth value tokens) (le : depth ≤ bound) :
    WritesWithin number bound value tokens := by
  induction depth generalizing value tokens bound with
  | zero => exact writes.elim
  | succ depth ih =>
      obtain ⟨bound, rfl⟩ := Nat.exists_eq_add_one_of_ne_zero (show bound ≠ 0 by omega)
      have deeper : ∀ {word : List Token} {inner : Json}, WritesWithin number depth inner word →
          WritesWithin number bound inner word := fun writes => ih writes (by omega)
      obtain scalar | ⟨content, items, rfl, rfl, listed⟩ | ⟨content, fields, rfl, rfl, entries⟩ :=
        writes
      · exact .inl scalar
      · refine .inr (.inl ⟨content, items, rfl, rfl, listed.imp ?_⟩)
        rintro before word after - ⟨inner, writes, rfl⟩
        exact ⟨inner, deeper writes, rfl⟩
      · refine .inr (.inr ⟨content, fields, rfl, rfl, entries.imp ?_⟩)
        rintro before word after - ⟨token, key, inner, written, rfl, names, writes, fresh, rfl⟩
        exact ⟨token, key, inner, written, rfl, names, deeper writes, fresh, rfl⟩

/-- The tokens of fields set the fields. -/
theorem terminated_fieldTokens {Value : Json → List Token → Prop}
    (before fields : List (Str × Json)) (distinct : (fields.map Prod.fst).Nodup)
    (fresh : ∀ field ∈ fields, Assoc.find field.1 before = none)
    (each : ∀ field ∈ fields, Value field.2 (jsonTokens spell field.2)) :
    Terminated (EntryRound Value) (Token.isPunct ',') before (fieldTokens spell fields)
      (ObjectMap.insertAll before fields) := by
  induction fields generalizing before with
  | nil => exact .done before
  | cons field rest ih =>
      obtain ⟨key, value⟩ := field
      rw [List.map_cons, List.nodup_cons] at distinct
      rw [fieldTokens]
      refine .more ⟨_, key, value, _, rfl, .text key, each _ List.mem_cons_self,
        fresh _ List.mem_cons_self, rfl⟩ rfl (ih _ distinct.2 ?_ ?_)
      · intro other member
        rw [ObjectMap.find_insert, if_neg]
        · exact fresh other (List.mem_cons_of_mem _ member)
        · exact fun same => distinct.1 (List.mem_map.mpr ⟨other, member, same⟩)
      · exact fun other member => each other (List.mem_cons_of_mem _ member)

/-- One depth that is enough for all members. -/
theorem exists_depth {items : List Json}
    (each : ∀ item ∈ items, Writes number item (jsonTokens spell item)) :
    ∃ depth, ∀ item ∈ items, WritesWithin number depth item (jsonTokens spell item) := by
  induction items with
  | nil => exact ⟨0, by simp⟩
  | cons item rest ih =>
      obtain ⟨first, writes⟩ := each item List.mem_cons_self
      obtain ⟨later, others⟩ := ih fun other member => each other (List.mem_cons_of_mem _ member)
      refine ⟨max first later, fun other member => ?_⟩
      obtain rfl | inside := List.mem_cons.mp member
      · exact writes.mono number (Nat.le_max_left _ _)
      · exact (others other inside).mono number (Nat.le_max_right _ _)

/-- The tokens of a map set its fields. -/
theorem terminated_of_arranged {Value : Json → List Token → Prop} {fields : List (Str × Json)}
    (arranged : ObjectMap.Arranged fields)
    (each : ∀ field ∈ fields, Value field.2 (jsonTokens spell field.2)) :
    Terminated (EntryRound Value) (Token.isPunct ',') [] (fieldTokens spell fields) fields := by
  have entries := terminated_fieldTokens [] fields arranged.nodup (fun _ _ => rfl) each
  have filled : ObjectMap.insertAll [] fields = fields := arranged.ofList
  rwa [filled] at entries

/-- An authorable value is written by its tokens. -/
theorem writes_jsonTokens {value : Json} (authorable : Authorable (number.spelled spell) value) :
    Writes number value (jsonTokens spell value) := by
  induction authorable with
  | null => exact ⟨1, .inl .null⟩
  | bool value => cases value <;> exact ⟨1, .inl (by constructor)⟩
  | string text => exact ⟨1, .inl (.string text)⟩
  | number read => exact ⟨1, .inl (writes_numberTokens number read)⟩
  | @array items each ih =>
      obtain ⟨depth, writes⟩ := exists_depth number ih
      exact ⟨depth + 1, .inr (.inl ⟨itemTokens spell items, items, rfl, rfl,
        terminated_itemTokens [] items writes⟩)⟩
  | @object fields arranged each ih =>
      have each : ∀ item ∈ fields.map Prod.snd, Writes number item (jsonTokens spell item) := by
        intro item member
        obtain ⟨field, inside, rfl⟩ := List.mem_map.mp member
        exact ih field inside
      obtain ⟨depth, writes⟩ := exists_depth number each
      exact ⟨depth + 1, .inr (.inr ⟨fieldTokens spell fields, fields, rfl, rfl,
        terminated_of_arranged arranged fun field member => writes _ (List.mem_map_of_mem member)⟩)⟩

/-- The macro reads exactly the notation; what it reads are exactly the maps whose numbers some
text denotes; and each of these is read from its tokens, with any spelling of its numbers from
which they are read. -/
theorem objects_authored_exactly :
    (∀ content fields,
      parseObjectEntries number content = .ok fields ↔ WritesEntries number fields content) ∧
    (∀ fields, (∃ content, parseObjectEntries number content = .ok fields) ↔
      Authorable number.denoted (.object fields)) ∧
    ∀ spell fields, Authorable (number.spelled spell) (.object fields) →
      parseObjectEntries number (fieldTokens spell fields) = .ok fields := by
  have written : ∀ spell fields, Authorable (number.spelled spell) (.object fields) →
      parseObjectEntries number (fieldTokens spell fields) = .ok fields := by
    intro spell fields authorable
    rw [parseObjectEntries_eq_ok_iff]
    cases authorable with
    | object arranged each =>
        exact terminated_of_arranged arranged fun field member =>
          writes_jsonTokens number (each field member)
  refine ⟨fun content fields => parseObjectEntries_eq_ok_iff number, fun fields => ⟨?_, ?_⟩, written⟩
  · rintro ⟨content, parsed⟩
    exact authorable_of_entries (fun _ _ ⟨_, writes⟩ => writes.authorable number)
      ((parseObjectEntries_eq_ok_iff number).mp parsed)
  · intro authorable
    obtain ⟨spell, spells⟩ := number.exists_spelling
    exact ⟨_, written spell fields (authorable.mono spells)⟩

end Written

end Endpoint
