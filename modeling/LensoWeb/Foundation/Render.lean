import LensoWeb.Foundation.Json

/-!
# Renderings are unambiguous

Different values have different compact renderings. A rendering can be told from what
follows it: a number ends where a character follows that no number has, a text at its
closing quote, and the members of a container are read one after another.
-/

namespace Foundation.Json

/-! ### Texts -/

/-- The character that a backslash introduces, and what follows it. -/
def unescapeCode : Str → Option (Char × Str)
  | '"' :: rest => some ('"', rest)
  | '\\' :: rest => some ('\\', rest)
  | 'b' :: rest => some ('\x08', rest)
  | 't' :: rest => some ('\t', rest)
  | 'n' :: rest => some ('\n', rest)
  | 'f' :: rest => some ('\x0c', rest)
  | 'r' :: rest => some ('\r', rest)
  | 'u' :: '0' :: '0' :: high :: low :: rest =>
      (List.range 32).findSome? fun code =>
        if Nat.digitChar (code / 16) = high ∧ Nat.digitChar (code % 16) = low then
          some (Char.ofNat code, rest)
        else none
  | _ => none

/-- The first character of a quoted text, and what follows it. -/
def unescape : Str → Option (Char × Str)
  | [] => none
  | c :: rest =>
      if c = '\\' then unescapeCode rest else if c = '"' then none else some (c, rest)

theorem unescape_escape (c : Char) (rest : Str) : unescape (escape c ++ rest) = some (c, rest) := by
  by_cases small : c.toNat < 128
  · obtain ⟨code, isCode⟩ : ∃ code, c.toNat = code := ⟨_, rfl⟩
    have same : c = Char.ofNat code := by rw [← isCode, Char.ofNat_toNat]
    rw [isCode] at small
    subst same
    interval_cases code <;> rfl
  · have plain : escape c = [c] := by
      rw [escape]
      split <;> first | omega | exact if_neg (by omega)
    have noBackslash : c ≠ '\\' := by
      rintro rfl
      exact small (by decide)
    have noQuote : c ≠ '"' := by
      rintro rfl
      exact small (by decide)
    rw [plain, List.singleton_append, unescape, if_neg noBackslash, if_neg noQuote]

/-- A closing character ends a sequence of codes, if each code can be told from what follows
it and none starts with that character. -/
private theorem flatMap_separates {α : Type} {code : α → Str} {closing : Char} (Ends : Str → Prop)
    (closes : ∀ rest, Ends (closing :: rest)) (continues : ∀ item rest, Ends (code item ++ rest))
    (other : ∀ item rest rest', code item ++ rest ≠ closing :: rest') {items items' : List α}
    {rest rest' : Str}
    (each : ∀ item ∈ items, ∀ item' rest rest', Ends rest → Ends rest' →
      code item ++ rest = code item' ++ rest' → item = item' ∧ rest = rest')
    (same : items.flatMap code ++ closing :: rest = items'.flatMap code ++ closing :: rest') :
    items = items' ∧ rest = rest' := by
  have ends : ∀ (items : List α) (rest : Str), Ends (items.flatMap code ++ closing :: rest) := by
    intro items rest
    cases items with
    | nil => exact closes rest
    | cons item items =>
        rw [List.flatMap_cons, List.append_assoc]
        exact continues item _
  induction items generalizing items' with
  | nil =>
      cases items' with
      | nil => exact ⟨rfl, (List.cons.inj same).2⟩
      | cons item' items' =>
          rw [List.flatMap_cons, List.append_assoc] at same
          exact absurd same.symm (other item' _ _)
  | cons item items ih =>
      rw [List.flatMap_cons, List.append_assoc] at same
      cases items' with
      | nil => exact absurd same (other item _ _)
      | cons item' items' =>
          rw [List.flatMap_cons, List.append_assoc] at same
          obtain ⟨rfl, later⟩ := each item List.mem_cons_self item' _ _ (ends _ _) (ends _ _) same
          obtain ⟨rfl, rfl⟩ := ih (fun item member => each item (List.mem_cons_of_mem _ member)) later
          exact ⟨rfl, rfl⟩

theorem renderString_separates {text text' rest rest' : Str}
    (same : renderString text ++ rest = renderString text' ++ rest') :
    text = text' ∧ rest = rest' := by
  simp only [renderString, List.append_assoc] at same
  refine flatMap_separates (fun _ => True) (fun _ => trivial) (fun _ _ => trivial) ?_ ?_
    (List.append_cancel_left same)
  · intro c rest rest' equal
    have read := congrArg unescape equal
    rw [unescape_escape] at read
    cases read
  · intro c _ c' rest rest' _ _ equal
    have read := congrArg unescape equal
    rw [unescape_escape, unescape_escape] at read
    exact Prod.mk.inj (Option.some.inj read)

/-! ### Values -/

/-- What may follow a value: the end, a comma, or the end of a container. -/
def Ends (rest : Str) : Prop := ∀ c ∈ rest.head?, c ∈ lit ",]\x7d"

/-- The kinds of values, by the character that a rendering starts with. -/
def kind : Str → Nat
  | 'n' :: _ => 0
  | 't' :: _ => 1
  | 'f' :: _ => 2
  | '"' :: _ => 3
  | '[' :: _ => 4
  | '\x7b' :: _ => 5
  | ']' :: _ => 6
  | '\x7d' :: _ => 7
  | _ => 8

/-- The kind of the rendering of a value. -/
def rank : Json → Nat
  | .null => 0
  | .bool value => if value then 1 else 2
  | .string _ => 3
  | .array _ => 4
  | .object _ => 5
  | .number _ => 8

/-- Values of one rank are built alike. -/
theorem rank_eq_iff {json json' : Json} : json.rank = json'.rank ↔
    match json with
    | .null => json' = .null
    | .bool value => json' = .bool value
    | .number _ => ∃ value, json' = .number value
    | .string _ => ∃ text, json' = .string text
    | .array _ => ∃ items, json' = .array items
    | .object _ => ∃ fields, json' = .object fields := by
  cases json with
  | bool value =>
      cases value <;> cases json' with
      | bool value' => cases value' <;> simp [rank]
      | _ => simp [rank]
  | _ =>
      cases json' with
      | bool value' => cases value' <;> simp [rank]
      | _ => simp [rank]

/-- The characters of numbers. -/
def isNumeric (c : Char) : Bool := c.isDigit || (lit "+-.eE").contains c

theorem kind_render (json : Json) (rest : Str) : kind (json.render ++ rest) = json.rank := by
  cases json with
  | null => rfl
  | bool value => cases value <;> rfl
  | number value =>
      obtain ⟨text, nonempty, valid⟩ := value
      cases text with
      | nil => exact absurd rfl nonempty
      | cons c text =>
          have numeric : isNumeric c = true := List.all_eq_true.mp valid c List.mem_cons_self
          rw [render, rank, List.cons_append, kind]
          all_goals
            intro _ same
            rw [(List.cons.inj same).1] at numeric
            cases numeric
  | string text => rfl
  | array items => rfl
  | object fields => rfl

private theorem number_separates {value value' : Number} {rest rest' : Str} (ends : Ends rest)
    (ends' : Ends rest') (same : value.text ++ rest = value'.text ++ rest') :
    value = value' ∧ rest = rest' := by
  have stops : ∀ {rest : Str}, Ends rest → rest.takeWhile isNumeric = [] := by
    intro rest ends
    cases rest with
    | nil => rfl
    | cons c rest =>
        apply List.takeWhile_cons_of_neg
        have closing : c = ',' ∨ c = ']' ∨ c = '\x7d' := by simpa [lit] using ends c rfl
        obtain rfl | rfl | rfl := closing <;> decide
  have taken : ∀ (value : Number) {rest : Str}, Ends rest →
      (value.text ++ rest).takeWhile isNumeric = value.text := by
    intro value rest ends
    have valid : ∀ c ∈ value.text, isNumeric c = true := List.all_eq_true.mp value.valid
    rw [List.takeWhile_append_of_pos valid, stops ends, List.append_nil]
  have texts : value.text = value'.text := by
    rw [← taken value ends, same, taken value' ends']
  obtain rfl : value = value' := by
    cases value
    cases value'
    congr
  exact ⟨rfl, List.append_cancel_left same⟩

private theorem closing_ends {c : Char} (closes : c ∈ lit ",]\x7d") (rest : Str) :
    Ends (c :: rest) := by
  intro c' first
  cases first
  exact closes

private theorem render_ne_bracket (json : Json) (rest rest' : Str) :
    json.render ++ rest ≠ ']' :: rest' := by
  intro same
  have none : json.rank = 6 := by rw [← kind_render json rest, same, kind]
  cases json with
  | bool value => cases value <;> cases none
  | null => cases none
  | number value => cases none
  | string text => cases none
  | array items => cases none
  | object fields => cases none

/-- The rendering of a value can be told from what follows it. -/
def Separates (json : Json) : Prop :=
  ∀ json' rest rest', Ends rest → Ends rest' → json.render ++ rest = json'.render ++ rest' →
    json = json' ∧ rest = rest'

private theorem renderItems_eq (items : List Json) :
    renderItems items = items.flatMap fun item => ',' :: item.render := by
  induction items with
  | nil => rfl
  | cons item items ih => rw [renderItems, ih, List.flatMap_cons]; rfl

/-- A key and its value. -/
private def renderField (field : Str × Json) : Str := renderString field.1 ++ ':' :: field.2.render

private theorem renderFields_eq (fields : List (Str × Json)) :
    renderFields fields =
      fields.flatMap fun field => ',' :: renderField field := by
  induction fields with
  | nil => rfl
  | cons field fields ih =>
      rw [renderFields, ih, List.flatMap_cons]
      simp [lit, renderField]

/-- The members of a container, read one after another. -/
private theorem members_separate {α : Type} {code : α → Str} {closing : Char}
    (closes : ∀ rest, Ends (closing :: rest)) (noComma : ',' ≠ closing)
    (other : ∀ item rest rest', code item ++ rest ≠ closing :: rest') {items items' : List α}
    {rest rest' : Str}
    (each : ∀ item ∈ items, ∀ item' rest rest', Ends rest → Ends rest' →
      code item ++ rest = code item' ++ rest' → item = item' ∧ rest = rest')
    (same : (items.flatMap fun item => ',' :: code item).tail ++ closing :: rest =
      (items'.flatMap fun item => ',' :: code item).tail ++ closing :: rest') :
    items = items' ∧ rest = rest' := by
  have full : (items.flatMap fun item => ',' :: code item) ++ closing :: rest =
      (items'.flatMap fun item => ',' :: code item) ++ closing :: rest' := by
    cases items with
    | nil =>
        cases items' with
        | nil => exact same
        | cons item' items' =>
            rw [List.flatMap_cons, List.cons_append, List.tail_cons, List.append_assoc] at same
            exact absurd same.symm (other item' _ _)
    | cons item items =>
        cases items' with
        | nil =>
            rw [List.flatMap_cons, List.cons_append, List.tail_cons, List.append_assoc] at same
            exact absurd same (other item _ _)
        | cons item' items' => exact congrArg (List.cons ',') same
  refine flatMap_separates Ends closes ?_ ?_ ?_ full
  · intro item rest c first
    cases first
    decide
  · intro item rest rest' equal
    exact noComma (List.cons.inj equal).1
  · intro item member item' rest rest' ends ends' equal
    exact each item member item' rest rest' ends ends' (List.cons.inj equal).2

/-- Every rendering can be told from what follows it. -/
theorem separates (json : Json) : Separates json := by
  have alike : ∀ {json json' : Json} {rest rest' : Str},
      json.render ++ rest = json'.render ++ rest' → json.rank = json'.rank := by
    intro json json' rest rest' same
    rw [← kind_render json rest, same, kind_render]
  induction json using induction with
  | null =>
      intro json' rest rest' _ _ same
      obtain rfl := rank_eq_iff.mp (alike same)
      exact ⟨rfl, List.append_cancel_left same⟩
  | bool value =>
      intro json' rest rest' _ _ same
      obtain rfl := rank_eq_iff.mp (alike same)
      exact ⟨rfl, List.append_cancel_left same⟩
  | number value =>
      intro json' rest rest' ends ends' same
      obtain ⟨value', rfl⟩ := rank_eq_iff.mp (alike same)
      obtain ⟨rfl, rfl⟩ := number_separates ends ends' same
      exact ⟨rfl, rfl⟩
  | string text =>
      intro json' rest rest' _ _ same
      obtain ⟨text', rfl⟩ := rank_eq_iff.mp (alike same)
      obtain ⟨rfl, rfl⟩ := renderString_separates same
      exact ⟨rfl, rfl⟩
  | array items ih =>
      intro json' rest rest' _ _ same
      obtain ⟨items', rfl⟩ := rank_eq_iff.mp (alike same)
      rw [render, render, renderItems_eq, renderItems_eq] at same
      simp only [List.append_assoc] at same
      obtain ⟨rfl, rfl⟩ := members_separate (closing_ends (by decide)) (by decide) render_ne_bracket ih
        (List.append_cancel_left same)
      exact ⟨rfl, rfl⟩
  | object fields ih =>
      intro json' rest rest' _ _ same
      obtain ⟨fields', rfl⟩ := rank_eq_iff.mp (alike same)
      rw [render, render, renderFields_eq, renderFields_eq] at same
      simp only [List.append_assoc] at same
      have each : ∀ field ∈ fields, ∀ field' rest rest', Ends rest → Ends rest' →
          renderField field ++ rest = renderField field' ++ rest' →
          field = field' ∧ rest = rest' := by
        intro field member field' rest rest' ends ends' equal
        simp only [renderField, List.append_assoc] at equal
        obtain ⟨key, later⟩ := renderString_separates equal
        obtain ⟨value, rfl⟩ := ih field member field'.2 rest rest' ends ends'
          (List.cons.inj later).2
        exact ⟨Prod.ext key value, rfl⟩
      have other : ∀ field rest rest', renderField field ++ rest ≠ '\x7d' :: rest' := by
        intro field rest rest' equal
        cases (List.cons.inj equal).1
      obtain ⟨rfl, rfl⟩ := members_separate (closing_ends (by decide)) (by decide) other each
        (List.append_cancel_left same)
      exact ⟨rfl, rfl⟩

theorem render_injective : Function.Injective render := by
  intro json json' same
  have ends : Ends [] := nofun
  refine (separates json json' [] [] ends ends ?_).1
  rw [same]

end Foundation.Json
