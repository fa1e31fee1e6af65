import LensoWeb.Foundation.Assoc

/-!
# Text and JSON values

Text is a list of Unicode scalar values, compared in their order, which is the
order of the UTF-8 encodings. A JSON number is kept as the text it is written as.
The fields of an object are an association list, in the order in which the map behind
the object visits them: rendering a value and walking over it follow that order.
-/

namespace Foundation

/-- Unicode text. -/
abbrev Str := List Char

/-- The text of a literal. -/
def lit (literal : String) : Str := literal.toList

namespace Str

/-- `char::is_whitespace`: the `White_Space` property. -/
def isWhitespace (c : Char) : Bool :=
  let code := c.toNat
  (9 ≤ code && code ≤ 13) || code == 32 || code == 133 || code == 160 || code == 5760 ||
    (8192 ≤ code && code ≤ 8202) || code == 8232 || code == 8233 || code == 8239 ||
    code == 8287 || code == 12288

/-- `str::trim`. -/
def trim (text : Str) : Str := (text.dropWhile isWhitespace).rdropWhile isWhitespace

/-- `str::to_ascii_lowercase`. -/
def lowercase (text : Str) : Str := text.map Char.toLower

/-- `str::to_ascii_uppercase`. -/
def uppercase (text : Str) : Str := text.map Char.toUpper

/-- `str::strip_prefix`. -/
def strip (front text : Str) : Option Str :=
  if front.isPrefixOf text then some (text.drop front.length) else none

theorem strip_eq_some_iff {front text rest : Str} :
    strip front text = some rest ↔ text = front ++ rest := by
  rw [strip]
  constructor
  · intro stripped
    split at stripped
    · next starts =>
      obtain ⟨tail, rfl⟩ := List.isPrefixOf_iff_prefix.mp starts
      cases stripped
      rw [List.drop_left]
    · cases stripped
  · rintro rfl
    rw [if_pos (List.isPrefixOf_iff_prefix.mpr (List.prefix_append front rest)), List.drop_left]

end Str

/-- The text of a JSON number. -/
structure Number where
  text : Str
  nonempty : text ≠ []
  valid : text.all (fun c => c.isDigit || (lit "+-.eE").contains c) = true
deriving DecidableEq

/-- A natural number in decimal digits. -/
def Number.ofNat (number : Nat) : Number where
  text := Nat.toDigits 10 number
  nonempty := Nat.toDigits_ne_nil
  valid := by
    refine List.all_eq_true.mpr fun c member => ?_
    rw [Nat.isDigit_of_mem_toDigits (by decide) (by decide) member, Bool.true_or]

/-- JSON values. -/
inductive Json where
  | null
  | bool (value : Bool)
  | number (value : Number)
  | string (text : Str)
  | array (items : List Json)
  | object (fields : List (Str × Json))

namespace Json

/-- Induction over values: the members of a container come first. -/
theorem induction {P : Json → Prop} (null : P .null) (bool : ∀ value, P (.bool value))
    (number : ∀ value, P (.number value)) (string : ∀ text, P (.string text))
    (array : ∀ items, (∀ item ∈ items, P item) → P (.array items))
    (object : ∀ fields, (∀ field ∈ fields, P field.2) → P (.object fields)) (json : Json) :
    P json :=
  @Json.rec P (fun items => ∀ item ∈ items, P item) (fun fields => ∀ field ∈ fields, P field.2)
    (fun field => P field.2) null bool number string array object (by simp)
    (by
      intro head tail first later item member
      obtain rfl | inside := List.mem_cons.mp member
      · exact first
      · exact later item inside)
    (by simp)
    (by
      intro head tail first later field member
      obtain rfl | inside := List.mem_cons.mp member
      · exact first
      · exact later field inside)
    (by
      intro key value holds
      exact holds) json

/-! ### Equality -/

mutual

/-- Equality test. -/
def same : Json → Json → Bool
  | .null, .null => true
  | .bool left, .bool right => left == right
  | .number left, .number right => decide (left = right)
  | .string left, .string right => left == right
  | .array left, .array right => sameItems left right
  | .object left, .object right => sameFields left right
  | _, _ => false

def sameItems : List Json → List Json → Bool
  | [], [] => true
  | left :: lefts, right :: rights => same left right && sameItems lefts rights
  | _, _ => false

def sameFields : List (Str × Json) → List (Str × Json) → Bool
  | [], [] => true
  | (key, left) :: lefts, (name, right) :: rights =>
      key == name && same left right && sameFields lefts rights
  | _, _ => false

end

private theorem sameItems_iff {lefts : List Json}
    (each : ∀ left ∈ lefts, ∀ right, same left right = true ↔ left = right) (rights : List Json) :
    sameItems lefts rights = true ↔ lefts = rights := by
  induction lefts generalizing rights with
  | nil => cases rights <;> simp [sameItems]
  | cons left lefts ih =>
      have first := each left List.mem_cons_self
      have later := ih fun other member => each other (List.mem_cons_of_mem _ member)
      cases rights <;> simp [sameItems, first, later]

private theorem sameFields_iff {lefts : List (Str × Json)}
    (each : ∀ left ∈ lefts, ∀ right, same left.2 right = true ↔ left.2 = right)
    (rights : List (Str × Json)) : sameFields lefts rights = true ↔ lefts = rights := by
  induction lefts generalizing rights with
  | nil => cases rights <;> simp [sameFields]
  | cons left lefts ih =>
      have first := each left List.mem_cons_self
      have later := ih fun other member => each other (List.mem_cons_of_mem _ member)
      cases rights with
      | nil => simp [sameFields]
      | cons right rights =>
          obtain ⟨key, value⟩ := left
          simp [sameFields, first, later, Prod.ext_iff]

theorem same_iff (left right : Json) : same left right = true ↔ left = right := by
  induction left using induction generalizing right with
  | null => cases right <;> simp [same]
  | bool value => cases right <;> simp [same]
  | number value => cases right <;> simp [same]
  | string text => cases right <;> simp [same]
  | array items ih => cases right <;> simp [same, sameItems_iff ih]
  | object fields ih => cases right <;> simp [same, sameFields_iff ih]

instance : DecidableEq Json := fun left right => decidable_of_iff _ (same_iff left right)

/-! ### Access -/

/-- `Value::as_object`. -/
def asObject : Json → Option (List (Str × Json))
  | object fields => some fields
  | _ => none

/-- `Value::as_array`. -/
def asArray : Json → Option (List Json)
  | array items => some items
  | _ => none

/-- `Value::as_str`. -/
def asStr : Json → Option Str
  | string text => some text
  | _ => none

/-- `Value::as_bool`. -/
def asBool : Json → Option Bool
  | bool value => some value
  | _ => none

/-- `Value::get` with a key. -/
def get (json : Json) (key : Str) : Option Json := json.asObject.bind (Assoc.find key)

@[simp] theorem asObject_eq_some {json : Json} {fields : List (Str × Json)} :
    json.asObject = some fields ↔ json = object fields := by
  cases json <;> simp [asObject]

@[simp] theorem asArray_eq_some {json : Json} {items : List Json} :
    json.asArray = some items ↔ json = array items := by
  cases json <;> simp [asArray]

@[simp] theorem asStr_eq_some {json : Json} {text : Str} :
    json.asStr = some text ↔ json = string text := by
  cases json <;> simp [asStr]

@[simp] theorem asBool_eq_some {json : Json} {value : Bool} :
    json.asBool = some value ↔ json = bool value := by
  cases json <;> simp [asBool]

/-- The values that hold no other values. -/
def isScalar : Json → Bool
  | array _ => false
  | object _ => false
  | _ => true

/-- Induction where all scalars are one case. -/
theorem containerInduction {P : Json → Prop} (scalar : ∀ json, json.isScalar = true → P json)
    (array : ∀ items, (∀ item ∈ items, P item) → P (.array items))
    (object : ∀ fields, (∀ field ∈ fields, P field.2) → P (.object fields)) (json : Json) :
    P json :=
  induction (scalar _ rfl) (fun _ => scalar _ rfl) (fun _ => scalar _ rfl)
    (fun _ => scalar _ rfl) array object json

/-! ### Rendering -/

/-- One character inside quotes, as the compact formatter writes it. -/
def escape (c : Char) : Str :=
  match c.toNat with
  | 34 => lit "\\\""
  | 92 => lit "\\\\"
  | 8 => lit "\\b"
  | 9 => lit "\\t"
  | 10 => lit "\\n"
  | 12 => lit "\\f"
  | 13 => lit "\\r"
  | code =>
      if code < 32 then
        lit "\\u00" ++ [Nat.digitChar (code / 16), Nat.digitChar (code % 16)]
      else [c]

/-- A quoted text. -/
def renderString (text : Str) : Str := lit "\"" ++ text.flatMap escape ++ lit "\""

mutual

/-- `Value::to_string`, the compact rendering. -/
def render : Json → Str
  | .null => lit "null"
  | .bool true => lit "true"
  | .bool false => lit "false"
  | .number value => value.text
  | .string text => renderString text
  | .array items => lit "[" ++ (renderItems items).tail ++ lit "]"
  | .object fields => lit "\x7b" ++ (renderFields fields).tail ++ lit "\x7d"

/-- Every item behind a comma. -/
def renderItems : List Json → Str
  | [] => []
  | item :: rest => lit "," ++ render item ++ renderItems rest

/-- Every field behind a comma. -/
def renderFields : List (Str × Json) → Str
  | [] => []
  | (key, value) :: rest =>
      lit "," ++ renderString key ++ lit ":" ++ render value ++ renderFields rest

end

end Json

end Foundation
