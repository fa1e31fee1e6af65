import LensoWeb.Foundation.ObjectMap

/-!
# Satisfaction of a JSON Schema

A schema is a conjunction of its keywords. The keywords that constrain a value here are
`type`, `const`, `enum`, `required`, `properties` and `additionalProperties`; every other
keyword is an annotation. A Boolean schema allows everything or nothing.
-/

namespace Foundation.Json

/-- The type names of a value. -/
def hasType (name : Str) : Json → Bool
  | .null => name == lit "null"
  | .bool _ => name == lit "boolean"
  | .number value => name == lit "number" ||
      name == lit "integer" && !value.text.any (lit ".eE").contains
  | .string _ => name == lit "string"
  | .array _ => name == lit "array"
  | .object _ => name == lit "object"

/-- `type`, with one name or several. -/
def satisfiesType (argument value : Json) : Bool :=
  match argument with
  | .string name => value.hasType name
  | .array names => names.any fun name => name.asStr.any value.hasType
  | _ => true

/-- `required`, which constrains objects only. -/
def satisfiesRequired (argument value : Json) : Bool :=
  match argument, value with
  | .array names, .object fields =>
      names.all fun name => name.asStr.all ((fields.map Prod.fst).contains ·)
  | _, _ => true

/-- A keyword without subschemas. -/
def satisfiesPlain (key : Str) (argument value : Json) : Bool :=
  if key = lit "type" then satisfiesType argument value
  else if key = lit "const" then argument == value
  else if key = lit "enum" then (argument.asArray.getD []).contains value
  else if key = lit "required" then satisfiesRequired argument value
  else true

/-- The properties that a schema declares. -/
def declaredProperties (keywords : List (Str × Json)) : List Str :=
  (((Assoc.find (lit "properties") keywords).bind asObject).getD []).map Prod.fst

mutual

/-- Satisfaction of a schema. -/
def satisfies : Json → Json → Bool
  | .bool allowed, _ => allowed
  | .object keywords, value => satisfiesAll (declaredProperties keywords) keywords value
  | _, _ => false

/-- All keywords of a schema that declares some properties. -/
def satisfiesAll (declared : List Str) : List (Str × Json) → Json → Bool
  | [], _ => true
  | (key, argument) :: rest, value =>
      (if key = lit "properties" then
        match argument with
        | .object properties => satisfiesProperties properties value
        | _ => true
      else if key = lit "additionalProperties" then
        (value.asObject.getD []).all fun field =>
          declared.contains field.1 || satisfies argument field.2
      else satisfiesPlain key argument value) && satisfiesAll declared rest value

/-- `properties` constrains what is there. -/
def satisfiesProperties : List (Str × Json) → Json → Bool
  | [], _ => true
  | (name, schema) :: rest, value =>
      (match value.get name with
        | none => true
        | some member => satisfies schema member) && satisfiesProperties rest value

end

/-- One keyword of a schema that declares some properties. -/
def satisfiesKeyword (declared : List Str) (keyword : Str × Json) (value : Json) : Bool :=
  if keyword.1 = lit "properties" then
    satisfiesProperties (keyword.2.asObject.getD []) value
  else if keyword.1 = lit "additionalProperties" then
    (value.asObject.getD []).all fun field =>
      declared.contains field.1 || satisfies keyword.2 field.2
  else satisfiesPlain keyword.1 keyword.2 value

theorem satisfiesAll_cons (declared : List Str) (keyword : Str × Json)
    (rest : List (Str × Json)) (value : Json) :
    satisfiesAll declared (keyword :: rest) value =
      (satisfiesKeyword declared keyword value && satisfiesAll declared rest value) := by
  obtain ⟨key, argument⟩ := keyword
  cases argument <;> rfl

theorem satisfiesAll_iff {declared : List Str} {keywords : List (Str × Json)} {value : Json} :
    satisfiesAll declared keywords value = true ↔
      ∀ keyword ∈ keywords, satisfiesKeyword declared keyword value = true := by
  induction keywords with
  | nil => simp [satisfiesAll]
  | cons keyword rest ih => rw [satisfiesAll_cons, Bool.and_eq_true, ih, List.forall_mem_cons]

theorem satisfiesProperties_iff {properties : List (Str × Json)} {value : Json} :
    satisfiesProperties properties value = true ↔ ∀ property ∈ properties, ∀ member,
      value.get property.1 = some member → satisfies property.2 member = true := by
  induction properties with
  | nil => simp [satisfiesProperties]
  | cons property rest ih =>
      rw [satisfiesProperties, Bool.and_eq_true, ih, List.forall_mem_cons]
      cases value.get property.1 <;> simp

section Fields

variable [FieldOrder] {fields : List (Str × Json)} {value : Json}
  (distinct : (fields.map Prod.fst).Nodup)

include distinct

/-- The order in which a schema is filled does not matter. -/
theorem satisfies_ofFields (each : ∀ keyword ∈ fields,
    satisfiesKeyword (declaredProperties fields) keyword value = true) :
    satisfies (ofFields fields) value = true := by
  have declared : declaredProperties (ObjectMap.ofList fields) = declaredProperties fields := by
    rw [declaredProperties, declaredProperties, ObjectMap.find_ofList distinct]
  rw [ofFields, satisfies, satisfiesAll_iff, declared]
  exact fun keyword member => each keyword ((ObjectMap.mem_ofList distinct).mp member)

theorem satisfiesProperties_ofList (each : ∀ property ∈ fields, ∀ member,
    value.get property.1 = some member → satisfies property.2 member = true) :
    satisfiesProperties (ObjectMap.ofList fields) value = true := by
  rw [satisfiesProperties_iff]
  exact fun property member => each property ((ObjectMap.mem_ofList distinct).mp member)

end Fields

end Foundation.Json
