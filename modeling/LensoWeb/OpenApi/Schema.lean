import LensoWeb.Foundation.ObjectMap
import LensoWeb.OpenApi.Config

/-!
# Canonical schemas

Strict contracts are compared by the canonical form of their schemas: references
are followed, annotations and definition tables dropped, and the arrays under
`required` and `enum` sorted. A reference is read against the root that it was
found under; the keys of the references being followed are kept in a set, and
meeting one of them again is an error.

The recursion follows references into targets that may be larger than the schema
they are met in. The model bounds how many references may be followed one inside
the other: `follow` is the recursive call on a target, and the recursion inside
one schema is structural. `canonicalSchema` allows for as many references as there
are keys, which is always enough.

Objects are filled field by field, in either order of fields; the items of an array are
sorted by their texts, in which that order shows.
-/

namespace OpenApi

open Foundation

variable [FieldOrder]

/-- `ignored_schema_keyword`. -/
def ignoredSchemaKeyword (key : Str) : Bool :=
  ["$schema", "$id", "title", "description", "examples", "example", "default", "deprecated",
    "readOnly", "writeOnly"].any fun word => lit word == key

/-- `sort_json_array`: a stable sort by the compact rendering. -/
def sortJsonArray : Json → Json
  | .array items => .array (items.insertionSort fun left right => left.render ≤ right.render)
  | other => other

/-- What goes wrong: a message of the source, or the bound of the model. -/
inductive SchemaError where
  | invalid (message : Str)
  | exhausted
deriving DecidableEq

/-- The text under `$ref`. -/
def referenceOf (fields : List (Str × Json)) : Option Str :=
  (Assoc.find (lit "$ref") fields).bind Json.asStr

/-- An entry of the definition table of a root. -/
def definition (root : Json) (name : Str) : Option Json :=
  ((root.get (lit "$defs")).bind Json.asObject).bind (Assoc.find name)

/-- What a reference leads to: a schema, the root that schema is read against, and
the key under which the reference is remembered. -/
structure Resolved where
  target : Json
  root : Json
  key : Str
deriving DecidableEq

/-- `resolve_schema_reference`. -/
def resolveSchemaReference (config : OpenApiConfig) (reference : Str) (localRoot : Json)
    (routeId : Str) : Except SchemaError Resolved :=
  match Str.strip (lit "#/$defs/") reference with
  | some name =>
      match definition localRoot name with
      | some target => .ok ⟨target, localRoot, lit "local:" ++ reference⟩
      | none => .error (.invalid (lit "route " ++ routeId ++
          lit " references missing local OpenAPI definition " ++ reference))
  | none =>
      match Str.strip (lit "#/components/schemas/") reference with
      | none => .error (.invalid (lit "route " ++ routeId ++
          lit " uses unsupported OpenAPI schema reference " ++ reference))
      | some name =>
          if name.isEmpty || name.contains '/' then
            .error (.invalid (lit "route " ++ routeId ++
              lit " uses invalid OpenAPI schema reference " ++ reference))
          else match config.component (lit "schemas") name with
            | some target => .ok ⟨target, target, lit "component:" ++ reference⟩
            | none => .error (.invalid (lit "route " ++ routeId ++
                lit " references missing OpenAPI schema component " ++ reference))

section Recursion

variable (config : OpenApiConfig) (routeId : Str)
variable (follow : Resolved → Finset Str → Except SchemaError (Json × Finset Str))

mutual

/-- One schema, with the references being followed. -/
def canonicalValue (localRoot : Json) :
    Json → Finset Str → Except SchemaError (Json × Finset Str)
  | .object fields, references =>
      match referenceOf fields with
      | some reference => do
          let resolved ← resolveSchemaReference config reference localRoot routeId
          if resolved.key ∈ references then
            .error (.invalid (lit "route " ++ routeId ++
              lit " has a cyclic OpenAPI schema reference " ++ reference))
          else
            let (normalized, references) ← follow resolved (insert resolved.key references)
            let references := references.erase resolved.key
            match normalized with
            | .object normalized =>
                let (merged, references) ←
                  canonicalSiblings localRoot fields normalized references
                return (.object merged, references)
            | _ => .error (.invalid (lit "route " ++ routeId ++ lit " OpenAPI schema reference " ++
                reference ++ lit " did not resolve to an object"))
      | none => do
          let (normalized, references) ← canonicalFields localRoot fields [] references
          return (.object normalized, references)
  | .array items, references => do
      let (items, references) ← canonicalItems localRoot items references
      return (.array items, references)
  | scalar, references => .ok (scalar, references)

/-- The items of an array. -/
def canonicalItems (localRoot : Json) :
    List Json → Finset Str → Except SchemaError (List Json × Finset Str)
  | [], references => .ok ([], references)
  | item :: rest, references => do
      let (item, references) ← canonicalValue localRoot item references
      let (rest, references) ← canonicalItems localRoot rest references
      return (item :: rest, references)

/-- What stands beside a reference is added to its target. -/
def canonicalSiblings (localRoot : Json) : List (Str × Json) → List (Str × Json) → Finset Str →
    Except SchemaError (List (Str × Json) × Finset Str)
  | [], normalized, references => .ok (normalized, references)
  | (key, value) :: rest, normalized, references =>
      if key == lit "$ref" || ignoredSchemaKeyword key then
        canonicalSiblings localRoot rest normalized references
      else do
        let (value, references) ← canonicalValue localRoot value references
        canonicalSiblings localRoot rest (ObjectMap.insert key value normalized) references

/-- The fields of an object without a reference. -/
def canonicalFields (localRoot : Json) : List (Str × Json) → List (Str × Json) → Finset Str →
    Except SchemaError (List (Str × Json) × Finset Str)
  | [], normalized, references => .ok (normalized, references)
  | (key, value) :: rest, normalized, references =>
      if ignoredSchemaKeyword key || key == lit "$defs" then
        canonicalFields localRoot rest normalized references
      else do
        let (value, references) ← canonicalValue localRoot value references
        let value := if key == lit "required" || key == lit "enum" then sortJsonArray value
          else value
        canonicalFields localRoot rest (ObjectMap.insert key value normalized) references

end

end Recursion

/-- `canonical_schema_with_root`, following at most `depth` references one inside the
other. -/
def canonicalSchemaWithRoot (config : OpenApiConfig) (routeId : Str) :
    Nat → Json → Json → Finset Str → Except SchemaError (Json × Finset Str)
  | 0 => fun schema localRoot references =>
      canonicalValue config routeId (fun _ _ => .error .exhausted) localRoot schema references
  | depth + 1 => fun schema localRoot references =>
      canonicalValue config routeId
        (fun resolved => canonicalSchemaWithRoot config routeId depth resolved.target resolved.root)
        localRoot schema references

/-- The named schemas of the components. -/
def componentSchemas (config : OpenApiConfig) : List (Str × Json) :=
  ((config.components.bind (Assoc.find (lit "schemas"))).bind Json.asObject).getD []

/-- The keys of the references that a root defines. -/
def definitionKeys (root : Json) : List Str :=
  (((root.get (lit "$defs")).bind Json.asObject).getD []).map fun entry =>
    lit "local:#/$defs/" ++ entry.1

/-- The keys of all references that can be followed from a root. -/
def availableKeys (config : OpenApiConfig) (root : Json) : List Str :=
  definitionKeys root ++ (componentSchemas config).flatMap fun entry =>
    (lit "component:#/components/schemas/" ++ entry.1) :: definitionKeys entry.2

/-- `canonical_schema_with_root` where no reference is being followed. The last case
does not occur. -/
def canonicalSchemaIn (config : OpenApiConfig) (root schema : Json) (routeId : Str) :
    Except Str Json :=
  match canonicalSchemaWithRoot config routeId (availableKeys config root).length schema root
    ∅ with
  | .ok (value, _) => .ok value
  | .error (.invalid message) => .error message
  | .error .exhausted => .error []

/-- `canonical_schema`. -/
def canonicalSchema (config : OpenApiConfig) (schema : Json) (routeId : Str) : Except Str Json :=
  canonicalSchemaIn config schema schema routeId

end OpenApi
