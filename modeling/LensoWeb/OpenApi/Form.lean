import LensoWeb.OpenApi.Schema

/-!
# The canonical form of a schema

`canonical_schema_with_root` threads the set of followed references through its
recursion. A call that succeeds gives the set back as it was, so the canonical form
is a function of the schema, its root and the references above it. This module
states the recursion in that form; all later results start from these equations.
-/

namespace OpenApi

open Foundation

variable [FieldOrder]

/-- The canonical form, without the threaded set. -/
def canonicalForm (config : OpenApiConfig) (routeId : Str) (depth : Nat) (root : Json)
    (references : Finset Str) (schema : Json) : Except SchemaError Json :=
  (canonicalSchemaWithRoot config routeId depth schema root references).map Prod.fst

/-- Whether a field of an object without a reference is left out. -/
def dropsField (key : Str) : Bool := ignoredSchemaKeyword key || key == lit "$defs"

/-- Whether a field beside a reference is left out. -/
def dropsSibling (key : Str) : Bool := key == lit "$ref" || ignoredSchemaKeyword key

/-- Whether the array under a key has no order of its own. -/
def isUnordered (key : Str) : Bool := key == lit "required" || key == lit "enum"

/-- The canonical value of a field. -/
def arrange (key : Str) (value : Json) : Json :=
  if isUnordered key then sortJsonArray value else value

/-- One round of the two field loops: a field is left out or added. -/
def mergeField (drops : Str → Bool) (finish : Str → Json → Json)
    (form : Json → Except SchemaError Json) (normalized : List (Str × Json))
    (field : Str × Json) : Except SchemaError (List (Str × Json)) :=
  if drops field.1 then .ok normalized
  else (form field.2).map fun value => ObjectMap.insert field.1 (finish field.1 value) normalized

/-- One field of an object without a reference. -/
def keepField (form : Json → Except SchemaError Json) :
    List (Str × Json) → Str × Json → Except SchemaError (List (Str × Json)) :=
  mergeField dropsField arrange form

/-- One field beside a reference. -/
def addSibling (form : Json → Except SchemaError Json) :
    List (Str × Json) → Str × Json → Except SchemaError (List (Str × Json)) :=
  mergeField dropsSibling (fun _ value => value) form

/-- The fields of what a reference leads to. -/
def expandReference (config : OpenApiConfig) (routeId : Str)
    (follow : Resolved → Finset Str → Except SchemaError Json) (root : Json)
    (references : Finset Str) (reference : Str) : Except SchemaError (List (Str × Json)) := do
  let resolved ← resolveSchemaReference config reference root routeId
  if resolved.key ∈ references then
    .error (.invalid (lit "route " ++ routeId ++
      lit " has a cyclic OpenAPI schema reference " ++ reference))
  else
    match ← follow resolved (insert resolved.key references) with
    | .object fields => .ok fields
    | _ => .error (.invalid (lit "route " ++ routeId ++ lit " OpenAPI schema reference " ++
        reference ++ lit " did not resolve to an object"))

/-! ### The threaded set -/

section Threading

variable (config : OpenApiConfig) (routeId : Str)
variable (follow : Resolved → Finset Str → Except SchemaError (Json × Finset Str))
variable (root : Json)

/-- The form of a schema, given the recursive call. -/
def formOf (references : Finset Str) (schema : Json) : Except SchemaError Json :=
  (canonicalValue config routeId follow root schema references).map Prod.fst

/-- Success gives the set back as it was. -/
def Threads (schema : Json) : Prop :=
  ∀ references, canonicalValue config routeId follow root schema references =
    (formOf config routeId follow root references schema).map (·, references)

variable {config routeId follow root}

theorem canonicalItems_eq {items : List Json}
    (each : ∀ item ∈ items, Threads config routeId follow root item) (references : Finset Str) :
    canonicalItems config routeId follow root items references =
      (items.mapM (formOf config routeId follow root references)).map (·, references) := by
  induction items with
  | nil => rfl
  | cons item rest ih =>
      have first := each item List.mem_cons_self references
      have later := ih fun other member => each other (List.mem_cons_of_mem _ member)
      rw [canonicalItems, first, List.mapM_cons]
      cases formOf config routeId follow root references item with
      | error failure => rfl
      | ok value =>
          simp only [Except.map, bind, Except.bind]
          rw [later]
          cases rest.mapM (formOf config routeId follow root references) <;> rfl

theorem canonicalFields_eq {fields : List (Str × Json)}
    (each : ∀ field ∈ fields, Threads config routeId follow root field.2)
    (normalized : List (Str × Json)) (references : Finset Str) :
    canonicalFields config routeId follow root fields normalized references =
      (fields.foldlM (keepField (formOf config routeId follow root references))
        normalized).map (·, references) := by
  induction fields generalizing normalized with
  | nil => rfl
  | cons field rest ih =>
      obtain ⟨key, value⟩ := field
      have first := each (key, value) List.mem_cons_self references
      have later := ih fun other member => each other (List.mem_cons_of_mem _ member)
      rw [canonicalFields, List.foldlM_cons, keepField, mergeField, dropsField]
      split
      · exact later normalized
      · rw [first]
        cases formOf config routeId follow root references value with
        | error failure => rfl
        | ok value => exact later _

theorem canonicalSiblings_eq {fields : List (Str × Json)}
    (each : ∀ field ∈ fields, Threads config routeId follow root field.2)
    (normalized : List (Str × Json)) (references : Finset Str) :
    canonicalSiblings config routeId follow root fields normalized references =
      (fields.foldlM (addSibling (formOf config routeId follow root references))
        normalized).map (·, references) := by
  induction fields generalizing normalized with
  | nil => rfl
  | cons field rest ih =>
      obtain ⟨key, value⟩ := field
      have first := each (key, value) List.mem_cons_self references
      have later := ih fun other member => each other (List.mem_cons_of_mem _ member)
      rw [canonicalSiblings, List.foldlM_cons, addSibling, mergeField, dropsSibling]
      split
      · exact later normalized
      · rw [first]
        cases formOf config routeId follow root references value with
        | error failure => rfl
        | ok value => exact later _

private theorem canonicalValue_array {items : List Json}
    (each : ∀ item ∈ items, Threads config routeId follow root item) (references : Finset Str) :
    canonicalValue config routeId follow root (.array items) references =
      ((items.mapM (formOf config routeId follow root references)).map Json.array).map
        (·, references) := by
  rw [canonicalValue, canonicalItems_eq each]
  cases items.mapM (formOf config routeId follow root references) <;> rfl

private theorem canonicalValue_plain {fields : List (Str × Json)}
    (each : ∀ field ∈ fields, Threads config routeId follow root field.2)
    (plain : referenceOf fields = none) (references : Finset Str) :
    canonicalValue config routeId follow root (.object fields) references =
      ((fields.foldlM (keepField (formOf config routeId follow root references)) []).map
        Json.object).map (·, references) := by
  rw [canonicalValue]
  simp only [plain]
  rw [canonicalFields_eq each]
  cases fields.foldlM (keepField (formOf config routeId follow root references)) [] <;> rfl

variable (followed : ∀ resolved references, follow resolved references =
  ((follow resolved references).map Prod.fst).map (·, references))

include followed

private theorem canonicalValue_reference {fields : List (Str × Json)} {reference : Str}
    (each : ∀ field ∈ fields, Threads config routeId follow root field.2)
    (refers : referenceOf fields = some reference) (references : Finset Str) :
    canonicalValue config routeId follow root (.object fields) references =
      (expandReference config routeId (fun resolved references =>
          (follow resolved references).map Prod.fst) root references reference >>= fun target =>
        (fields.foldlM (addSibling (formOf config routeId follow root references)) target).map
          Json.object).map (·, references) := by
  rw [canonicalValue, expandReference]
  simp only [refers]
  cases resolveSchemaReference config reference root routeId with
  | error failure => rfl
  | ok resolved =>
      simp only [bind, Except.bind]
      by_cases cyclic : resolved.key ∈ references
      · rw [if_pos cyclic, if_pos cyclic]
        rfl
      · rw [if_neg cyclic, if_neg cyclic, followed]
        cases (follow resolved (insert resolved.key references)).map Prod.fst with
        | error failure => rfl
        | ok normalized =>
            simp only [Except.map]
            cases normalized with
            | object normalized =>
                simp only [Finset.erase_insert cyclic, canonicalSiblings_eq each]
                cases fields.foldlM (addSibling (formOf config routeId follow root references))
                  normalized <;> rfl
            | null => rfl
            | bool value => rfl
            | number value => rfl
            | string text => rfl
            | array items => rfl

/-- Every call that succeeds gives the set back. -/
theorem threads (schema : Json) : Threads config routeId follow root schema := by
  have through : ∀ {schema : Json} {form : Finset Str → Except SchemaError Json},
      (∀ references, canonicalValue config routeId follow root schema references =
        (form references).map (·, references)) → Threads config routeId follow root schema := by
    intro schema form shape references
    rw [formOf, shape]
    cases form references <;> rfl
  induction schema using Json.induction with
  | null => exact fun _ => rfl
  | bool value => exact fun _ => rfl
  | number value => exact fun _ => rfl
  | string text => exact fun _ => rfl
  | array items ih => exact through (canonicalValue_array ih)
  | object fields ih =>
      cases refers : referenceOf fields with
      | none => exact through (canonicalValue_plain ih refers)
      | some reference => exact through (canonicalValue_reference followed ih refers)

theorem formOf_array (references : Finset Str) (items : List Json) :
    formOf config routeId follow root references (.array items) =
      (items.mapM (formOf config routeId follow root references)).map Json.array := by
  rw [formOf, canonicalValue_array fun item _ => threads followed item]
  cases items.mapM (formOf config routeId follow root references) <;> rfl

theorem formOf_plain (references : Finset Str) {fields : List (Str × Json)}
    (plain : referenceOf fields = none) :
    formOf config routeId follow root references (.object fields) =
      (fields.foldlM (keepField (formOf config routeId follow root references)) []).map
        Json.object := by
  rw [formOf, canonicalValue_plain (fun field _ => threads followed field.2) plain]
  cases fields.foldlM (keepField (formOf config routeId follow root references)) [] <;> rfl

theorem formOf_reference (references : Finset Str) {fields : List (Str × Json)} {reference : Str}
    (refers : referenceOf fields = some reference) :
    formOf config routeId follow root references (.object fields) =
      (expandReference config routeId (fun resolved references =>
          (follow resolved references).map Prod.fst) root references reference >>= fun target =>
        (fields.foldlM (addSibling (formOf config routeId follow root references)) target).map
          Json.object) := by
  rw [formOf, canonicalValue_reference followed (fun field _ => threads followed field.2) refers]
  cases (expandReference config routeId (fun resolved references =>
    (follow resolved references).map Prod.fst) root references reference >>= fun target =>
      (fields.foldlM (addSibling (formOf config routeId follow root references)) target).map
        Json.object) <;> rfl

end Threading

/-! ### The equations of the canonical form -/

section Equations

variable (config : OpenApiConfig) (routeId : Str)

/-- The recursive call at a depth. -/
def callAt : Nat → Resolved → Finset Str → Except SchemaError (Json × Finset Str)
  | 0, _, _ => .error .exhausted
  | depth + 1, resolved, references =>
      canonicalSchemaWithRoot config routeId depth resolved.target resolved.root references

/-- What following a reference gives at a depth. -/
def followAt (depth : Nat) (resolved : Resolved) (references : Finset Str) :
    Except SchemaError Json := (callAt config routeId depth resolved references).map Prod.fst

theorem followAt_succ (depth : Nat) (resolved : Resolved) (references : Finset Str) :
    followAt config routeId (depth + 1) resolved references =
      canonicalForm config routeId depth resolved.root references resolved.target := rfl

private theorem canonicalForm_eq_formOf (depth : Nat) (root : Json) (references : Finset Str) :
    canonicalForm config routeId depth root references =
      formOf config routeId (callAt config routeId depth) root references := by
  cases depth <;> rfl

variable {config routeId}

/-- A call of `canonical_schema_with_root` gives the references back as they were. -/
theorem canonicalSchemaWithRoot_eq (depth : Nat) (schema root : Json) (references : Finset Str) :
    canonicalSchemaWithRoot config routeId depth schema root references =
      (canonicalForm config routeId depth root references schema).map (·, references) := by
  induction depth generalizing schema root references with
  | zero => exact threads (fun _ _ => rfl) schema references
  | succ depth ih =>
      exact threads (fun resolved references => ih resolved.target resolved.root references) schema
        references

private theorem callAt_eq (depth : Nat) (resolved : Resolved) (references : Finset Str) :
    callAt config routeId depth resolved references =
      ((callAt config routeId depth resolved references).map Prod.fst).map (·, references) := by
  cases depth with
  | zero => rfl
  | succ depth => exact canonicalSchemaWithRoot_eq depth resolved.target resolved.root references

variable (depth : Nat) (root : Json) (references : Finset Str)

theorem canonicalForm_scalar {schema : Json} (scalar : schema.isScalar = true) :
    canonicalForm config routeId depth root references schema = .ok schema := by
  cases depth <;> cases schema <;> first | rfl | cases scalar

theorem canonicalForm_array (items : List Json) :
    canonicalForm config routeId depth root references (.array items) =
      (items.mapM (canonicalForm config routeId depth root references)).map Json.array := by
  rw [canonicalForm_eq_formOf]
  exact formOf_array (callAt_eq depth) references items

theorem canonicalForm_plain {fields : List (Str × Json)} (plain : referenceOf fields = none) :
    canonicalForm config routeId depth root references (.object fields) =
      (fields.foldlM (keepField (canonicalForm config routeId depth root references)) []).map
        Json.object := by
  rw [canonicalForm_eq_formOf]
  exact formOf_plain (callAt_eq depth) references plain

theorem canonicalForm_reference {fields : List (Str × Json)} {reference : Str}
    (refers : referenceOf fields = some reference) :
    canonicalForm config routeId depth root references (.object fields) =
      (expandReference config routeId (followAt config routeId depth) root references
          reference >>= fun target =>
        (fields.foldlM (addSibling (canonicalForm config routeId depth root references))
          target).map Json.object) := by
  rw [canonicalForm_eq_formOf]
  exact formOf_reference (callAt_eq depth) references refers

end Equations

/-! ### Success -/

/-- A field and the entry it becomes. -/
def BecomesEntry (finish : Str → Json → Json) (form : Json → Except SchemaError Json)
    (field entry : Str × Json) : Prop :=
  ∃ value, form field.2 = .ok value ∧ entry = (field.1, finish field.1 value)

theorem foldlM_mergeField {drops : Str → Bool} {finish : Str → Json → Json}
    {form : Json → Except SchemaError Json} {fields normalized final : List (Str × Json)} :
    fields.foldlM (mergeField drops finish form) normalized = .ok final ↔
      ∃ entries, List.Forall₂ (BecomesEntry finish form) (fields.filter (!drops ·.1)) entries ∧
        final = ObjectMap.insertAll normalized entries := by
  induction fields generalizing normalized with
  | nil =>
      simp only [List.foldlM_nil, List.filter_nil, List.forall₂_nil_left_iff, exists_eq_left]
      constructor
      · intro returned
        cases returned
        rfl
      · rintro rfl
        rfl
  | cons field rest ih =>
      rw [List.foldlM_cons, Result.bind_eq_ok, mergeField]
      by_cases dropped : drops field.1 = true
      · rw [if_pos dropped, List.filter_cons_of_neg (by simp [dropped])]
        constructor
        · rintro ⟨value, same, later⟩
          cases same
          exact ih.mp later
        · exact fun later => ⟨normalized, rfl, ih.mpr later⟩
      · rw [if_neg dropped, List.filter_cons_of_pos (by simpa using dropped)]
        constructor
        · rintro ⟨next, first, later⟩
          obtain ⟨value, formed, rfl⟩ := Result.map_eq_ok.mp first
          obtain ⟨entries, others, rfl⟩ := ih.mp later
          exact ⟨_ :: entries, .cons ⟨value, formed, rfl⟩ others, rfl⟩
        · rintro ⟨entries, all, rfl⟩
          obtain ⟨entry, others, ⟨value, formed, rfl⟩, later, rfl⟩ :=
            List.forall₂_cons_left_iff.mp all
          exact ⟨_, Result.map_eq_ok.mpr ⟨value, formed, rfl⟩, ih.mpr ⟨others, later, rfl⟩⟩

omit [FieldOrder] in
/-- Every entry of a merged object comes from a field. -/
theorem exists_field_of_entry {drops : Str → Bool} {finish : Str → Json → Json}
    {form : Json → Except SchemaError Json} {fields entries : List (Str × Json)}
    (all : List.Forall₂ (BecomesEntry finish form) (fields.filter (!drops ·.1)) entries)
    {entry : Str × Json} (member : entry ∈ entries) :
    ∃ field ∈ fields, drops field.1 = false ∧ BecomesEntry finish form field entry := by
  obtain ⟨field, kept, becomes⟩ := Result.exists_of_forall₂_left all.flip member
  rw [List.mem_filter, Bool.not_eq_true'] at kept
  exact ⟨field, kept.1, kept.2, becomes⟩

section Success

variable {config : OpenApiConfig} {routeId : Str} {depth : Nat} {root : Json}
  {references : Finset Str} {result : Json}

theorem canonicalForm_array_ok {items : List Json} :
    canonicalForm config routeId depth root references (.array items) = .ok result ↔
      ∃ forms, List.Forall₂ (fun item form =>
        canonicalForm config routeId depth root references item = .ok form) items forms ∧
        result = .array forms := by
  rw [canonicalForm_array, Result.map_eq_ok]
  constructor
  · rintro ⟨forms, all, rfl⟩
    exact ⟨forms, Result.mapM_eq_ok.mp all, rfl⟩
  · rintro ⟨forms, all, rfl⟩
    exact ⟨forms, Result.mapM_eq_ok.mpr all, rfl⟩

theorem canonicalForm_plain_ok {fields : List (Str × Json)} (plain : referenceOf fields = none) :
    canonicalForm config routeId depth root references (.object fields) = .ok result ↔
      ∃ entries, List.Forall₂
        (BecomesEntry arrange (canonicalForm config routeId depth root references))
        (fields.filter (!dropsField ·.1)) entries ∧
        result = .object (ObjectMap.insertAll [] entries) := by
  rw [canonicalForm_plain depth root references plain, Result.map_eq_ok]
  constructor
  · rintro ⟨final, merged, rfl⟩
    obtain ⟨entries, all, rfl⟩ := foldlM_mergeField.mp merged
    exact ⟨entries, all, rfl⟩
  · rintro ⟨entries, all, rfl⟩
    exact ⟨_, foldlM_mergeField.mpr ⟨entries, all, rfl⟩, rfl⟩

omit [FieldOrder] in
theorem expandReference_ok {follow : Resolved → Finset Str → Except SchemaError Json}
    {reference : Str} {target : List (Str × Json)} :
    expandReference config routeId follow root references reference = .ok target ↔
      ∃ resolved, resolveSchemaReference config reference root routeId = .ok resolved ∧
        resolved.key ∉ references ∧
        follow resolved (insert resolved.key references) = .ok (.object target) := by
  rw [expandReference, Result.bind_eq_ok]
  constructor
  · rintro ⟨resolved, found, continued⟩
    split at continued
    · cases continued
    · next fresh =>
      obtain ⟨value, followed, matched⟩ := Result.bind_eq_ok.mp continued
      cases value with
      | object fields =>
          cases matched
          exact ⟨resolved, found, fresh, followed⟩
      | null => cases matched
      | bool value => cases matched
      | number value => cases matched
      | string text => cases matched
      | array items => cases matched
  · rintro ⟨resolved, found, fresh, followed⟩
    refine ⟨resolved, found, ?_⟩
    rw [if_neg fresh]
    exact Result.bind_eq_ok.mpr ⟨_, followed, rfl⟩

theorem canonicalForm_reference_ok {fields : List (Str × Json)} {reference : Str}
    (refers : referenceOf fields = some reference) :
    canonicalForm config routeId depth root references (.object fields) = .ok result ↔
      ∃ resolved target entries, resolveSchemaReference config reference root routeId =
          .ok resolved ∧ resolved.key ∉ references ∧
        followAt config routeId depth resolved (insert resolved.key references) =
          .ok (.object target) ∧
        List.Forall₂ (BecomesEntry (fun _ value => value)
          (canonicalForm config routeId depth root references))
          (fields.filter (!dropsSibling ·.1)) entries ∧
        result = .object (ObjectMap.insertAll target entries) := by
  rw [canonicalForm_reference depth root references refers, Result.bind_eq_ok]
  constructor
  · rintro ⟨target, expanded, merged⟩
    obtain ⟨resolved, found, fresh, followed⟩ := expandReference_ok.mp expanded
    obtain ⟨final, looped, rfl⟩ := Result.map_eq_ok.mp merged
    obtain ⟨entries, all, rfl⟩ := foldlM_mergeField.mp looped
    exact ⟨resolved, target, entries, found, fresh, followed, all, rfl⟩
  · rintro ⟨resolved, target, entries, found, fresh, followed, all, rfl⟩
    refine ⟨target, expandReference_ok.mpr ⟨resolved, found, fresh, followed⟩, ?_⟩
    exact Result.map_eq_ok.mpr ⟨_, foldlM_mergeField.mpr ⟨entries, all, rfl⟩, rfl⟩

end Success

end OpenApi
