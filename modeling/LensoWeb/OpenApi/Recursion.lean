import LensoWeb.OpenApi.Depth

/-!
# Canonicalisation terminates

The recursion of `canonical_schema_with_root` goes from a schema to a part of it, or
from a reference to its target. The first shrinks the schema; the second adds a key
to the references on the path, of which there are only so many. This module states
the recursive calls as a relation, shows that it is well-founded, and that the
bounded function of the model solves the unbounded equation of the source.
-/

namespace OpenApi

open Foundation

section Terminates

variable [FieldOrder]

/-- A part of a schema that the recursion goes into. -/
inductive Inner : Json → Json → Prop where
  | item {items : List Json} {item : Json} (member : item ∈ items) : Inner (.array items) item
  | field {fields : List (Str × Json)} {field : Str × Json} (plain : referenceOf fields = none)
      (member : field ∈ fields) (kept : dropsField field.1 = false) : Inner (.object fields) field.2
  | sibling {fields : List (Str × Json)} {field : Str × Json} {reference : Str}
      (refers : referenceOf fields = some reference) (member : field ∈ fields)
      (kept : dropsSibling field.1 = false) : Inner (.object fields) field.2

omit [FieldOrder] in
/-- A part is smaller than the whole. -/
theorem Inner.sizeOf_lt {schema part : Json} (inner : Inner schema part) :
    sizeOf part < sizeOf schema := by
  have ofField : ∀ {fields : List (Str × Json)} {field : Str × Json}, field ∈ fields →
      sizeOf field.2 < sizeOf (Json.object fields) := by
    intro fields field member
    have listed := List.sizeOf_lt_of_mem member
    obtain ⟨key, value⟩ := field
    simp only [Prod.mk.sizeOf_spec] at listed
    simp only [Json.object.sizeOf_spec]
    omega
  cases inner with
  | item member =>
      have listed := List.sizeOf_lt_of_mem member
      simp only [Json.array.sizeOf_spec]
      omega
  | field plain member kept => exact ofField member
  | sibling refers member kept => exact ofField member

/-- A call: a schema, the root it is read against, and the references on the path. -/
structure Call where
  root : Json
  schema : Json
  references : Finset Str

section Calls

variable (config : OpenApiConfig) (routeId : Str)

/-- The recursive calls that a call makes. -/
inductive Calls : Call → Call → Prop where
  | inner {root schema part : Json} {references : Finset Str} (inner : Inner schema part) :
      Calls ⟨root, schema, references⟩ ⟨root, part, references⟩
  | follow {root : Json} {fields : List (Str × Json)} {references : Finset Str} {reference : Str}
      {resolved : Resolved} (refers : referenceOf fields = some reference)
      (found : resolveSchemaReference config reference root routeId = .ok resolved)
      (fresh : resolved.key ∉ references) :
      Calls ⟨root, .object fields, references⟩
        ⟨resolved.root, resolved.target, insert resolved.key references⟩

/-- The body of `canonical_schema_with_root`, given its recursive calls. -/
def canonicalStep (recurse : Json → Finset Str → Json → Except SchemaError Json) (root : Json)
    (references : Finset Str) : Json → Except SchemaError Json
  | .object fields =>
      match referenceOf fields with
      | some reference => do
          let target ← expandReference config routeId
            (fun resolved references => recurse resolved.root references resolved.target) root
            references reference
          (fields.foldlM (addSibling (recurse root references)) target).map Json.object
      | none => (fields.foldlM (keepField (recurse root references)) []).map Json.object
  | .array items => (items.mapM (recurse root references)).map Json.array
  | scalar => .ok scalar

/-- The canonical form, with a depth that is always enough. -/
def fullForm (root : Json) (references : Finset Str) (schema : Json) : Except SchemaError Json :=
  canonicalForm config routeId (availableKeys config root).length root references schema

end Calls

variable {config : OpenApiConfig} {routeId : Str}

/-! ### The keys that are left -/

omit [FieldOrder] in
/-- Following a reference stays within the keys of the root. -/
theorem availableKeys_resolved {reference : Str} {root : Json} {resolved : Resolved}
    (found : resolveSchemaReference config reference root routeId = .ok resolved) :
    resolved.key ∈ (availableKeys config root).toFinset ∧
      (availableKeys config resolved.root).toFinset ⊆ (availableKeys config root).toFinset := by
  have covered := resolved_covered (coversComponents_availableKeys root)
    (coversRoot_availableKeys root) found
  refine ⟨covered.1, ?_⟩
  obtain ⟨name, -, -, atRoot, -⟩ | ⟨name, -, -, -, defined, atRoot, -⟩ :=
    resolveSchemaReference_ok.mp found
  · rw [atRoot]
  · rw [atRoot]
    intro key member
    obtain own | shared := List.mem_append.mp (List.mem_toFinset.mp member)
    · rw [OpenApiConfig.component, Option.bind_eq_some_iff] at defined
      obtain ⟨table, there, entry⟩ := defined
      have listed : (name, resolved.target) ∈ componentSchemas config := by
        rw [componentSchemas, there]
        exact Assoc.mem_of_find entry
      refine List.mem_toFinset.mpr (List.mem_append_right _ (List.mem_flatMap.mpr ⟨_, listed, ?_⟩))
      exact List.mem_cons_of_mem _ own
    · exact List.mem_toFinset.mpr (List.mem_append_right _ shared)

/-- The keys that are left for a call. -/
def Call.left (config : OpenApiConfig) (call : Call) : Finset Str :=
  (availableKeys config call.root).toFinset \ call.references

omit [FieldOrder] in
/-- A call either takes one of the keys that are left, or goes into a part. -/
theorem Calls.shrinks {call next : Call} (calls : Calls config routeId call next) :
    (next.left config).card < (call.left config).card ∨
      next.left config = call.left config ∧ sizeOf next.schema < sizeOf call.schema := by
  cases calls with
  | inner inner => exact .inr ⟨rfl, inner.sizeOf_lt⟩
  | @follow root fields references reference resolved refers found fresh =>
      obtain ⟨known, subset⟩ := availableKeys_resolved found
      refine .inl (Finset.card_lt_card (Finset.ssubset_iff_subset_ne.mpr ⟨?_, ?_⟩))
      · intro key member
        rw [Call.left, Finset.mem_sdiff] at member ⊢
        exact ⟨subset member.1, fun before => member.2 (Finset.mem_insert_of_mem before)⟩
      · intro same
        have left : resolved.key ∈ Call.left config ⟨root, .object fields, references⟩ :=
          Finset.mem_sdiff.mpr ⟨known, fresh⟩
        rw [← same, Call.left, Finset.mem_sdiff] at left
        exact left.2 (Finset.mem_insert_self _ _)

omit [FieldOrder] in
/-- There is no infinite chain of calls. -/
theorem calls_wellFounded : WellFounded fun next call => Calls config routeId call next := by
  have ordered : WellFounded (InvImage (Prod.Lex (· < ·) (· < ·))
      fun call : Call => ((call.left config).card, sizeOf call.schema)) :=
    InvImage.wf _ (WellFounded.prod_lex wellFounded_lt wellFounded_lt)
  apply ordered.mono
  intro next call calls
  rw [InvImage, Prod.lex_def]
  obtain fewer | ⟨same, smaller⟩ := calls.shrinks
  · exact .inl fewer
  · exact .inr ⟨congrArg Finset.card same, smaller⟩

/-! ### The calls of one schema -/

omit [FieldOrder] in
/-- From a schema on, the references on the path are keys of the schema or of the
components. -/
theorem references_subset {schema : Json} {call : Call}
    (reached : Relation.ReflTransGen (Calls config routeId) ⟨schema, schema, ∅⟩ call) :
    call.references ⊆ (availableKeys config schema).toFinset ∧
      (availableKeys config call.root).toFinset ⊆ (availableKeys config schema).toFinset := by
  induction reached with
  | refl => exact ⟨Finset.empty_subset _, Finset.Subset.refl _⟩
  | tail _ calls ih =>
      cases calls with
      | inner inner => exact ih
      | follow refers found fresh =>
          obtain ⟨known, subset⟩ := availableKeys_resolved found
          exact ⟨Finset.insert_subset (ih.2 known) ih.1, subset.trans ih.2⟩

omit [FieldOrder] in
/-- Along a call the references grow within these keys, or the schema shrinks. -/
theorem Calls.grows_or_shrinks {schema : Json} {call next : Call}
    (reached : Relation.ReflTransGen (Calls config routeId) ⟨schema, schema, ∅⟩ call)
    (calls : Calls config routeId call next) :
    call.references ⊂ next.references ∧
        next.references ⊆ (availableKeys config schema).toFinset ∨
      next.references = call.references ∧ sizeOf next.schema < sizeOf call.schema := by
  have within := (references_subset (reached.tail calls)).1
  cases calls with
  | inner inner => exact .inr ⟨rfl, inner.sizeOf_lt⟩
  | follow refers found fresh => exact .inl ⟨Finset.ssubset_insert fresh, within⟩

/-! ### The equation of the source -/

section Equation

variable {root : Json} {references : Finset Str}

/-- The bound is not met where enough keys are allowed for. -/
theorem canonicalForm_ne_exhausted_of_left {depth : Nat}
    (enough : ((availableKeys config root).toFinset \ references).card ≤ depth) (schema : Json) :
    canonicalForm config routeId depth root references schema ≠ .error .exhausted := by
  have covered : CoversRoot ((availableKeys config root).toFinset ∪ references) root :=
    fun name target defined =>
      Finset.mem_union_left _ (coversRoot_availableKeys root name target defined)
  have components : CoversComponents config
      ((availableKeys config root).toFinset ∪ references) := by
    intro name target defined
    obtain ⟨known, below⟩ := coversComponents_availableKeys root name target defined
    exact ⟨Finset.mem_union_left _ known, fun name target defined =>
      Finset.mem_union_left _ (below name target defined)⟩
  refine canonicalForm_ne_exhausted components covered Finset.subset_union_right ?_ schema
  rw [← Finset.sdiff_union_self_eq_union, Finset.card_union_of_disjoint Finset.sdiff_disjoint]
  omega

theorem fullForm_ne_exhausted (root : Json) (references : Finset Str) (schema : Json) :
    fullForm config routeId root references schema ≠ .error .exhausted := by
  refine canonicalForm_ne_exhausted_of_left ?_ schema
  exact (Finset.card_le_card Finset.sdiff_subset).trans (List.toFinset_card_le _)

/-- A result that is not the bound is the full form. -/
theorem canonicalForm_eq_fullForm {depth : Nat} {schema : Json}
    (returned : canonicalForm config routeId depth root references schema ≠ .error .exhausted) :
    canonicalForm config routeId depth root references schema =
      fullForm config routeId root references schema := by
  obtain shallow | deep := le_total depth (availableKeys config root).length
  · have deeper : Refines (· = .exhausted)
        (canonicalForm config routeId depth root references schema)
        (fullForm config routeId root references schema) := canonicalForm_deeper shallow schema
    obtain same | ⟨_, rfl, exhausted⟩ := deeper
    · exact same
    · exact absurd exhausted returned
  · have deeper : Refines (· = .exhausted) (fullForm config routeId root references schema)
        (canonicalForm config routeId depth root references schema) :=
      canonicalForm_deeper deep schema
    obtain same | ⟨_, rfl, exhausted⟩ := deeper
    · exact same.symm
    · exact absurd exhausted (fullForm_ne_exhausted root references schema)

omit [FieldOrder] in
theorem expandReference_congr {follow other : Resolved → Finset Str → Except SchemaError Json}
    {reference : Str}
    (same : ∀ resolved, resolveSchemaReference config reference root routeId = .ok resolved →
      resolved.key ∉ references →
      follow resolved (insert resolved.key references) =
        other resolved (insert resolved.key references)) :
    expandReference config routeId follow root references reference =
      expandReference config routeId other root references reference := by
  rw [expandReference, expandReference]
  cases found : resolveSchemaReference config reference root routeId with
  | error failure => rfl
  | ok resolved =>
      simp only [bind, Except.bind]
      by_cases cyclic : resolved.key ∈ references
      · rw [if_pos cyclic, if_pos cyclic]
      · rw [if_neg cyclic, if_neg cyclic, same resolved found cyclic]

/-- What following a reference gives within the depth of the root is the full form. -/
theorem followAt_eq_fullForm {reference : Str} {resolved : Resolved}
    (found : resolveSchemaReference config reference root routeId = .ok resolved) :
    followAt config routeId (availableKeys config root).length resolved
        (insert resolved.key references) =
      fullForm config routeId resolved.root (insert resolved.key references) resolved.target := by
  obtain ⟨known, subset⟩ := availableKeys_resolved found
  have size := List.toFinset_card_le (availableKeys config root)
  have positive : 0 < (availableKeys config root).toFinset.card := Finset.card_pos.mpr ⟨_, known⟩
  obtain ⟨depth, deep⟩ : ∃ depth, (availableKeys config root).length = depth + 1 :=
    Nat.exists_eq_succ_of_ne_zero (by omega)
  rw [deep, followAt_succ]
  refine canonicalForm_eq_fullForm (canonicalForm_ne_exhausted_of_left ?_ resolved.target)
  -- One of the keys of the root is taken now.
  have taken : (availableKeys config resolved.root).toFinset \ insert resolved.key references ⊆
      (availableKeys config root).toFinset.erase resolved.key := by
    intro key member
    rw [Finset.mem_sdiff, Finset.mem_insert, not_or] at member
    exact Finset.mem_erase.mpr ⟨member.2.1, subset member.1⟩
  have fewer := Finset.card_le_card taken
  rw [Finset.card_erase_of_mem known] at fewer
  omega

/-- The full form solves the equation of the source. -/
theorem fullForm_eq (root : Json) (references : Finset Str) (schema : Json) :
    fullForm config routeId root references schema =
      canonicalStep config routeId (fullForm config routeId) root references schema := by
  cases schema with
  | object fields =>
      rw [fullForm, canonicalStep]
      cases refers : referenceOf fields with
      | none => exact canonicalForm_plain _ _ _ refers
      | some reference =>
          rw [canonicalForm_reference _ _ _ refers]
          exact congrArg (· >>= _) (expandReference_congr fun resolved found _ =>
            followAt_eq_fullForm found)
  | array items => exact canonicalForm_array _ _ _ items
  | null => exact canonicalForm_scalar _ _ _ rfl
  | bool value => exact canonicalForm_scalar _ _ _ rfl
  | number value => exact canonicalForm_scalar _ _ _ rfl
  | string text => exact canonicalForm_scalar _ _ _ rfl

theorem mergeField_congr {drops : Str → Bool} {finish : Str → Json → Json}
    {form other : Json → Except SchemaError Json} {fields : List (Str × Json)}
    (same : ∀ field ∈ fields, drops field.1 = false → form field.2 = other field.2)
    (normalized : List (Str × Json)) :
    fields.foldlM (mergeField drops finish form) normalized =
      fields.foldlM (mergeField drops finish other) normalized := by
  induction fields generalizing normalized with
  | nil => rfl
  | cons field rest ih =>
      have later := ih fun other member => same other (List.mem_cons_of_mem _ member)
      rw [List.foldlM_cons, List.foldlM_cons, mergeField, mergeField]
      by_cases dropped : drops field.1 = true
      · rw [if_pos dropped, if_pos dropped]
        exact later normalized
      · rw [if_neg dropped, if_neg dropped,
          same field List.mem_cons_self (Bool.eq_false_iff.mpr dropped)]
        exact congrArg _ (funext later)

/-- The body of the source makes no other calls. -/
theorem canonicalStep_congr {recurse other : Json → Finset Str → Json → Except SchemaError Json}
    {schema : Json}
    (same : ∀ next, Calls config routeId ⟨root, schema, references⟩ next →
      recurse next.root next.references next.schema =
        other next.root next.references next.schema) :
    canonicalStep config routeId recurse root references schema =
      canonicalStep config routeId other root references schema := by
  have inner : ∀ part, Inner schema part → recurse root references part =
      other root references part := fun part inner => same ⟨root, part, references⟩ (.inner inner)
  cases schema with
  | object fields =>
      rw [canonicalStep, canonicalStep]
      cases refers : referenceOf fields with
      | none =>
          have kept : ∀ field ∈ fields, dropsField field.1 = false →
              recurse root references field.2 = other root references field.2 :=
            fun field member kept => inner _ (.field refers member kept)
          simp only [keepField, mergeField_congr kept]
      | some reference =>
          have target : expandReference config routeId
              (fun resolved references => recurse resolved.root references resolved.target) root
              references reference = expandReference config routeId
              (fun resolved references => other resolved.root references resolved.target) root
              references reference :=
            expandReference_congr fun resolved found fresh => same _ (.follow refers found fresh)
          have kept : ∀ field ∈ fields, dropsSibling field.1 = false →
              recurse root references field.2 = other root references field.2 :=
            fun field member kept => inner _ (.sibling refers member kept)
          simp only [addSibling, mergeField_congr kept, target]
  | array items =>
      rw [canonicalStep, canonicalStep, Result.mapM_congr fun item member =>
        inner item (.item member)]
  | null => rfl
  | bool value => rfl
  | number value => rfl
  | string text => rfl

end Equation

/-! ### Termination -/

/-- `canonicalSchema` is the full form, where no reference is being followed. -/
theorem fullForm_eq_canonicalSchema (schema : Json) :
    fullForm config routeId schema ∅ schema =
      (canonicalSchema config schema routeId).mapError SchemaError.invalid := by
  have full : fullForm config routeId schema ∅ schema ≠ .error .exhausted :=
    fullForm_ne_exhausted schema ∅ schema
  rw [canonicalSchema, canonicalSchemaIn, canonicalSchemaWithRoot_eq]
  rw [fullForm] at full ⊢
  cases formed : canonicalForm config routeId (availableKeys config schema).length schema ∅
      schema with
  | ok value => rfl
  | error failure =>
      cases failure with
      | invalid message => rfl
      | exhausted => exact absurd formed full

/-- Beyond the depth that it allows for, `canonicalSchema` does not depend on it. -/
theorem canonicalSchema_eq {schema : Json} {depth : Nat}
    (deep : (availableKeys config schema).length ≤ depth) :
    canonicalSchemaWithRoot config routeId depth schema schema ∅ =
      ((canonicalSchema config schema routeId).mapError SchemaError.invalid).map (·, ∅) := by
  have returned : canonicalForm config routeId depth schema ∅ schema ≠ .error .exhausted := by
    refine canonicalForm_ne_exhausted_of_left ?_ schema
    rw [Finset.sdiff_empty]
    exact (List.toFinset_card_le _).trans deep
  rw [canonicalSchemaWithRoot_eq, canonicalForm_eq_fullForm returned, fullForm_eq_canonicalSchema]

/-- Canonicalisation terminates. No chain of recursive calls is infinite; from a schema on,
each call adds a reference within the keys of the schema and the components, or keeps the
references and goes into a smaller value. The bounded function is the solution of the
source's equation, which makes no other calls; beyond the depth it allows for it returns a
value or a message, and every call that succeeds gives its references back. -/
theorem canonicalSchema_terminates (config : OpenApiConfig) (routeId : Str) :
    (WellFounded fun next call => Calls config routeId call next) ∧
    (∀ schema call next,
      Relation.ReflTransGen (Calls config routeId) ⟨schema, schema, ∅⟩ call →
      Calls config routeId call next →
      call.references ⊂ next.references ∧
          next.references ⊆ (availableKeys config schema).toFinset ∨
        next.references = call.references ∧ sizeOf next.schema < sizeOf call.schema) ∧
    (∀ root references schema, fullForm config routeId root references schema =
      canonicalStep config routeId (fullForm config routeId) root references schema) ∧
    (∀ (recurse other : Json → Finset Str → Json → Except SchemaError Json) root references schema,
      (∀ next, Calls config routeId ⟨root, schema, references⟩ next →
        recurse next.root next.references next.schema =
          other next.root next.references next.schema) →
      canonicalStep config routeId recurse root references schema =
        canonicalStep config routeId other root references schema) ∧
    (∀ schema depth, (availableKeys config schema).length ≤ depth →
      canonicalSchemaWithRoot config routeId depth schema schema ∅ =
        ((canonicalSchema config schema routeId).mapError SchemaError.invalid).map (·, ∅)) ∧
    ∀ depth schema root references value after,
      canonicalSchemaWithRoot config routeId depth schema root references = .ok (value, after) →
      after = references := by
  refine ⟨calls_wellFounded, fun schema call next reached calls => calls.grows_or_shrinks reached,
    fullForm_eq, fun recurse other root references schema same => canonicalStep_congr same,
    fun schema depth deep => canonicalSchema_eq deep, ?_⟩
  intro depth schema root references value after returned
  rw [canonicalSchemaWithRoot_eq] at returned
  obtain ⟨form, -, same⟩ := Result.map_eq_ok.mp returned
  cases same
  rfl

end Terminates

attribute [local instance] FieldOrder.byInsertion

/-- A component that refers to itself. -/
def loopConfig : OpenApiConfig :=
  { OpenApiConfig.default with components := some [(lit "schemas", .object [(lit "Node", .object
    [(lit "$ref", .string (lit "#/components/schemas/Node"))])])] }

/-- A component that refers to itself is an error, however deep the recursion may go. -/
theorem canonicalSchema_terminates_loop :
    canonicalSchemaWithRoot loopConfig (lit "nodes") 100
        (.object [(lit "$ref", .string (lit "#/components/schemas/Node"))])
        (.object [(lit "$ref", .string (lit "#/components/schemas/Node"))]) ∅ =
      .error (.invalid (lit
        "route nodes has a cyclic OpenAPI schema reference #/components/schemas/Node")) :=
  ((canonicalSchema_terminates loopConfig (lit "nodes")).2.2.2.2.1 _ 100 (by decide +kernel)).trans
    (by decide +kernel)

end OpenApi
