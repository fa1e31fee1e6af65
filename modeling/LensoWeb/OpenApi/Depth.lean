import LensoWeb.Foundation.Refines
import LensoWeb.OpenApi.Form

/-!
# How deep references are followed

The bound of the model is never met: a path of references has no repeated keys, and
there are only so many keys. Allowing for more depth, or starting with fewer
references above, keeps every result. `canonicalSchema` is therefore the function
that the source computes, and its successes can be found at any depth.
-/

namespace OpenApi

open Foundation

variable [FieldOrder]

variable {config : OpenApiConfig} {routeId : Str}

/-! ### More depth, fewer references -/

section Monotone

variable {GivesUp : SchemaError → Prop} {depth deeper : Nat} {root other : Json}
  {references fewer : Finset Str}

theorem mergeField_refines {drops : Str → Bool} {finish : Str → Json → Json}
    {left right : Json → Except SchemaError Json} {fields : List (Str × Json)}
    (each : ∀ field ∈ fields, Refines GivesUp (left field.2) (right field.2))
    (normalized : List (Str × Json)) :
    Refines GivesUp (fields.foldlM (mergeField drops finish left) normalized)
      (fields.foldlM (mergeField drops finish right) normalized) := by
  induction fields generalizing normalized with
  | nil => exact .refl _
  | cons field rest ih =>
      rw [List.foldlM_cons, List.foldlM_cons]
      have later := ih fun other member => each other (List.mem_cons_of_mem _ member)
      refine .bind ?_ fun next _ => later next
      rw [mergeField, mergeField]
      split
      · exact .refl _
      · exact (each field List.mem_cons_self).map _

/-- Whatever refines the following of references refines the whole recursion. -/
theorem canonicalForm_refines
    (expands : ∀ reference,
      Refines GivesUp
        (expandReference config routeId (followAt config routeId depth) root references reference)
        (expandReference config routeId (followAt config routeId deeper) other fewer reference))
    (schema : Json) :
    Refines GivesUp (canonicalForm config routeId depth root references schema)
      (canonicalForm config routeId deeper other fewer schema) := by
  induction schema using Json.containerInduction with
  | scalar schema scalar =>
      rw [canonicalForm_scalar _ _ _ scalar, canonicalForm_scalar _ _ _ scalar]
      exact .refl _
  | array items ih =>
      rw [canonicalForm_array, canonicalForm_array]
      exact (Refines.mapM ih).map _
  | object fields ih =>
      cases refers : referenceOf fields with
      | none =>
          rw [canonicalForm_plain _ _ _ refers, canonicalForm_plain _ _ _ refers]
          exact (mergeField_refines ih []).map _
      | some reference =>
          rw [canonicalForm_reference _ _ _ refers, canonicalForm_reference _ _ _ refers]
          refine .bind (expands reference) fun target _ => ?_
          exact (mergeField_refines ih target).map _

/-- More depth keeps every result that is not the bound itself. -/
theorem canonicalForm_deeper (deep : depth ≤ deeper) (schema : Json) :
    Refines (· = .exhausted) (canonicalForm config routeId depth root references schema)
      (canonicalForm config routeId deeper root references schema) := by
  induction depth generalizing deeper root references schema with
  | zero =>
      apply canonicalForm_refines
      intro reference
      rw [expandReference, expandReference]
      refine .bind (.refl _) fun resolved _ => ?_
      split
      · exact .refl _
      · exact .inr ⟨.exhausted, rfl, rfl⟩
  | succ depth ih =>
      obtain ⟨deeper, rfl⟩ := Nat.exists_eq_add_of_le' (Nat.one_le_of_lt deep)
      apply canonicalForm_refines
      intro reference
      rw [expandReference, expandReference]
      refine .bind (.refl _) fun resolved _ => ?_
      split
      · exact .refl _
      · refine .bind ?_ fun _ _ => .refl _
        rw [followAt_succ, followAt_succ]
        exact ih (Nat.le_of_succ_le_succ deep) resolved.target

/-- With fewer references above, a success stays the same success. -/
theorem canonicalForm_fewer (subset : fewer ⊆ references) (schema : Json) :
    Refines (fun _ => True) (canonicalForm config routeId depth root references schema)
      (canonicalForm config routeId depth root fewer schema) := by
  induction depth generalizing root references fewer schema with
  | zero =>
      apply canonicalForm_refines
      intro reference
      rw [expandReference]
      cases resolveSchemaReference config reference root routeId with
      | error failure => exact .inr ⟨failure, trivial, rfl⟩
      | ok resolved =>
          refine .inr ?_
          by_cases cyclic : resolved.key ∈ references
          · exact ⟨_, trivial, if_pos cyclic⟩
          · exact ⟨.exhausted, trivial, if_neg cyclic⟩
  | succ depth ih =>
      apply canonicalForm_refines
      intro reference
      rw [expandReference, expandReference]
      refine .bind (.refl _) fun resolved _ => ?_
      by_cases cyclic : resolved.key ∈ references
      · rw [if_pos cyclic]
        exact .inr ⟨_, trivial, rfl⟩
      · rw [if_neg cyclic, if_neg fun inside => cyclic (subset inside)]
        refine .bind ?_ fun _ _ => .refl _
        rw [followAt_succ, followAt_succ]
        exact ih (Finset.insert_subset_insert _ subset) resolved.target

/-- Two roots with the same definitions. -/
def SameDefinitions (root other : Json) : Prop :=
  ∀ name, definition root name = definition other name

omit [FieldOrder] in
/-- A reference leads to the same schema under every root with the same definitions, if what
it leads to is read in the same way. -/
theorem expandReference_sameDefinitions {follow : Resolved → Finset Str → Except SchemaError Json}
    (same : SameDefinitions root other) (reference : Str)
    (alike : ∀ target key inserted, Refines (fun _ => False) (follow ⟨target, root, key⟩ inserted)
      (follow ⟨target, other, key⟩ inserted)) :
    Refines (fun _ => False) (expandReference config routeId follow root references reference)
      (expandReference config routeId follow other references reference) := by
  rw [expandReference, expandReference, resolveSchemaReference, resolveSchemaReference]
  cases Str.strip (lit "#/$defs/") reference with
  | none => exact .refl _
  | some name =>
      simp only [same name]
      cases definition other name with
      | none => exact .refl _
      | some target =>
          simp only [bind, Except.bind]
          split
          · exact .refl _
          · exact .bind (alike target _ _) fun _ _ => .refl _

/-- A schema is read in the same way under every root with the same definitions. -/
theorem canonicalForm_sameDefinitions (same : SameDefinitions root other) (schema : Json) :
    canonicalForm config routeId depth root references schema =
      canonicalForm config routeId depth other references schema := by
  have refines : Refines (fun _ => False)
      (canonicalForm config routeId depth root references schema)
      (canonicalForm config routeId depth other references schema) := by
    induction depth generalizing references schema with
    | zero =>
        apply canonicalForm_refines
        intro reference
        exact expandReference_sameDefinitions same reference fun _ _ _ => .refl _
    | succ depth ih =>
        apply canonicalForm_refines
        intro reference
        apply expandReference_sameDefinitions same reference
        intro target key inserted
        rw [followAt_succ, followAt_succ]
        exact ih target
  obtain equal | ⟨_, impossible, -⟩ := refines
  · exact equal
  · exact absurd impossible id

end Monotone

/-! ### The bound is not met -/

omit [FieldOrder] in
theorem local_ne_component (name other : Str) :
    lit "#/$defs/" ++ name ≠ lit "#/components/schemas/" ++ other := by
  intro same
  have third : some '$' = some 'c' := congrArg (fun text : Str => (text.drop 2).head?) same
  exact absurd third (by decide)

omit [FieldOrder] in
/-- What a reference can lead to. -/
theorem resolveSchemaReference_ok {reference : Str} {root : Json} {resolved : Resolved} :
    resolveSchemaReference config reference root routeId = .ok resolved ↔
      (∃ name, reference = lit "#/$defs/" ++ name ∧
        definition root name = some resolved.target ∧ resolved.root = root ∧
        resolved.key = lit "local:" ++ reference) ∨
      ∃ name, reference = lit "#/components/schemas/" ++ name ∧ name ≠ [] ∧ '/' ∉ name ∧
        config.component (lit "schemas") name = some resolved.target ∧
        resolved.root = resolved.target ∧ resolved.key = lit "component:" ++ reference := by
  obtain ⟨target, targetRoot, key⟩ := resolved
  rw [resolveSchemaReference]
  cases isLocal : Str.strip (lit "#/$defs/") reference with
  | some name =>
      obtain rfl := Str.strip_eq_some_iff.mp isLocal
      constructor
      · intro found
        cases defined : definition root name with
        | none =>
            simp only [defined] at found
            cases found
        | some target =>
            simp only [defined] at found
            cases found
            exact .inl ⟨name, rfl, defined, rfl, rfl⟩
      · rintro (⟨other, same, defined, rfl, rfl⟩ | ⟨other, same, -⟩)
        · rw [List.append_cancel_left same]
          simp only [defined]
        · exact absurd same (local_ne_component name other)
  | none =>
      have notLocal : ∀ name, reference ≠ lit "#/$defs/" ++ name := by
        intro name same
        rw [Str.strip_eq_some_iff.mpr same] at isLocal
        cases isLocal
      cases isComponent : Str.strip (lit "#/components/schemas/") reference with
      | none =>
          constructor
          · intro impossible
            cases impossible
          · rintro (⟨name, same, -⟩ | ⟨name, same, -⟩)
            · exact absurd same (notLocal name)
            · rw [Str.strip_eq_some_iff.mpr same] at isComponent
              cases isComponent
      | some name =>
          obtain rfl := Str.strip_eq_some_iff.mp isComponent
          constructor
          · intro found
            simp only at found
            split at found
            · cases found
            · next valid =>
              rw [Bool.or_eq_true, not_or, List.isEmpty_iff, List.contains_iff_mem] at valid
              split at found
              · next defined =>
                cases found
                exact .inr ⟨name, rfl, valid.1, valid.2, defined, rfl, rfl⟩
              · cases found
          · rintro (⟨other, same, -⟩ | ⟨other, same, nonempty, flat, defined, atRoot, atKey⟩)
            · exact absurd same (notLocal other)
            · obtain rfl := List.append_cancel_left same
              obtain rfl : targetRoot = target := atRoot
              obtain rfl : key = _ := atKey
              simp [nonempty, flat, defined]

omit [FieldOrder] in
private theorem resolve_ne_exhausted (reference : Str) (root : Json) :
    resolveSchemaReference config reference root routeId ≠ .error .exhausted := by
  rw [resolveSchemaReference]
  split
  · split <;>
      · intro impossible
        cases impossible
  · split
    · intro impossible
      cases impossible
    · split
      · intro impossible
        cases impossible
      · split <;>
          · intro impossible
            cases impossible

/-- A set of keys that holds every reference a root defines. -/
def CoversRoot (keys : Finset Str) (root : Json) : Prop :=
  ∀ name target, definition root name = some target → lit "local:#/$defs/" ++ name ∈ keys

/-- A set of keys that holds every reference to a component, and every reference
that a component defines. -/
def CoversComponents (config : OpenApiConfig) (keys : Finset Str) : Prop :=
  ∀ name target, config.component (lit "schemas") name = some target →
    lit "component:#/components/schemas/" ++ name ∈ keys ∧ CoversRoot keys target

/-- The bound is met only where following a reference meets it. -/
private theorem canonicalForm_ne_exhausted_of_expand {depth : Nat} {root : Json}
    {references : Finset Str}
    (expands : ∀ reference, expandReference config routeId (followAt config routeId depth) root
      references reference ≠ .error .exhausted) (schema : Json) :
    canonicalForm config routeId depth root references schema ≠ .error .exhausted := by
  have fields : ∀ {drops finish} {fields : List (Str × Json)} normalized,
      (∀ field ∈ fields, canonicalForm config routeId depth root references field.2 ≠
        .error .exhausted) →
      fields.foldlM (mergeField drops finish (canonicalForm config routeId depth root references))
        normalized ≠ .error .exhausted := by
    intro drops finish fields normalized each
    refine Result.foldlM_ne_error (fun field member state => ?_) normalized
    rw [mergeField]
    split
    · intro impossible
      cases impossible
    · exact Result.map_ne_error (each field member)
  induction schema using Json.containerInduction with
  | scalar schema scalar =>
      rw [canonicalForm_scalar _ _ _ scalar]
      intro impossible
      cases impossible
  | array items ih =>
      rw [canonicalForm_array]
      exact Result.map_ne_error (Result.mapM_ne_error ih)
  | object entries ih =>
      cases refers : referenceOf entries with
      | none =>
          rw [canonicalForm_plain _ _ _ refers]
          exact Result.map_ne_error (fields [] ih)
      | some reference =>
          rw [canonicalForm_reference _ _ _ refers]
          exact Result.bind_ne_error (expands reference) fun target _ =>
            Result.map_ne_error (fields target ih)

omit [FieldOrder] in
/-- Resolving never meets the bound, and what it finds is covered. -/
theorem resolved_covered {keys : Finset Str} {root : Json} {reference : Str}
    {resolved : Resolved} (components : CoversComponents config keys)
    (covered : CoversRoot keys root)
    (found : resolveSchemaReference config reference root routeId = .ok resolved) :
    resolved.key ∈ keys ∧ CoversRoot keys resolved.root := by
  obtain ⟨name, rfl, defined, atRoot, atKey⟩ | ⟨name, rfl, -, -, defined, atRoot, atKey⟩ :=
    resolveSchemaReference_ok.mp found
  · rw [atKey, atRoot]
    exact ⟨covered name _ defined, covered⟩
  · rw [atKey, atRoot]
    exact components name _ defined

/-- Each reference that is followed takes one of the keys that are left. -/
theorem canonicalForm_ne_exhausted {keys references : Finset Str} {depth : Nat} {root : Json}
    (components : CoversComponents config keys) (covered : CoversRoot keys root)
    (subset : references ⊆ keys) (enough : keys.card ≤ depth + references.card) (schema : Json) :
    canonicalForm config routeId depth root references schema ≠ .error .exhausted := by
  induction depth generalizing root references schema with
  | zero =>
      apply canonicalForm_ne_exhausted_of_expand
      intro reference
      have all : references = keys := Finset.eq_of_subset_of_card_le subset (by omega)
      refine Result.bind_ne_error (resolve_ne_exhausted reference root) fun resolved found => ?_
      rw [if_pos (all ▸ (resolved_covered components covered found).1)]
      intro impossible
      cases impossible
  | succ depth ih =>
      apply canonicalForm_ne_exhausted_of_expand
      intro reference
      refine Result.bind_ne_error (resolve_ne_exhausted reference root) fun resolved found => ?_
      obtain ⟨known, next⟩ := resolved_covered components covered found
      split
      · intro impossible
        cases impossible
      · next fresh =>
        refine Result.bind_ne_error ?_ fun value _ => ?_
        · rw [followAt_succ]
          refine ih next (Finset.insert_subset known subset) ?_ resolved.target
          rw [Finset.card_insert_of_notMem fresh]
          omega
        · split
          · intro impossible
            cases impossible
          · intro impossible
            cases impossible

/-! ### The canonical schema -/

omit [FieldOrder] in
private theorem coversRoot_definitionKeys {keys : Finset Str} {root : Json}
    (listed : ∀ key ∈ definitionKeys root, key ∈ keys) : CoversRoot keys root := by
  intro name target defined
  apply listed
  rw [definition, Option.bind_eq_some_iff] at defined
  obtain ⟨table, there, found⟩ := defined
  rw [definitionKeys, there]
  exact List.mem_map.mpr ⟨_, Assoc.mem_of_find found, rfl⟩

omit [FieldOrder] in
theorem coversRoot_availableKeys (root : Json) :
    CoversRoot (availableKeys config root).toFinset root := by
  apply coversRoot_definitionKeys
  intro key member
  exact List.mem_toFinset.mpr (List.mem_append_left _ member)

omit [FieldOrder] in
theorem coversComponents_availableKeys (root : Json) :
    CoversComponents config (availableKeys config root).toFinset := by
  intro name target defined
  rw [OpenApiConfig.component, Option.bind_eq_some_iff] at defined
  obtain ⟨table, there, found⟩ := defined
  have listed : (name, target) ∈ componentSchemas config := by
    rw [componentSchemas, there]
    exact Assoc.mem_of_find found
  have available : ∀ key ∈ (lit "component:#/components/schemas/" ++ name) ::
      definitionKeys target, key ∈ (availableKeys config root).toFinset := by
    intro key member
    refine List.mem_toFinset.mpr (List.mem_append_right _ ?_)
    exact List.mem_flatMap.mpr ⟨_, listed, member⟩
  exact ⟨available _ List.mem_cons_self, coversRoot_definitionKeys fun key member =>
    available key (List.mem_cons_of_mem _ member)⟩

/-- The depth that `canonicalSchemaIn` allows for is enough. -/
theorem canonicalForm_availableKeys (root schema : Json) :
    canonicalForm config routeId (availableKeys config root).length root ∅ schema ≠
      .error .exhausted := by
  refine canonicalForm_ne_exhausted (coversComponents_availableKeys root)
    (coversRoot_availableKeys root) (Finset.empty_subset _) ?_ schema
  exact (List.toFinset_card_le _).trans (Nat.le_add_right _ _)

/-- A canonical schema is a canonical form at any depth that is large enough. -/
theorem canonicalSchemaIn_ok {root schema result : Json} :
    canonicalSchemaIn config root schema routeId = .ok result ↔
      ∃ depth, canonicalForm config routeId depth root ∅ schema = .ok result := by
  have bounded : canonicalForm config routeId (availableKeys config root).length root ∅ schema ≠
      .error .exhausted := canonicalForm_availableKeys root schema
  have unfolded : canonicalSchemaIn config root schema routeId = .ok result ↔
      canonicalForm config routeId (availableKeys config root).length root ∅ schema =
        .ok result := by
    rw [canonicalSchemaIn, canonicalSchemaWithRoot_eq]
    cases formed : canonicalForm config routeId (availableKeys config root).length root ∅ schema with
    | ok value => simp [Except.map]
    | error failure => cases failure <;> simp [Except.map]
  rw [unfolded]
  constructor
  · exact fun formed => ⟨_, formed⟩
  · rintro ⟨depth, formed⟩
    obtain shallow | deep := le_total depth (availableKeys config root).length
    · exact (canonicalForm_deeper shallow schema).ok formed
    · have deeper : Refines (· = .exhausted)
          (canonicalForm config routeId (availableKeys config root).length root ∅ schema)
          (canonicalForm config routeId depth root ∅ schema) := canonicalForm_deeper deep schema
      obtain same | ⟨failure, rfl, exhausted⟩ := deeper
      · rw [same, formed]
      · exact absurd exhausted bounded

theorem canonicalSchema_ok {schema result : Json} :
    canonicalSchema config schema routeId = .ok result ↔
      ∃ depth, canonicalForm config routeId depth schema ∅ schema = .ok result :=
  canonicalSchemaIn_ok

/-! ### Forms are values -/

theorem arranged_sortJsonArray {value : Json} (arranged : value.Arranged) :
    (sortJsonArray value).Arranged := by
  cases value with
  | array items =>
      cases arranged with
      | scalar scalar => cases scalar
      | array each =>
          exact .array fun item member => each item ((List.mem_insertionSort _).mp member)
  | null => exact arranged
  | bool value => exact arranged
  | number value => exact arranged
  | string text => exact arranged
  | object fields => exact arranged

theorem arranged_arrange {value : Json} (arranged : value.Arranged) (key : Str) :
    (arrange key value).Arranged := by
  rw [arrange]
  split
  · exact arranged_sortJsonArray arranged
  · exact arranged

/-- All objects of a form are maps, if they are in the forms of what references lead to. -/
theorem arranged_of_followAt {depth : Nat} {root : Json} {references : Finset Str}
    (followed : ∀ resolved references form,
      followAt config routeId depth resolved references = .ok form → form.Arranged)
    {schema form : Json}
    (formed : canonicalForm config routeId depth root references schema = .ok form) :
    form.Arranged := by
  induction schema using Json.containerInduction generalizing form with
  | scalar schema scalar =>
      rw [canonicalForm_scalar _ _ _ scalar] at formed
      cases formed
      exact .scalar scalar
  | array items ih =>
      obtain ⟨forms, all, rfl⟩ := canonicalForm_array_ok.mp formed
      refine .array fun form member => ?_
      obtain ⟨item, inside, formed⟩ := Result.exists_of_forall₂_left all.flip member
      exact ih item inside formed
  | object fields ih =>
      cases refers : referenceOf fields with
      | none =>
          obtain ⟨entries, all, rfl⟩ := (canonicalForm_plain_ok refers).mp formed
          refine .object (ObjectMap.arranged_nil.insertAll entries) fun entry member => ?_
          obtain impossible | inside := ObjectMap.mem_of_mem_insertAll member
          · cases impossible
          · obtain ⟨field, inFields, -, form, formed, rfl⟩ := exists_field_of_entry all inside
            exact arranged_arrange (ih field inFields formed) field.1
      | some reference =>
          obtain ⟨resolved, target, entries, -, -, reached, all, rfl⟩ :=
            (canonicalForm_reference_ok refers).mp formed
          cases followed _ _ _ reached with
          | scalar scalar => cases scalar
          | object arranged each =>
              refine .object (arranged.insertAll entries) fun entry member => ?_
              obtain earlier | inside := ObjectMap.mem_of_mem_insertAll member
              · exact each entry earlier
              · obtain ⟨field, inFields, -, form, formed, rfl⟩ := exists_field_of_entry all inside
                exact ih field inFields formed

theorem arranged_of_canonicalForm {depth : Nat} {root schema form : Json}
    {references : Finset Str}
    (formed : canonicalForm config routeId depth root references schema = .ok form) :
    form.Arranged := by
  induction depth generalizing root schema form references with
  | zero =>
      refine arranged_of_followAt (fun resolved references form followed => ?_) formed
      cases followed
  | succ depth ih =>
      refine arranged_of_followAt (fun resolved references form followed => ?_) formed
      rw [followAt_succ] at followed
      exact ih followed

/-- A canonical schema is equal to itself. -/
theorem equal_self_of_canonicalSchema {schema form : Json}
    (formed : canonicalSchema config schema routeId = .ok form) : form.equal form = true := by
  obtain ⟨depth, formed⟩ := canonicalSchema_ok.mp formed
  exact (arranged_of_canonicalForm formed).equal_self

end OpenApi
