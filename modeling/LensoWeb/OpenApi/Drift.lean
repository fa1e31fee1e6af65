import LensoWeb.OpenApi.Contract.Accepted

/-!
# What strict contracts see of a changed property

A property of a schema is reached through the tables under `properties` and the
schemas under `items`. The canonical form of a schema has the canonical form of
every part that is reached in this way, except below a property whose name is
dropped: the recursion does not tell the names of properties from keywords.
-/

namespace OpenApi

open Foundation

/-! ### Places in a schema -/

/-- A schema is an object or a Boolean. -/
def isSchema : Json → Bool
  | .object _ => true
  | .bool _ => true
  | _ => false

/-- An object that lacks the value of one of its keys. -/
structure Slot (key : Str) where
  before : List (Str × Json)
  after : List (Str × Json)
  distinct : (before.map Prod.fst ++ key :: after.map Prod.fst).Nodup

namespace Slot

variable {key : Str}

def fill (slot : Slot key) (value : Json) : List (Str × Json) :=
  slot.before ++ (key, value) :: slot.after

theorem nodup_fill (slot : Slot key) (value : Json) : ((slot.fill value).map Prod.fst).Nodup := by
  simpa [fill] using slot.distinct

theorem mem_fill (slot : Slot key) (value : Json) : (key, value) ∈ slot.fill value :=
  List.mem_append_right _ List.mem_cons_self

/-- Other keys do not see the value. -/
theorem find_fill (slot : Slot key) {name : Str} (other : name ≠ key) (left right : Json) :
    Assoc.find name (slot.fill left) = Assoc.find name (slot.fill right) := by
  rw [fill, fill]
  induction slot.before with
  | nil =>
      rw [List.nil_append, List.nil_append, Assoc.find_cons, Assoc.find_cons]
      rw [if_neg (Ne.symm other), if_neg (Ne.symm other)]
  | cons entry rest ih =>
      rw [List.cons_append, List.cons_append, Assoc.find_cons, Assoc.find_cons, ih]

theorem referenceOf_fill (slot : Slot key) (other : lit "$ref" ≠ key) (left right : Json) :
    referenceOf (slot.fill left) = referenceOf (slot.fill right) := by
  rw [referenceOf, referenceOf, slot.find_fill other left right]

end Slot

/-- One step of a path into a schema: into a property, or into the items. -/
inductive Frame where
  | property (name : Str) (outer : Slot (lit "properties")) (inner : Slot name)
      (schemas : ∀ entry ∈ inner.before ++ inner.after, isSchema entry.2 = true)
  | items (outer : Slot (lit "items"))

namespace Frame

/-- The schema around a schema. -/
def fill : Frame → Json → Json
  | property _ outer inner _, hole => .object (outer.fill (.object (inner.fill hole)))
  | items outer, hole => .object (outer.fill hole)

/-- Whether the canonical form keeps what the frame leads to. -/
def keeps : Frame → Bool
  | property name _ _ _ => !dropsField name
  | items _ => true

end Frame

/-- The schema around the hole of a path. -/
def fill (frames : List Frame) (hole : Json) : Json := frames.foldr Frame.fill hole

theorem isSchema_fill (frames : List Frame) {hole : Json} (schema : isSchema hole = true) :
    isSchema (fill frames hole) = true := by
  cases frames with
  | nil => exact schema
  | cons frame rest =>
      cases frame with
      | property name outer inner schemas => rfl
      | items outer => rfl

/-- A table of property schemas is not a reference, whatever the properties are called. -/
theorem referenceOf_properties {name : Str} (inner : Slot name)
    (schemas : ∀ entry ∈ inner.before ++ inner.after, isSchema entry.2 = true) {hole : Json}
    (schema : isSchema hole = true) : referenceOf (inner.fill hole) = none := by
  rw [referenceOf, Option.bind_eq_none_iff]
  intro value found
  have isValue : isSchema value = true := by
    have member := Assoc.mem_of_find found
    rw [Slot.fill, List.mem_append, List.mem_cons] at member
    obtain earlier | same | later := member
    · exact schemas _ (List.mem_append_left _ earlier)
    · cases same
      exact schema
    · exact schemas _ (List.mem_append_right _ later)
  cases value with
  | object fields => rfl
  | bool value => rfl
  | null => cases isValue
  | number value => cases isValue
  | string text => cases isValue
  | array items => cases isValue

section Sees

variable [FieldOrder]

/-! ### What is kept can be looked up -/

section Lookup

variable {config : OpenApiConfig} {routeId : Str} {depth : Nat} {root : Json}
  {references : Finset Str} {result : Json}

omit [FieldOrder] in
theorem becomesEntry_keys {finish : Str → Json → Json} {form : Json → Except SchemaError Json}
    {fields entries : List (Str × Json)}
    (all : List.Forall₂ (BecomesEntry finish form) fields entries) :
    entries.map Prod.fst = fields.map Prod.fst := by
  refine Result.map_eq_of_forall₂ ?_ all
  rintro field entry ⟨value, -, rfl⟩
  rfl

/-- A field that is not dropped can be looked up in what the loop collects. -/
theorem find_becomesEntry {drops : Str → Bool} {finish : Str → Json → Json}
    {form : Json → Except SchemaError Json} {fields entries normalized : List (Str × Json)}
    (all : List.Forall₂ (BecomesEntry finish form) (fields.filter (!drops ·.1)) entries)
    (distinct : (fields.map Prod.fst).Nodup) {key : Str} {value : Json}
    (member : (key, value) ∈ fields) (kept : drops key = false) :
    ∃ formed, form value = .ok formed ∧
      Assoc.find key (ObjectMap.insertAll normalized entries) = some (finish key formed) := by
  have listed : (key, value) ∈ fields.filter (!drops ·.1) := by
    rw [List.mem_filter]
    exact ⟨member, by simp [kept]⟩
  obtain ⟨entry, there, formed, made, rfl⟩ := Result.exists_of_forall₂_left all listed
  have keys : (entries.map Prod.fst).Nodup := by
    rw [becomesEntry_keys all]
    exact distinct.sublist (List.filter_sublist.map Prod.fst)
  refine ⟨formed, made, ?_⟩
  rw [ObjectMap.find_insertAll keys, Assoc.find_of_mem keys there, Option.some_or]

/-- A field of an object without a reference. -/
theorem canonicalForm_find_plain {fields : List (Str × Json)}
    (plain : referenceOf fields = none)
    (formed : canonicalForm config routeId depth root references (.object fields) = .ok result)
    (distinct : (fields.map Prod.fst).Nodup) {key : Str} {value : Json}
    (member : (key, value) ∈ fields) (kept : dropsField key = false) :
    ∃ entries form, result = .object entries ∧
      canonicalForm config routeId depth root references value = .ok form ∧
      Assoc.find key entries = some (arrange key form) := by
  obtain ⟨entries, all, rfl⟩ := (canonicalForm_plain_ok plain).mp formed
  obtain ⟨form, made, found⟩ := find_becomesEntry all distinct member kept
  exact ⟨_, form, rfl, made, found⟩

/-- A field that both loops keep as it is. -/
theorem canonicalForm_find {fields : List (Str × Json)}
    (formed : canonicalForm config routeId depth root references (.object fields) = .ok result)
    (distinct : (fields.map Prod.fst).Nodup) {key : Str} {value : Json}
    (member : (key, value) ∈ fields) (kept : dropsField key = false)
    (sibling : dropsSibling key = false) (ordered : isUnordered key = false) :
    ∃ entries form, result = .object entries ∧
      canonicalForm config routeId depth root references value = .ok form ∧
      Assoc.find key entries = some form := by
  cases refers : referenceOf fields with
  | none =>
      obtain ⟨entries, form, rfl, made, found⟩ :=
        canonicalForm_find_plain refers formed distinct member kept
      rw [arrange, ordered, if_neg Bool.false_ne_true] at found
      exact ⟨entries, form, rfl, made, found⟩
  | some reference =>
      obtain ⟨resolved, target, entries, -, -, -, all, rfl⟩ :=
        (canonicalForm_reference_ok refers).mp formed
      obtain ⟨form, made, found⟩ := find_becomesEntry all distinct member sibling
      exact ⟨_, form, rfl, made, found⟩

/-- The form of a schema is a schema, so sorting leaves it alone. -/
theorem arrange_form {schema form : Json} (isSchema : isSchema schema = true)
    (formed : canonicalForm config routeId depth root references schema = .ok form) (key : Str) :
    arrange key form = form := by
  have notArray : sortJsonArray form = form := by
    cases schema with
    | object fields =>
        cases refers : referenceOf fields with
        | none =>
            obtain ⟨entries, -, rfl⟩ := (canonicalForm_plain_ok refers).mp formed
            rfl
        | some reference =>
            obtain ⟨resolved, target, entries, -, -, -, -, rfl⟩ :=
              (canonicalForm_reference_ok refers).mp formed
            rfl
    | bool value =>
        rw [canonicalForm_scalar _ _ _ rfl] at formed
        cases formed
        rfl
    | null => cases isSchema
    | number value => cases isSchema
    | string text => cases isSchema
    | array items => cases isSchema
  rw [arrange, notArray, ite_self]

end Lookup

/-! ### Equal forms have equal parts -/

section Parts

variable {config : OpenApiConfig} {routeId : Str} {depth deeper : Nat} {root other : Json}
  {references : Finset Str} {resultLeft resultRight : Json}

theorem forms_of_slot {key : Str} (slot : Slot key) {left right : Json}
    (kept : dropsField key = false) (sibling : dropsSibling key = false)
    (ordered : isUnordered key = false)
    (formedLeft : canonicalForm config routeId depth root references (.object (slot.fill left)) =
      .ok resultLeft)
    (formedRight : canonicalForm config routeId deeper other references
      (.object (slot.fill right)) = .ok resultRight)
    (equal : resultLeft.equal resultRight = true) :
    ∃ formLeft formRight, canonicalForm config routeId depth root references left = .ok formLeft ∧
      canonicalForm config routeId deeper other references right = .ok formRight ∧
      formLeft.equal formRight = true := by
  obtain ⟨entries, formLeft, rfl, madeLeft, foundLeft⟩ := canonicalForm_find formedLeft
    (slot.nodup_fill left) (slot.mem_fill left) kept sibling ordered
  obtain ⟨others, formRight, rfl, madeRight, foundRight⟩ := canonicalForm_find formedRight
    (slot.nodup_fill right) (slot.mem_fill right) kept sibling ordered
  exact ⟨formLeft, formRight, madeLeft, madeRight,
    Json.equal_of_find equal foundLeft foundRight⟩

theorem forms_of_property {name : Str} (inner : Slot name)
    (schemas : ∀ entry ∈ inner.before ++ inner.after, isSchema entry.2 = true) {left right : Json}
    (isLeft : isSchema left = true) (isRight : isSchema right = true)
    (kept : dropsField name = false)
    (formedLeft : canonicalForm config routeId depth root references (.object (inner.fill left)) =
      .ok resultLeft)
    (formedRight : canonicalForm config routeId deeper other references
      (.object (inner.fill right)) = .ok resultRight)
    (equal : resultLeft.equal resultRight = true) :
    ∃ formLeft formRight, canonicalForm config routeId depth root references left = .ok formLeft ∧
      canonicalForm config routeId deeper other references right = .ok formRight ∧
      formLeft.equal formRight = true := by
  obtain ⟨entries, formLeft, rfl, madeLeft, foundLeft⟩ := canonicalForm_find_plain
    (referenceOf_properties inner schemas isLeft) formedLeft (inner.nodup_fill left)
    (inner.mem_fill left) kept
  obtain ⟨others, formRight, rfl, madeRight, foundRight⟩ := canonicalForm_find_plain
    (referenceOf_properties inner schemas isRight) formedRight (inner.nodup_fill right)
    (inner.mem_fill right) kept
  rw [arrange_form isLeft madeLeft] at foundLeft
  rw [arrange_form isRight madeRight] at foundRight
  exact ⟨formLeft, formRight, madeLeft, madeRight,
    Json.equal_of_find equal foundLeft foundRight⟩

/-- Along a path that is kept, equal forms come from equal forms. -/
theorem forms_of_fill {frames : List Frame} (kept : ∀ frame ∈ frames, frame.keeps = true)
    {left right : Json} (isLeft : isSchema left = true) (isRight : isSchema right = true)
    (formedLeft : canonicalForm config routeId depth root references (fill frames left) =
      .ok resultLeft)
    (formedRight : canonicalForm config routeId deeper other references (fill frames right) =
      .ok resultRight)
    (equal : resultLeft.equal resultRight = true) :
    ∃ formLeft formRight, canonicalForm config routeId depth root references left = .ok formLeft ∧
      canonicalForm config routeId deeper other references right = .ok formRight ∧
      formLeft.equal formRight = true := by
  induction frames generalizing resultLeft resultRight with
  | nil => exact ⟨resultLeft, resultRight, formedLeft, formedRight, equal⟩
  | cons frame rest ih =>
      have keeps := kept frame List.mem_cons_self
      have later : ∀ frame ∈ rest, frame.keeps = true :=
        fun other member => kept other (List.mem_cons_of_mem _ member)
      cases frame with
      | items outer =>
          obtain ⟨_, _, madeLeft, madeRight, equal⟩ :=
            forms_of_slot outer rfl rfl rfl formedLeft formedRight equal
          exact ih later madeLeft madeRight equal
      | property name outer inner schemas =>
          obtain ⟨_, _, tableLeft, tableRight, equal⟩ :=
            forms_of_slot outer rfl rfl rfl formedLeft formedRight equal
          obtain ⟨_, _, madeLeft, madeRight, equal⟩ := forms_of_property inner schemas
            (isSchema_fill rest isLeft) (isSchema_fill rest isRight)
            (by simpa [Frame.keeps] using keeps) tableLeft tableRight equal
          exact ih later madeLeft madeRight equal

end Parts

/-! ### What is dropped is not seen -/

section Dropped

variable {config : OpenApiConfig} {routeId : Str} {depth : Nat} {root : Json}
  {references : Finset Str}

theorem mergeField_slot {key : Str} (slot : Slot key) {left right : Json} {drops : Str → Bool}
    {finish : Str → Json → Json} {form : Json → Except SchemaError Json}
    (unseen : drops key = true ∨ form left = form right) (normalized : List (Str × Json)) :
    (slot.fill left).foldlM (mergeField drops finish form) normalized =
      (slot.fill right).foldlM (mergeField drops finish form) normalized := by
  have round : ∀ state, mergeField drops finish form state (key, left) =
      mergeField drops finish form state (key, right) := by
    intro state
    rw [mergeField, mergeField]
    obtain dropped | same := unseen
    · rw [if_pos dropped, if_pos dropped]
    · rw [same]
  rw [Slot.fill, Slot.fill, List.foldlM_append, List.foldlM_append]
  simp only [List.foldlM_cons, round]

/-- A form depends on a field through the form of its value. -/
theorem canonicalForm_slot {key : Str} (slot : Slot key) {left right : Json}
    (other : lit "$ref" ≠ key)
    (same : canonicalForm config routeId depth root references left =
      canonicalForm config routeId depth root references right) :
    canonicalForm config routeId depth root references (.object (slot.fill left)) =
      canonicalForm config routeId depth root references (.object (slot.fill right)) := by
  have agree := slot.referenceOf_fill other left right
  cases refers : referenceOf (slot.fill right) with
  | none =>
      rw [canonicalForm_plain _ _ _ (agree.trans refers), canonicalForm_plain _ _ _ refers]
      rw [keepField, mergeField_slot slot (.inr same)]
  | some reference =>
      rw [canonicalForm_reference _ _ _ (agree.trans refers), canonicalForm_reference _ _ _ refers]
      simp only [addSibling, mergeField_slot slot (.inr same)]

/-- A property whose name is dropped is not seen. -/
theorem canonicalForm_property {name : Str} (inner : Slot name)
    (schemas : ∀ entry ∈ inner.before ++ inner.after, isSchema entry.2 = true) {left right : Json}
    (isLeft : isSchema left = true) (isRight : isSchema right = true)
    (unseen : dropsField name = true ∨ canonicalForm config routeId depth root references left =
      canonicalForm config routeId depth root references right) :
    canonicalForm config routeId depth root references (.object (inner.fill left)) =
      canonicalForm config routeId depth root references (.object (inner.fill right)) := by
  rw [canonicalForm_plain _ _ _ (referenceOf_properties inner schemas isLeft),
    canonicalForm_plain _ _ _ (referenceOf_properties inner schemas isRight), keepField,
    mergeField_slot inner unseen]

theorem canonicalForm_fill {frames : List Frame} {left right : Json}
    (isLeft : isSchema left = true) (isRight : isSchema right = true)
    (dropped : ∃ frame ∈ frames, frame.keeps = false) :
    canonicalForm config routeId depth root references (fill frames left) =
      canonicalForm config routeId depth root references (fill frames right) := by
  induction frames with
  | nil =>
      obtain ⟨frame, member, -⟩ := dropped
      cases member
  | cons frame rest ih =>
      have inside : frame.keeps = true → canonicalForm config routeId depth root references
          (fill rest left) = canonicalForm config routeId depth root references
          (fill rest right) := by
        intro keeps
        obtain ⟨found, member, drops⟩ := dropped
        obtain rfl | later := List.mem_cons.mp member
        · rw [keeps] at drops
          cases drops
        · exact ih ⟨found, later, drops⟩
      cases frame with
      | items outer => exact canonicalForm_slot outer (by decide) (inside rfl)
      | property name outer inner schemas =>
          refine canonicalForm_slot outer (by decide) (canonicalForm_property inner schemas
            (isSchema_fill rest isLeft) (isSchema_fill rest isRight) ?_)
          cases drops : dropsField name with
          | true => exact .inl rfl
          | false => exact .inr (inside (by simp [Frame.keeps, drops]))

omit [FieldOrder] in
theorem sameDefinitions_fill {frames : List Frame} (nonempty : frames ≠ []) (left right : Json) :
    SameDefinitions (fill frames left) (fill frames right) := by
  intro name
  cases frames with
  | nil => exact absurd rfl nonempty
  | cons frame rest =>
      cases frame with
      | items outer =>
          have table := outer.find_fill (by decide : lit "$defs" ≠ lit "items")
            (fill rest left) (fill rest right)
          exact congrArg (fun value => (value.bind Json.asObject).bind (Assoc.find name)) table
      | property key outer inner schemas =>
          have table := outer.find_fill (by decide : lit "$defs" ≠ lit "properties")
            (.object (inner.fill (fill rest left))) (.object (inner.fill (fill rest right)))
          exact congrArg (fun value => (value.bind Json.asObject).bind (Assoc.find name)) table

end Dropped

/-! ### Drift of an operation -/

/-- Where an operation declares a schema. -/
inductive Spot where
  | body
  | response (status : Str)
  | parameter (location name : Str)

/-- A schema that stands under a media type. -/
def SchemaUnder (object : List (Str × Json)) (mediaType : Str) (schema : Json) : Prop :=
  ∃ content media, Assoc.find (lit "content") object = some (.object content) ∧
    Assoc.find mediaType content = some (.object media) ∧
    Assoc.find (lit "schema") media = some schema

/-- The schema that an operation has at a spot, after resolution. -/
def Declares (config : OpenApiConfig) (routeId : Str) (operation : List (Str × Json)) :
    Spot → Json → Prop
  | .body, schema => ∃ value object,
      Assoc.find (lit "requestBody") operation = some value ∧
      Contract.resolveComponent config value (lit "requestBodies") routeId =
        .ok (.object object) ∧
      SchemaUnder object (lit "application/json") schema
  | .response status, schema => ∃ fields value object,
      Assoc.find (lit "responses") operation = some (.object fields) ∧
      (fields.map Prod.fst).Nodup ∧ Assoc.find status fields = some value ∧
      Contract.resolveComponent config value (lit "responses") routeId = .ok (.object object) ∧
      SchemaUnder object (Contract.responseMediaType status) schema
  | .parameter location name, schema => ∃ values, ∃ value ∈ values, ∃ object,
      Assoc.find (lit "parameters") operation = some (.array values) ∧
      Contract.resolveComponent config value (lit "parameters") routeId = .ok (.object object) ∧
      Assoc.find (lit "in") object = some (.string location) ∧
      (location = lit "path" ∨ location = lit "query") ∧
      Assoc.find (lit "name") object = some (.string name) ∧
      Assoc.find (lit "schema") object = some schema

namespace Contract

variable {config : OpenApiConfig} {routeId origin : Str}

omit [FieldOrder] in
theorem HasMediaSchema.eq {object : List (Str × Json)} {mediaType : Str} {schema other : Json}
    (read : HasMediaSchema object mediaType schema) (under : SchemaUnder object mediaType other) :
    schema = other := by
  obtain ⟨content, media, found, -, inner, there⟩ := read
  obtain ⟨content', media', found', inner', there'⟩ := under
  cases found.symm.trans found'
  cases inner.symm.trans inner'
  exact Option.some.inj (there.symm.trans there')

/-- The form of a declared body is in what is read. -/
theorem ReadsBody.declares {operation : List (Str × Json)} {body : Option RequestBody}
    {schema : Json} (read : ReadsBody config routeId operation body)
    (declared : Declares config routeId operation .body schema) :
    ∃ form, canonicalSchema config schema routeId = .ok form ∧
      body.map RequestBody.schema = some form := by
  obtain ⟨value, object, found, resolved, under⟩ := declared
  cases body with
  | none => cases read.symm.trans found
  | some body =>
      obtain ⟨value', schema', found', ⟨object', resolved', -, carried⟩, formed⟩ := read
      cases found.symm.trans found'
      cases resolved.symm.trans resolved'
      cases carried.eq under
      exact ⟨_, formed, rfl⟩

theorem becomesResponse_keys {fields : List (Str × Json)} {entries : List (Str × Response)}
    (all : List.Forall₂ (BecomesResponse config routeId) fields entries) :
    entries.map Prod.fst = fields.map Prod.fst := by
  refine Result.map_eq_of_forall₂ ?_ all
  rintro field entry ⟨schema, form, -, -, rfl⟩
  rfl

/-- The form of a declared response is in what is read. -/
theorem responseMap_declares {operation : List (Str × Json)} {map : SortedMap Str Response}
    {status : Str} {schema : Json}
    (read : responseMap config routeId (Assoc.find (lit "responses") operation) origin = .ok map)
    (declared : Declares config routeId operation (.response status) schema) :
    ∃ form, canonicalSchema config schema routeId = .ok form ∧
      (map.get status).map Response.schema = some form := by
  obtain ⟨fields, value, object, found, distinct, there, resolved, under⟩ := declared
  obtain ⟨fields', entries, found', all, rfl⟩ := responseMap_ok.mp read
  cases found.symm.trans found'
  obtain ⟨entry, member, schema', form, ⟨-, object', resolved', carried⟩, formed, rfl⟩ :=
    Result.exists_of_forall₂_left all (Assoc.mem_of_find there)
  cases resolved.symm.trans resolved'
  cases carried.eq under
  refine ⟨form, formed, ?_⟩
  have keys : (entries.map Prod.fst).Nodup := by
    rw [becomesResponse_keys all]
    exact distinct
  exact congrArg (Option.map Response.schema) (SortedMap.get_insertAll_of_mem keys member)

/-- The form of a declared parameter is in what is read. -/
theorem parameterMap_declares {operation : List (Str × Json)}
    {map : SortedMap ParameterKey Parameter} {location name : Str} {schema : Json}
    (read : parameterMap config routeId (Assoc.find (lit "parameters") operation) origin = .ok map)
    (declared : Declares config routeId operation (.parameter location name) schema) :
    ∃ form, canonicalSchema config schema routeId = .ok form ∧
      (map.get (parameterKey location name)).map Parameter.schema = some form := by
  obtain ⟨values, value, member, object, found, resolved, located, here, named, there⟩ := declared
  obtain ⟨values', outputs, found', all, distinct, rfl⟩ := parameterMap_ok.mp read
  rw [found] at found'
  cases found'
  obtain ⟨output, listed, entered⟩ := Result.exists_of_forall₂_left all member
  obtain ⟨object', location', resolved', located', outcome⟩ := readEntry_ok.mp entered
  cases resolved.symm.trans resolved'
  cases located.symm.trans located'
  rw [if_pos here] at outcome
  obtain ⟨⟨key, parameter⟩, made, rfl⟩ := outcome
  obtain ⟨name', schema', named', -, -, -, there', formed, rfl⟩ := readParameter_ok.mp made
  cases named.symm.trans named'
  cases there.symm.trans there'
  have entry := List.reduceOption_mem_iff.mpr listed
  exact ⟨parameter.schema, formed,
    congrArg (Option.map Parameter.schema) (SortedMap.get_insertAll_of_mem distinct entry)⟩

/-- Operations that agree have equal forms at every spot. -/
theorem Agrees.declares {expected operation : List (Str × Json)} {spot : Spot}
    {generated authored : Json} (agrees : Agrees config routeId expected operation)
    (left : Declares config routeId expected spot generated)
    (right : Declares config routeId operation spot authored) :
    ∃ formLeft formRight, canonicalSchema config generated routeId = .ok formLeft ∧
      canonicalSchema config authored routeId = .ok formRight ∧
      formLeft.equal formRight = true := by
  cases spot with
  | body =>
      obtain ⟨_, _, readLeft, readRight, same⟩ := agrees.body
      obtain ⟨form, formed, there⟩ := readLeft.declares left
      obtain ⟨form', formed', there'⟩ := readRight.declares right
      cases same with
      | none => cases there
      | some equal =>
          cases there
          cases there'
          exact ⟨_, _, formed, formed', ((Bool.and_eq_true _ _).mp equal).2⟩
  | response status =>
      obtain ⟨_, _, readLeft, readRight, same⟩ := agrees.responses
      obtain ⟨form, formed, there⟩ := responseMap_declares readLeft left
      obtain ⟨form', formed', there'⟩ := responseMap_declares readRight right
      obtain ⟨first, found, rfl⟩ := Option.map_eq_some_iff.mp there
      obtain ⟨second, found', rfl⟩ := Option.map_eq_some_iff.mp there'
      have equal := same.values _ _ _ found found'
      exact ⟨_, _, formed, formed', ((Bool.and_eq_true _ _).mp equal).2⟩
  | parameter location name =>
      obtain ⟨_, _, readLeft, readRight, same⟩ := agrees.parameters
      obtain ⟨form, formed, there⟩ := parameterMap_declares readLeft left
      obtain ⟨form', formed', there'⟩ := parameterMap_declares readRight right
      obtain ⟨first, found, rfl⟩ := Option.map_eq_some_iff.mp there
      obtain ⟨second, found', rfl⟩ := Option.map_eq_some_iff.mp there'
      have equal := same.values _ _ _ found found'
      exact ⟨_, _, formed, formed', ((Bool.and_eq_true _ _).mp equal).2⟩

end Contract

/-- `Result::eq`, for what canonicalisation returns. -/
def sameResult : Except Str Json → Except Str Json → Bool
  | .ok left, .ok right => left.equal right
  | .error left, .error right => left == right
  | _, _ => false

/-- The canonical forms differ, and the validator rejects every operation that has one
schema where the generated operation has the other. -/
def SeesDrift (config : OpenApiConfig) (routeId : Str) (generated authored : Json) : Prop :=
  sameResult (canonicalSchema config generated routeId)
      (canonicalSchema config authored routeId) = false ∧
    ∀ method path fields expected operation spot,
      Assoc.find (lit "operation") fields = some (.object expected) →
      Declares config routeId expected spot generated →
      Declares config routeId operation spot authored →
      Contract.validate config routeId method path operation (.object fields) ≠ .ok ()

/-- Different canonical forms are enough for the validator to reject. -/
theorem seesDrift_of_differ {config : OpenApiConfig} {routeId : Str} {generated authored : Json}
    (differ : ∀ formLeft formRight, canonicalSchema config generated routeId = .ok formLeft →
      canonicalSchema config authored routeId = .ok formRight →
      formLeft.equal formRight = false)
    {result : Json} (formed : canonicalSchema config generated routeId = .ok result) :
    SeesDrift config routeId generated authored := by
  constructor
  · rw [formed]
    cases other : canonicalSchema config authored routeId with
    | error message => rfl
    | ok form => exact differ result form formed other
  · intro method path fields expected operation spot found left right accepted
    obtain ⟨_, expected', same, -, -, -, found', agrees⟩ := Contract.validate_ok.mp accepted
    cases same
    cases found.symm.trans found'
    obtain ⟨formLeft, formRight, formedLeft, formedRight, equal⟩ := agrees.declares left right
    rw [differ _ _ formedLeft formedRight] at equal
    cases equal

/-- A change of a property is seen exactly when no name on the path to it is dropped.
The forms of the two schemas are taken where they stand, so that both may refer to
the definitions of the schema around them. -/
theorem seesDrift_fill_iff {config : OpenApiConfig} {routeId : Str} {frames : List Frame}
    {left right formLeft formRight result : Json} (isLeft : isSchema left = true)
    (isRight : isSchema right = true)
    (formedLeft : canonicalSchemaIn config (fill frames left) left routeId = .ok formLeft)
    (formedRight : canonicalSchemaIn config (fill frames right) right routeId = .ok formRight)
    (differ : formLeft.equal formRight = false)
    (formed : canonicalSchema config (fill frames left) routeId = .ok result) :
    SeesDrift config routeId (fill frames left) (fill frames right) ↔
      ∀ frame ∈ frames, frame.keeps = true := by
  constructor
  · intro sees
    by_contra unkept
    push Not at unkept
    obtain ⟨frame, member, drops⟩ := unkept
    have dropped : ∃ frame ∈ frames, frame.keeps = false :=
      ⟨frame, member, Bool.eq_false_iff.mpr drops⟩
    obtain ⟨depth, formedWhole⟩ := canonicalSchema_ok.mp formed
    have again : canonicalSchema config (fill frames right) routeId = .ok result := by
      refine canonicalSchema_ok.mpr ⟨depth, ?_⟩
      rw [← canonicalForm_sameDefinitions (sameDefinitions_fill (List.ne_nil_of_mem member) _ _)]
      exact (canonicalForm_fill isLeft isRight dropped).symm.trans formedWhole
    have unequal := sees.1
    rw [formed, again, sameResult, equal_self_of_canonicalSchema formed] at unequal
    cases unequal
  · intro kept
    refine seesDrift_of_differ ?_ formed
    intro wholeLeft wholeRight reachedLeft reachedRight
    obtain ⟨depth, atLeft⟩ := canonicalSchema_ok.mp reachedLeft
    obtain ⟨deeper, atRight⟩ := canonicalSchema_ok.mp reachedRight
    refine Bool.eq_false_iff.mpr fun equal => ?_
    obtain ⟨_, _, partLeft, partRight, equal⟩ :=
      forms_of_fill kept isLeft isRight atLeft atRight equal
    have sameLeft := canonicalSchemaIn_ok.mpr ⟨depth, partLeft⟩
    have sameRight := canonicalSchemaIn_ok.mpr ⟨deeper, partRight⟩
    cases formedLeft.symm.trans sameLeft
    cases formedRight.symm.trans sameRight
    rw [differ] at equal
    cases equal

end Sees

attribute [local instance] FieldOrder.byInsertion

/-- The path to the only property of an object type. -/
def onlyProperty (name : Str) : List Frame :=
  [.property name ⟨[], [(lit "type", .string (lit "object"))], by decide⟩
    ⟨[], [], List.nodup_singleton name⟩ (by simp)]

/-- A type by its name. -/
def typed (name : String) : Json := .object [(lit "type", .string (lit name))]

/-- The path to the `id` of each order in a list. -/
def orderId : List Frame :=
  .items ⟨[], [], by decide⟩ :: onlyProperty (lit "order") ++ onlyProperty (lit "id")

/-- Below items and below a property, a change of `id` is seen. -/
theorem seesDrift_fill_orderId :
    SeesDrift .default (lit "orders") (fill orderId (typed "string"))
      (fill orderId (typed "integer")) := by
  have left : canonicalSchemaIn .default (fill orderId (typed "string")) (typed "string")
      (lit "orders") = .ok (typed "string") := by decide +kernel
  have right : canonicalSchemaIn .default (fill orderId (typed "integer")) (typed "integer")
      (lit "orders") = .ok (typed "integer") := by decide +kernel
  have whole : canonicalSchema .default (fill orderId (typed "string")) (lit "orders") =
      .ok (fill orderId (typed "string")) := by decide +kernel
  apply (seesDrift_fill_iff rfl rfl left right (by decide +kernel) whole).mpr
  decide +kernel

/-- A JSON answer with the given schema. -/
def answering (schema : Json) : List (Str × Json) :=
  [(lit "responses", .object [(lit "200", .object [(lit "content", .object
    [(lit "application/json", .object [(lit "schema", schema)])])])])]

/-- A handler that answers with a string `title` is accepted with an operation that
declares an integer. -/
theorem drift_of_title_unseen :
    sameResult (canonicalSchema .default (typed "string") (lit "books"))
      (canonicalSchema .default (typed "integer") (lit "books")) = false ∧
    canonicalSchema .default (fill (onlyProperty (lit "title")) (typed "string")) (lit "books") =
      canonicalSchema .default (fill (onlyProperty (lit "title")) (typed "integer"))
        (lit "books") ∧
    Contract.validate .default (lit "books") (lit "GET") (lit "/books")
      (answering (fill (onlyProperty (lit "title")) (typed "integer")))
      (.object [(lit "method", .string (lit "GET")),
        (lit "operation", .object
          (answering (fill (onlyProperty (lit "title")) (typed "string")))),
        (lit "path", .string (lit "/books")), (lit "route_id", .string (lit "books"))]) =
      .ok () := by
  decide +kernel

end OpenApi
