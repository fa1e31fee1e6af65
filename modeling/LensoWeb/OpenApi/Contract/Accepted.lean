import LensoWeb.OpenApi.Contract

/-!
# What an accepted contract says

The validator accepts an operation when it reads equal maps and an equal body
from it as from the generated operation. What is read does not depend on the label
that only appears in messages, so each reading is stated without it.
-/

namespace OpenApi

open Foundation

variable [FieldOrder]

namespace Contract

/-- The same keys, with equal values. -/
structure SameEntries {κ ν : Type} [LinearOrder κ] (equal : ν → ν → Bool)
    (expected actual : SortedMap κ ν) : Prop where
  keys : expected.entries.map Prod.fst = actual.entries.map Prod.fst
  values : ∀ key left right, expected.get key = some left → actual.get key = some right →
    equal left right = true

omit [FieldOrder] in
theorem compareEntries_ok {κ ν : Type} [LinearOrder κ] {equal : ν → ν → Bool}
    {expected actual : SortedMap κ ν} {keysDiffer : Str} {entryDiffers : κ → Str} :
    compareEntries equal expected actual keysDiffer entryDiffers = .ok () ↔
      SameEntries equal expected actual := by
  rw [compareEntries]
  constructor
  · intro accepted
    split at accepted
    · cases accepted
    · next keys =>
      split at accepted
      · cases accepted
      · next none =>
        rw [List.find?_eq_none] at none
        refine ⟨not_not.mp keys, fun key left right generated authored => ?_⟩
        have same := none (key, left) (SortedMap.mem_of_get generated)
        rw [authored] at same
        simpa using same
  · intro same
    rw [if_neg (not_not.mpr same.keys)]
    split
    · next entry found =>
      have member : (entry.1, entry.2) ∈ expected.entries := List.mem_of_find?_eq_some found
      have listed : (actual.get entry.1).isSome = true := by
        rw [SortedMap.get_isSome_iff, ← same.keys]
        exact List.mem_map.mpr ⟨_, member, rfl⟩
      obtain ⟨right, authored⟩ := Option.isSome_iff_exists.mp listed
      have differs := List.find?_some found
      rw [authored, Option.any_some,
        same.values _ _ _ (SortedMap.get_of_mem member) authored] at differs
      cases differs
    · rfl

omit [FieldOrder] in
/-- A map is the same as itself, if its values are equal to themselves. -/
theorem SameEntries.refl {κ ν : Type} [LinearOrder κ] {equal : ν → ν → Bool}
    {map : SortedMap κ ν} (each : ∀ entry ∈ map.entries, equal entry.2 entry.2 = true) :
    SameEntries equal map map where
  keys := rfl
  values key left right generated authored := by
    cases generated.symm.trans authored
    exact each _ (SortedMap.mem_of_get generated)

omit [FieldOrder] in
/-- A value without a reference stands for itself. -/
theorem resolveComponent_of_plain {config : OpenApiConfig} {value : Json} {part routeId : Str}
    (plain : (value.get (lit "$ref")).bind Json.asStr = none) :
    resolveComponent config value part routeId = .ok value := by
  rw [resolveComponent, plain]

/-- A schema under a media type that stands alone. -/
def HasMediaSchema (object : List (Str × Json)) (mediaType : Str) (schema : Json) : Prop :=
  ∃ content media, Assoc.find (lit "content") object = some (.object content) ∧
    content.length = 1 ∧ Assoc.find mediaType content = some (.object media) ∧
    Assoc.find (lit "schema") media = some schema

theorem mediaSchema_ok {config : OpenApiConfig} {routeId : Str} {object : List (Str × Json)}
    {mediaType origin : Str} {result : Json} :
    mediaSchema config routeId object mediaType origin = .ok result ↔
      ∃ schema, HasMediaSchema object mediaType schema ∧
        canonicalSchema config schema routeId = .ok result := by
  rw [mediaSchema]
  constructor
  · intro read
    split at read
    · cases read
    · next content there =>
      obtain ⟨value, found, isObject⟩ := Option.bind_eq_some_iff.mp there
      split at read
      · cases read
      · next alone =>
        split at read
        · cases read
        · next media there =>
          obtain ⟨inner, foundInner, isMedia⟩ := Option.bind_eq_some_iff.mp there
          split at read
          · cases read
          · next schema there =>
            rw [Json.asObject_eq_some] at isObject isMedia
            subst isObject isMedia
            exact ⟨schema, ⟨content, media, found, by_contra fun more => alone (.inl more),
              foundInner, there⟩, read⟩
  · rintro ⟨schema, ⟨content, media, found, alone, inner, there⟩, formed⟩
    simp [found, alone, inner, there, formed, Json.asObject]

section Reading

variable {config : OpenApiConfig} {routeId origin : Str}

/-- A value that declares a parameter of the path or the query, after resolution. -/
structure CarriesParameter (config : OpenApiConfig) (routeId : Str) (value : Json)
    (location name : Str) (required : Bool) (schema : Json) : Prop where
  read : ∃ object, resolveComponent config value (lit "parameters") routeId = .ok (.object object) ∧
    Assoc.find (lit "in") object = some (.string location) ∧
    Assoc.find (lit "name") object = some (.string name) ∧
    Assoc.find (lit "required") object = some (.bool required) ∧
    validateParameterSerialization object location routeId name = .ok () ∧
    Assoc.find (lit "schema") object = some schema
  located : location = lit "path" ∨ location = lit "query"
  always : location = lit "path" → required = true

theorem readParameter_ok {location : Str} {object : List (Str × Json)} {key : ParameterKey}
    {parameter : Parameter} :
    readParameter config routeId location object = .ok (key, parameter) ↔
      ∃ name schema, Assoc.find (lit "name") object = some (.string name) ∧
        Assoc.find (lit "required") object = some (.bool parameter.required) ∧
        (location = lit "path" → parameter.required = true) ∧
        validateParameterSerialization object location routeId name = .ok () ∧
        Assoc.find (lit "schema") object = some schema ∧
        canonicalSchema config schema routeId = .ok parameter.schema ∧
        key = parameterKey location name := by
  obtain ⟨required, form⟩ := parameter
  rw [readParameter]
  constructor
  · intro read
    split at read
    · cases read
    · next name named =>
      obtain ⟨_, foundName, isName⟩ := Option.bind_eq_some_iff.mp named
      split at read
      · cases read
      · next flag flagged =>
        obtain ⟨_, foundFlag, isFlag⟩ := Option.bind_eq_some_iff.mp flagged
        split at read
        · cases read
        · next always =>
          obtain ⟨_, serialized, read⟩ := Result.bind_eq_ok.mp read
          split at read
          · cases read
          · next schema foundSchema =>
            obtain ⟨value, formed, returned⟩ := Result.bind_eq_ok.mp read
            cases returned
            rw [Json.asStr_eq_some] at isName
            rw [Json.asBool_eq_some] at isFlag
            subst isName isFlag
            refine ⟨name, schema, foundName, foundFlag, ?_, serialized, foundSchema, formed, rfl⟩
            intro path
            cases required with
            | true => rfl
            | false => exact absurd (by simp [path]) always
  · rintro ⟨name, schema, named, flagged, always, serialized, found, formed, rfl⟩
    have required : (location == lit "path" && !required) = false := by
      by_cases path : location = lit "path"
      · have flag : required = true := always path
        simp [flag]
      · simp [path]
    simp only [named, flagged, Option.bind_some, Json.asStr, Json.asBool, required, found]
    exact Result.bind_eq_ok.mpr ⟨(), serialized, Result.bind_eq_ok.mpr ⟨form, formed, rfl⟩⟩

theorem readEntry_ok {value : Json} {output : Option (ParameterKey × Parameter)} :
    readEntry config routeId origin value = .ok output ↔
      ∃ object location,
        resolveComponent config value (lit "parameters") routeId = .ok (.object object) ∧
        Assoc.find (lit "in") object = some (.string location) ∧
        if location = lit "path" ∨ location = lit "query" then
          ∃ entry, readParameter config routeId location object = .ok entry ∧ output = some entry
        else output = none := by
  rw [readEntry, Result.bind_eq_ok]
  constructor
  · rintro ⟨resolved, found, read⟩
    split at read
    · cases read
    · next object isObject =>
      rw [Json.asObject_eq_some] at isObject
      subst isObject
      split at read
      · cases read
      · next location located =>
        obtain ⟨_, foundIn, isLocation⟩ := Option.bind_eq_some_iff.mp located
        rw [Json.asStr_eq_some] at isLocation
        subst isLocation
        refine ⟨object, location, found, foundIn, ?_⟩
        split at read
        · next elsewhere =>
          cases read
          rw [if_neg]
          simpa using elsewhere
        · next here =>
          rw [if_pos (by simpa [or_iff_not_imp_left] using here)]
          obtain ⟨entry, made, returned⟩ := Result.bind_eq_ok.mp read
          cases returned
          exact ⟨entry, made, rfl⟩
  · rintro ⟨object, location, found, located, outcome⟩
    refine ⟨_, found, ?_⟩
    simp only [Json.asObject, located, Option.bind_some, Json.asStr]
    split at outcome
    · next here =>
      obtain ⟨entry, made, rfl⟩ := outcome
      rw [if_neg (by simpa [or_iff_not_imp_left] using here)]
      exact Result.bind_eq_ok.mpr ⟨entry, made, rfl⟩
    · next elsewhere =>
      subst outcome
      rw [if_pos (by simpa using elsewhere)]

/-- An entry comes from a value that declares it. -/
theorem readEntry_some {value : Json} {key : ParameterKey} {parameter : Parameter} :
    readEntry config routeId origin value = .ok (some (key, parameter)) ↔
      ∃ location name schema,
        CarriesParameter config routeId value location name parameter.required schema ∧
        canonicalSchema config schema routeId = .ok parameter.schema ∧
        key = parameterKey location name := by
  rw [readEntry_ok]
  constructor
  · rintro ⟨object, location, resolved, located, outcome⟩
    split at outcome
    · next here =>
      obtain ⟨entry, made, same⟩ := outcome
      cases same
      obtain ⟨name, schema, named, flagged, always, serialized, found, formed, rfl⟩ :=
        readParameter_ok.mp made
      exact ⟨location, name, schema, ⟨⟨object, resolved, located, named, flagged, serialized, found⟩,
        here, always⟩, formed, rfl⟩
    · cases outcome
  · rintro ⟨location, name, schema, carried, formed, rfl⟩
    obtain ⟨object, resolved, located, named, flagged, serialized, found⟩ := carried.read
    refine ⟨object, location, resolved, located, ?_⟩
    rw [if_pos carried.located]
    exact ⟨_, readParameter_ok.mpr ⟨name, schema, named, flagged, carried.always, serialized, found,
      formed, rfl⟩, rfl⟩

/-- The items of a parameter field; an absent field has none. -/
def parameterValues : Option Json → Option (List Json)
  | none => some []
  | some value => value.asArray

theorem parameterMap_ok {value : Option Json} {map : SortedMap ParameterKey Parameter} :
    parameterMap config routeId value origin = .ok map ↔
      ∃ values outputs, parameterValues value = some values ∧
        List.Forall₂ (fun value output => readEntry config routeId origin value = .ok output)
          values outputs ∧
        (outputs.reduceOption.map Prod.fst).Nodup ∧ map = SortedMap.insertAll ∅ outputs.reduceOption := by
  have round : ∀ (values : List Json), ∀ value ∈ values, ∀ map next,
      addParameter config routeId origin map value = .ok next ↔
        readEntry config routeId origin value = .ok none ∧ next = map ∨
          ∃ entry, readEntry config routeId origin value = .ok (some entry) ∧
            map.get entry.1 = none ∧ next = map.insert entry.1 entry.2 := by
    intro values value _ map next
    rw [addParameter, Result.bind_eq_ok]
    constructor
    · rintro ⟨output, read, added⟩
      cases output with
      | none =>
          cases added
          exact .inl ⟨read, rfl⟩
      | some entry =>
          simp only at added
          split at added
          · cases added
          · next absent =>
            cases added
            exact .inr ⟨entry, read, by simpa using absent, rfl⟩
    · rintro (⟨read, rfl⟩ | ⟨entry, read, absent, rfl⟩)
      · exact ⟨none, read, rfl⟩
      · exact ⟨some entry, read, by simp [absent]⟩
  cases value with
  | none =>
      simp only [parameterMap, parameterValues, Except.ok.injEq]
      constructor
      · rintro rfl
        exact ⟨[], [], rfl, .nil, by simp, rfl⟩
      · rintro ⟨values, outputs, same, all, -, rfl⟩
        cases same
        cases all
        rfl
  | some value =>
      simp only [parameterMap, parameterValues]
      cases isArray : value.asArray with
      | none => simp
      | some values =>
          simp only
          rw [SortedMap.foldlM_insertNew (round values)]
          constructor
          · rintro ⟨outputs, all, distinct, -, rfl⟩
            exact ⟨values, outputs, rfl, all, distinct, rfl⟩
          · rintro ⟨values', outputs, same, all, distinct, rfl⟩
            cases same
            exact ⟨outputs, all, distinct, fun _ _ => rfl, rfl⟩

/-! ### Bodies -/

/-- A value that declares a JSON body, after resolution. -/
def CarriesBody (config : OpenApiConfig) (routeId : Str) (value : Json) (required : Bool)
    (schema : Json) : Prop :=
  ∃ object, resolveComponent config value (lit "requestBodies") routeId = .ok (.object object) ∧
    required = ((Assoc.find (lit "required") object).bind Json.asBool).getD false ∧
    HasMediaSchema object (lit "application/json") schema

/-- The body that an operation declares, if it declares one. -/
def ReadsBody (config : OpenApiConfig) (routeId : Str) (operation : List (Str × Json)) :
    Option RequestBody → Prop
  | none => Assoc.find (lit "requestBody") operation = none
  | some body => ∃ value schema, Assoc.find (lit "requestBody") operation = some value ∧
      CarriesBody config routeId value body.required schema ∧
      canonicalSchema config schema routeId = .ok body.schema

theorem requestBody_ok {value resolved : Json} {body : RequestBody}
    (found : resolveComponent config value (lit "requestBodies") routeId = .ok resolved) :
    requestBody config routeId resolved origin = .ok body ↔
      ∃ schema, CarriesBody config routeId value body.required schema ∧
        canonicalSchema config schema routeId = .ok body.schema := by
  obtain ⟨required, form⟩ := body
  rw [requestBody]
  constructor
  · intro read
    split at read
    · cases read
    · next object isObject =>
      rw [Json.asObject_eq_some] at isObject
      subst isObject
      obtain ⟨schema, media, returned⟩ := Result.bind_eq_ok.mp read
      cases returned
      obtain ⟨raw, carried, formed⟩ := mediaSchema_ok.mp media
      exact ⟨raw, ⟨object, found, rfl, carried⟩, formed⟩
  · rintro ⟨schema, ⟨object, again, flag, carried⟩, formed⟩
    cases found.symm.trans again
    simp only at flag
    subst flag
    exact Result.bind_eq_ok.mpr ⟨form, mediaSchema_ok.mpr ⟨schema, carried, formed⟩, rfl⟩

/-- No body in both, or equal ones. -/
def SameBody (expected actual : Option RequestBody) : Prop :=
  Option.Rel (fun left right => left.equal right = true) expected actual

theorem validateRequestBody_ok {expected operation : List (Str × Json)} :
    validateRequestBody config routeId expected operation = .ok () ↔
      ∃ left right, ReadsBody config routeId expected left ∧
        ReadsBody config routeId operation right ∧ SameBody left right := by
  rw [validateRequestBody]
  cases generated : Assoc.find (lit "requestBody") expected with
  | none =>
      cases authored : Assoc.find (lit "requestBody") operation with
      | none => exact ⟨fun _ => ⟨none, none, generated, authored, .none⟩, fun _ => rfl⟩
      | some actual =>
          constructor
          · intro impossible
            cases impossible
          · rintro ⟨_, _, left, right, same⟩
            cases same with
            | none => cases authored.symm.trans right
            | some equal =>
                obtain ⟨value, schema, there, -⟩ := left
                cases generated.symm.trans there
  | some first =>
      cases authored : Assoc.find (lit "requestBody") operation with
      | none =>
          constructor
          · intro impossible
            cases impossible
          · rintro ⟨_, _, left, right, same⟩
            cases same with
            | none => cases generated.symm.trans left
            | some equal =>
                obtain ⟨value, schema, there, -⟩ := right
                cases authored.symm.trans there
      | some second =>
          constructor
          · intro accepted
            obtain ⟨resolved, found, accepted⟩ := Result.bind_eq_ok.mp accepted
            obtain ⟨resolved', found', accepted⟩ := Result.bind_eq_ok.mp accepted
            obtain ⟨body, read, accepted⟩ := Result.bind_eq_ok.mp accepted
            obtain ⟨body', read', accepted⟩ := Result.bind_eq_ok.mp accepted
            split at accepted
            · cases accepted
            · next same =>
              obtain ⟨schema, carried, formed⟩ := (requestBody_ok found).mp read
              obtain ⟨schema', carried', formed'⟩ := (requestBody_ok found').mp read'
              exact ⟨some body, some body', ⟨first, schema, generated, carried, formed⟩,
                ⟨second, schema', authored, carried', formed'⟩, .some (by simpa using same)⟩
          · rintro ⟨_, _, left, right, same⟩
            cases same with
            | none => cases generated.symm.trans left
            | @some body body' equal =>
                obtain ⟨value, schema, there, carried, formed⟩ := left
                cases generated.symm.trans there
                obtain ⟨value', schema', there', carried', formed'⟩ := right
                cases authored.symm.trans there'
                obtain ⟨object, found, -⟩ := id carried
                obtain ⟨object', found', -⟩ := id carried'
                refine Result.bind_eq_ok.mpr ⟨_, found, Result.bind_eq_ok.mpr ⟨_, found', ?_⟩⟩
                refine Result.bind_eq_ok.mpr
                  ⟨body, (requestBody_ok found).mpr ⟨schema, carried, formed⟩, ?_⟩
                refine Result.bind_eq_ok.mpr
                  ⟨body', (requestBody_ok found').mpr ⟨schema', carried', formed'⟩, ?_⟩
                rw [if_neg (by simp [equal])]

/-! ### Responses -/

/-- A field that declares a response, after resolution. -/
def CarriesResponse (config : OpenApiConfig) (routeId : Str) (field : Str × Json)
    (schema : Json) : Prop :=
  isStatusCode field.1 = true ∧
    ∃ object, resolveComponent config field.2 (lit "responses") routeId = .ok (.object object) ∧
      HasMediaSchema object (responseMediaType field.1) schema

/-- A field and the response that is read from it. -/
def BecomesResponse (config : OpenApiConfig) (routeId : Str) (field : Str × Json)
    (entry : Str × Response) : Prop :=
  ∃ schema form, CarriesResponse config routeId field schema ∧
    canonicalSchema config schema routeId = .ok form ∧
    entry = (field.1, ⟨responseMediaType field.1, form⟩)

theorem addResponse_ok {responses next : SortedMap Str Response} {field : Str × Json} :
    addResponse config routeId origin responses field = .ok next ↔
      ∃ entry, BecomesResponse config routeId field entry ∧
        next = responses.insert entry.1 entry.2 := by
  rw [addResponse]
  constructor
  · intro added
    split at added
    · cases added
    · next status =>
      obtain ⟨resolved, found, added⟩ := Result.bind_eq_ok.mp added
      split at added
      · cases added
      · next object isObject =>
        rw [Json.asObject_eq_some] at isObject
        subst isObject
        obtain ⟨form, media, returned⟩ := Result.bind_eq_ok.mp added
        cases returned
        obtain ⟨schema, carried, formed⟩ := mediaSchema_ok.mp media
        exact ⟨_, ⟨schema, form, ⟨by simpa using status, object, found, carried⟩, formed, rfl⟩, rfl⟩
  · rintro ⟨entry, ⟨schema, form, ⟨status, object, found, carried⟩, formed, rfl⟩, rfl⟩
    rw [if_neg (by simp [status])]
    refine Result.bind_eq_ok.mpr ⟨_, found, ?_⟩
    exact Result.bind_eq_ok.mpr ⟨form, mediaSchema_ok.mpr ⟨schema, carried, formed⟩, rfl⟩

theorem responseMap_ok {value : Option Json} {map : SortedMap Str Response} :
    responseMap config routeId value origin = .ok map ↔
      ∃ fields entries, value = some (.object fields) ∧
        List.Forall₂ (BecomesResponse config routeId) fields entries ∧
        map = SortedMap.insertAll ∅ entries := by
  have loop : ∀ (fields : List (Str × Json)) (start : SortedMap Str Response),
      fields.foldlM (addResponse config routeId origin) start = .ok map ↔
        ∃ entries, List.Forall₂ (BecomesResponse config routeId) fields entries ∧
          map = start.insertAll entries := by
    intro fields
    induction fields with
    | nil =>
        intro start
        simp only [List.foldlM_nil, List.forall₂_nil_left_iff, exists_eq_left,
          SortedMap.insertAll_nil]
        constructor
        · intro returned
          cases returned
          rfl
        · rintro rfl
          rfl
    | cons field rest ih =>
        intro start
        rw [List.foldlM_cons, Result.bind_eq_ok]
        constructor
        · rintro ⟨next, first, later⟩
          obtain ⟨entry, made, rfl⟩ := addResponse_ok.mp first
          obtain ⟨entries, all, rfl⟩ := (ih _).mp later
          exact ⟨entry :: entries, .cons made all, rfl⟩
        · rintro ⟨entries, all, rfl⟩
          obtain ⟨entry, others, made, later, rfl⟩ := List.forall₂_cons_left_iff.mp all
          exact ⟨_, addResponse_ok.mpr ⟨entry, made, rfl⟩, (ih _).mpr ⟨others, later, rfl⟩⟩
  rw [responseMap]
  split
  · next absent =>
    constructor
    · intro impossible
      cases impossible
    · rintro ⟨fields, entries, rfl, -⟩
      cases absent
  · next fields isObject =>
    obtain ⟨inner, rfl, isFields⟩ := Option.bind_eq_some_iff.mp isObject
    rw [Json.asObject_eq_some] at isFields
    subst isFields
    rw [loop]
    constructor
    · rintro ⟨entries, all, rfl⟩
      exact ⟨fields, entries, rfl, all, rfl⟩
    · rintro ⟨fields', entries, same, all, rfl⟩
      cases same
      exact ⟨entries, all, rfl⟩

/-! ### What is read is equal to itself -/

theorem equal_self_of_parameterMap {value : Option Json} {map : SortedMap ParameterKey Parameter}
    (read : parameterMap config routeId value origin = .ok map) :
    ∀ entry ∈ map.entries, entry.2.equal entry.2 = true := by
  obtain ⟨values, outputs, -, all, -, rfl⟩ := parameterMap_ok.mp read
  intro entry member
  obtain impossible | inside := Assoc.mem_of_mem_insertAll member
  · cases impossible
  · obtain ⟨value, -, read⟩ :=
      Result.exists_of_forall₂_left all.flip (List.reduceOption_mem_iff.mp inside)
    obtain ⟨_, _, _, -, formed, -⟩ := readEntry_some.mp read
    simp [Parameter.equal, equal_self_of_canonicalSchema formed]

theorem equal_self_of_responseMap {value : Option Json} {map : SortedMap Str Response}
    (read : responseMap config routeId value origin = .ok map) :
    ∀ entry ∈ map.entries, entry.2.equal entry.2 = true := by
  obtain ⟨fields, entries, -, all, rfl⟩ := responseMap_ok.mp read
  intro entry member
  obtain impossible | inside := Assoc.mem_of_mem_insertAll member
  · cases impossible
  · obtain ⟨field, -, schema, form, -, formed, rfl⟩ :=
      Result.exists_of_forall₂_left all.flip inside
    simp [Response.equal, equal_self_of_canonicalSchema formed]

theorem sameBody_self {operation : List (Str × Json)} {body : Option RequestBody}
    (read : ReadsBody config routeId operation body) : SameBody body body := by
  cases body with
  | none => exact .none
  | some body =>
      obtain ⟨value, schema, -, -, formed⟩ := read
      exact .some (by simp [RequestBody.equal, equal_self_of_canonicalSchema formed])

end Reading

/-! ### The whole contract -/

omit [FieldOrder] in
theorem requireString_ok {contract : List (Str × Json)} {field actual routeId : Str} :
    requireString contract field actual routeId = .ok () ↔
      Assoc.find field contract = some (.string actual) := by
  rw [requireString]
  constructor
  · intro accepted
    split at accepted
    · cases accepted
    · next expected there =>
      obtain ⟨_, found, isText⟩ := Option.bind_eq_some_iff.mp there
      rw [Json.asStr_eq_some] at isText
      subst isText
      split at accepted
      · cases accepted
      · next same => rw [found, not_not.mp same]
  · intro found
    simp [found, Json.asStr]

/-- Two operations from which the same is read, up to the equality of JSON values. -/
structure Agrees (config : OpenApiConfig) (routeId : Str)
    (expected operation : List (Str × Json)) : Prop where
  parameters : ∃ left right,
    parameterMap config routeId (Assoc.find (lit "parameters") expected) (lit "generated") =
      .ok left ∧
    parameterMap config routeId (Assoc.find (lit "parameters") operation) (lit "authored") =
      .ok right ∧ SameEntries Parameter.equal left right
  body : ∃ left right, ReadsBody config routeId expected left ∧
    ReadsBody config routeId operation right ∧ SameBody left right
  responses : ∃ left right,
    responseMap config routeId (Assoc.find (lit "responses") expected) (lit "generated") =
      .ok left ∧
    responseMap config routeId (Assoc.find (lit "responses") operation) (lit "authored") =
      .ok right ∧ SameEntries Response.equal left right

/-- The validator accepts a contract for the route whose generated operation agrees
with the authored one. -/
theorem validate_ok {config : OpenApiConfig} {routeId method path : Str}
    {operation : List (Str × Json)} {contract : Json} :
    validate config routeId method path operation contract = .ok () ↔
      ∃ fields expected, contract = .object fields ∧
        Assoc.find (lit "route_id") fields = some (.string routeId) ∧
        Assoc.find (lit "method") fields = some (.string method) ∧
        Assoc.find (lit "path") fields = some (.string path) ∧
        Assoc.find (lit "operation") fields = some (.object expected) ∧
        Agrees config routeId expected operation := by
  rw [validate]
  constructor
  · intro accepted
    split at accepted
    · cases accepted
    · next fields isObject =>
      rw [Json.asObject_eq_some] at isObject
      obtain ⟨_, route, accepted⟩ := Result.bind_eq_ok.mp accepted
      obtain ⟨_, verb, accepted⟩ := Result.bind_eq_ok.mp accepted
      obtain ⟨_, place, accepted⟩ := Result.bind_eq_ok.mp accepted
      split at accepted
      · cases accepted
      · next expected there =>
        obtain ⟨_, found, isOperation⟩ := Option.bind_eq_some_iff.mp there
        rw [Json.asObject_eq_some] at isOperation
        subst isOperation
        obtain ⟨_, parameters, accepted⟩ := Result.bind_eq_ok.mp accepted
        obtain ⟨_, body, responses⟩ := Result.bind_eq_ok.mp accepted
        refine ⟨fields, expected, isObject, requireString_ok.mp route, requireString_ok.mp verb,
          requireString_ok.mp place, found, ?_, validateRequestBody_ok.mp body, ?_⟩
        · obtain ⟨left, generated, parameters⟩ := Result.bind_eq_ok.mp parameters
          obtain ⟨right, authored, compared⟩ := Result.bind_eq_ok.mp parameters
          exact ⟨left, right, generated, authored, compareEntries_ok.mp compared⟩
        · obtain ⟨left, generated, responses⟩ := Result.bind_eq_ok.mp responses
          obtain ⟨right, authored, compared⟩ := Result.bind_eq_ok.mp responses
          exact ⟨left, right, generated, authored, compareEntries_ok.mp compared⟩
  · rintro ⟨fields, expected, rfl, route, verb, place, found, agrees⟩
    obtain ⟨left, right, generated, authored, same⟩ := agrees.parameters
    obtain ⟨left', right', generated', authored', same'⟩ := agrees.responses
    simp only [Json.asObject, found, Option.bind_some]
    refine Result.bind_eq_ok.mpr ⟨(), requireString_ok.mpr route, ?_⟩
    refine Result.bind_eq_ok.mpr ⟨(), requireString_ok.mpr verb, ?_⟩
    refine Result.bind_eq_ok.mpr ⟨(), requireString_ok.mpr place, ?_⟩
    refine Result.bind_eq_ok.mpr ⟨(), ?_, Result.bind_eq_ok.mpr
      ⟨(), validateRequestBody_ok.mpr agrees.body, ?_⟩⟩
    · exact Result.bind_eq_ok.mpr ⟨left, generated, Result.bind_eq_ok.mpr
        ⟨right, authored, compareEntries_ok.mpr same⟩⟩
    · exact Result.bind_eq_ok.mpr ⟨left', generated', Result.bind_eq_ok.mpr
        ⟨right', authored', compareEntries_ok.mpr same'⟩⟩

end Contract

end OpenApi
