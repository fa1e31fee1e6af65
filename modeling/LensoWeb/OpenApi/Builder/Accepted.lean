import LensoWeb.OpenApi.Builder
import LensoWeb.OpenApi.Drift
import LensoWeb.OpenApi.Grounded

/-!
# Built contracts are accepted

The validator accepts what the builder builds, under every configuration, and reads
back what was declared: a parameter for each property of a path or query type, the
success response, and a response for each problem status that lists its codes.
-/

namespace OpenApi

open Foundation

open Contract (ParameterKey parameterKey)

/-! ### References -/

section References

variable {reference : Str}

theorem anyItemContains_iff {items : List Json} : anyItemContains items = true ↔
    ∃ item ∈ items, containsLocalDefinitionReference item = true := by
  induction items with
  | nil => simp [anyItemContains]
  | cons item rest ih => simp [anyItemContains, ih]

theorem anyFieldContains_iff {fields : List (Str × Json)} : anyFieldContains fields = true ↔
    ∃ field ∈ fields, containsLocalDefinitionReference field.2 = true := by
  induction fields with
  | nil => simp [anyFieldContains]
  | cons field rest ih => simp [anyFieldContains, ih]

/-- The search of the builder finds every local reference. -/
theorem contains_of_mentions {value : Json} {name : Str}
    (mentioned : Mentions value (lit "#/$defs/" ++ name)) :
    containsLocalDefinitionReference value = true := by
  generalize same : lit "#/$defs/" ++ name = reference at mentioned
  induction mentioned with
  | here refers =>
      subst same
      rw [containsLocalDefinitionReference, refers, Option.any_some, Bool.or_eq_true]
      exact .inl (List.isPrefixOf_iff_prefix.mpr (List.prefix_append _ _))
  | field member _ ih =>
      rw [containsLocalDefinitionReference, Bool.or_eq_true]
      exact .inr (anyFieldContains_iff.mpr ⟨_, member, ih same⟩)
  | item member _ ih =>
      rw [containsLocalDefinitionReference]
      exact anyItemContains_iff.mpr ⟨_, member, ih same⟩

end References

/-! ### Derived schemas -/

/-- The schemas that are derived for types: their references are local, lead to objects
and are not cyclic, and their properties are schemas. -/
structure Derived (schema : Json) : Prop where
  grounded : Grounded schema schema
  properties : ∀ properties, schema.get (lit "properties") = some (.object properties) →
    ∀ property ∈ properties, isSchema property.2 = true

namespace OpenApiContract

/-! ### Keys and statuses -/

theorem nodup_response : [lit "description", lit "content"].Nodup := by decide

theorem nodup_bodyValue : [lit "required", lit "content"].Nodup := by decide

theorem nodup_parameterValue :
    [lit "name", lit "in", lit "required", lit "schema"].Nodup := by decide

theorem nodup_codeSchema : [lit "type", lit "enum"].Nodup := by decide

theorem nodup_problemProperties :
    [lit "type", lit "title", lit "status", lit "detail", lit "code"].Nodup := by decide

theorem nodup_problemSchema :
    [lit "type", lit "required", lit "properties", lit "additionalProperties"].Nodup := by decide

theorem nodup_built : [lit "route_id", lit "method", lit "path", lit "operation"].Nodup := by
  decide

section Statuses

open Contract (isStatusCode responseMediaType parseBelow)

/-- The codes of the statuses that a contract can declare. -/
theorem parseBelow_toDigits : ∀ status < 600, 100 ≤ status →
    parseBelow 65536 (Nat.toDigits 10 status) = some status := by
  decide +kernel

theorem toDigits_injective {status other : Nat} (bounds : 100 ≤ status ∧ status ≤ 599)
    (others : 100 ≤ other ∧ other ≤ 599) (same : Nat.toDigits 10 status = Nat.toDigits 10 other) :
    status = other := by
  have left := parseBelow_toDigits status (by omega) bounds.1
  have right := parseBelow_toDigits other (by omega) others.1
  rw [same, right] at left
  exact (Option.some.inj left).symm

theorem isStatusCode_toDigits : ∀ status < 600, 100 ≤ status →
    isStatusCode (Nat.toDigits 10 status) = true := by
  decide +kernel

theorem mediaType_success : ∀ status < 300, 200 ≤ status →
    responseMediaType (Nat.toDigits 10 status) = lit "application/json" := by
  decide +kernel

theorem mediaType_problem : ∀ status < 600, 400 ≤ status →
    responseMediaType (Nat.toDigits 10 status) = lit "application/problem+json" := by
  decide +kernel

end Statuses

/-- An array of texts mentions nothing. -/
theorem not_mentions_texts {texts : List Str} {reference : Str} :
    ¬ Mentions (.array (texts.map Json.string)) reference := by
  rw [mentions_array]
  rintro ⟨item, member, inside⟩
  obtain ⟨text, -, rfl⟩ := List.mem_map.mp member
  exact not_mentions_scalar rfl inside

theorem not_mentions_ofType {name : String} {reference : Str} :
    ¬ Mentions (ofType name) reference :=
  not_mentions_object rfl (List.forall_mem_singleton.mpr (not_mentions_scalar rfl))

section Accepts

variable [FieldOrder]

/-! ### Objects in the source -/

section Literals

variable {fields : List (Str × Json)} (distinct : (fields.map Prod.fst).Nodup)

include distinct

theorem referenceOf_ofList : referenceOf (ObjectMap.ofList fields) = referenceOf fields := by
  rw [referenceOf, ObjectMap.find_ofList distinct, referenceOf]

theorem not_mentions_ofFields {reference : Str} (plain : referenceOf fields = none)
    (each : ∀ field ∈ fields, ¬ Mentions field.2 reference) :
    ¬ Mentions (.ofFields fields) reference :=
  not_mentions_object ((referenceOf_ofList distinct).trans plain) fun field member =>
    each field ((ObjectMap.mem_ofList distinct).mp member)

theorem canonicalForm_find_ofFields {config : OpenApiConfig} {routeId : Str} {depth : Nat}
    {root result : Json} {references : Finset Str} (plain : referenceOf fields = none)
    (formed : canonicalForm config routeId depth root references (.ofFields fields) = .ok result)
    {key : Str} {value : Json} (member : (key, value) ∈ fields) (kept : dropsField key = false) :
    ∃ entries form, result = .object entries ∧
      canonicalForm config routeId depth root references value = .ok form ∧
      Assoc.find key entries = some (arrange key form) :=
  canonicalForm_find_plain ((referenceOf_ofList distinct).trans plain) formed
    (ObjectMap.arranged_ofList fields).nodup ((ObjectMap.mem_ofList distinct).mpr member) kept

theorem resolveComponent_ofFields {config : OpenApiConfig} {part routeId : Str}
    (plain : referenceOf fields = none) :
    Contract.resolveComponent config (.ofFields fields) part routeId =
      .ok (.object (ObjectMap.ofList fields)) := by
  refine Contract.resolveComponent_of_plain ?_
  rw [Json.get_ofFields distinct]
  exact plain

end Literals

/-! ### Parameters -/

/-- The definitions of a schema serve its properties, wherever they are read. -/
theorem grounded_propertySchema {root : List (Str × Json)} {name : Str} {property : Json}
    {properties : List (Str × Json)} (grounded : Grounded (.object root) (.object root))
    (listed : Assoc.find (lit "properties") root = some (.object properties))
    (member : (name, property) ∈ properties) (schema : isSchema property = true) :
    Grounded (propertySchema (Assoc.find (lit "$defs") root) property)
      (propertySchema (Assoc.find (lit "$defs") root) property) := by
  have inside : ∀ reference, Mentions property reference → Mentions (.object root) reference :=
    fun reference mentioned => .field (Assoc.mem_of_find listed) (.field member mentioned)
  unfold propertySchema
  split
  · next definitions fields found contains =>
    -- The definitions are those of the whole schema, and nothing else is mentioned.
    have fewer : ∀ reference,
        Mentions (.object (ObjectMap.insert (lit "$defs") definitions fields)) reference →
        Mentions (.object root) reference := by
      intro reference mentioned
      obtain refers | ⟨field, within, deeper⟩ := mentions_object.mp mentioned
      · rw [referenceOf, ObjectMap.find_insert, if_neg (by decide)] at refers
        exact inside reference (.here refers)
      · obtain rfl | own := ObjectMap.mem_of_mem_insert within
        · exact .field (Assoc.mem_of_find found) deeper
        · exact inside reference (.field own deeper)
    refine (grounded.mono fewer).congr fun name => ?_
    rw [definition, definition, Json.get, Json.get, Json.asObject, Json.asObject, Option.bind_some,
      Option.bind_some, found, ObjectMap.find_insert, if_pos rfl]
  · next property _ _ _ plain =>
    refine .of_not_mentions fun reference mentioned => ?_
    obtain ⟨name, target, rfl, defined⟩ := grounded.resolves (inside reference mentioned)
    obtain ⟨definitions, found⟩ : ∃ definitions, Assoc.find (lit "$defs") root = some definitions := by
      refine Option.ne_none_iff_exists'.mp fun absent => ?_
      rw [definition, Json.get, Json.asObject, Option.bind_some, absent] at defined
      cases defined
    cases property with
    | object fields => exact plain definitions fields (contains_of_mentions mentioned) found rfl
    | bool value => exact not_mentions_scalar rfl mentioned
    | null => cases schema
    | number value => cases schema
    | string text => cases schema
    | array items => cases schema

/-! ### What the calls declare -/

/-- The properties of a derived schema. -/
def propertiesOf (schema : Json) : List (Str × Json) :=
  ((schema.get (lit "properties")).bind Json.asObject).getD []

/-- Whether a schema lists a property as required. -/
def requires (schema : Json) (name : Str) : Bool :=
  (requiredNames (schema.asObject.getD [])).contains name

/-- The parameter that a property declares. -/
def parameterOf (schema : Json) (location : Str) (requiredForAll : Bool)
    (property : Str × Json) : ParameterKey × Json :=
  (parameterKey location property.1,
    parameterValue location property.1 (requiredForAll || requires schema property.1)
      (propertySchema (Assoc.find (lit "$defs") (schema.asObject.getD [])) property.2))

namespace BuilderCall

/-- The schema that a call carries. -/
def schema : BuilderCall → Option Json
  | path schema => some schema
  | query schema => some schema
  | jsonBody schema => some schema
  | optionalJsonBody schema => some schema
  | successJson schema _ => some schema
  | knownProblem _ _ => none

/-- The parameters that a call adds. -/
def parameters : BuilderCall → List (ParameterKey × Json)
  | path schema => (propertiesOf schema).map (parameterOf schema (lit "path") true)
  | query schema => (propertiesOf schema).map (parameterOf schema (lit "query") false)
  | _ => []

end BuilderCall

/-- The properties that a call declares as parameters, and whether they are required. -/
def BuilderCall.declares : BuilderCall → List (ParameterKey × Bool)
  | .path schema => (propertiesOf schema).map fun property =>
      (parameterKey (lit "path") property.1, true)
  | .query schema => (propertiesOf schema).map fun property =>
      (parameterKey (lit "query") property.1, requires schema property.1)
  | _ => []

/-- The body that `set_json_body` stores. -/
def bodyValue (schema : Json) (required : Bool) : Json :=
  .ofFields [(lit "required", .bool required),
    (lit "content", .object [(lit "application/json", .object [(lit "schema", schema)])])]

/-- A contract holds what the calls so far declared. -/
structure Collected (routeId method path : Str) (contract : OpenApiContract)
    (calls : List BuilderCall) : Prop where
  route : contract.routeId = routeId ∧ contract.method = method ∧ contract.path = path
  parameters : contract.parameters.entries.Perm (calls.flatMap BuilderCall.parameters)
  body : ∀ value, contract.requestBody = some value → ∃ call ∈ calls, ∃ schema required,
    call.schema = some schema ∧ value = bodyValue schema required
  success : ∀ status schema,
    contract.success = some (status, schema) ↔ .successJson schema status ∈ calls
  succeeds : ∀ status schema, contract.success = some (status, schema) → 200 ≤ status ∧ status ≤ 299
  declared : ∀ status code, .knownProblem status code ∈ calls →
    ∃ codes, contract.problems.get status = some codes ∧ codes.get code = some ()
  stored : ∀ status codes, contract.problems.get status = some codes →
    (400 ≤ status ∧ status ≤ 599) ∧ (∃ code, .knownProblem status code ∈ calls) ∧
      ∀ code, codes.get code = some () → .knownProblem status code ∈ calls

section Calls

variable {contract next : OpenApiContract} {schema : Json} {status : Nat}

theorem addParameters_ok {location : Str} {requiredForAll : Bool}
    (added : contract.addParameters schema location requiredForAll = .ok next) :
    ∃ parameters, next = { contract with parameters } ∧
      parameters.entries.Perm (contract.parameters.entries ++
        (propertiesOf schema).map (parameterOf schema location requiredForAll)) := by
  rw [addParameters] at added
  split at added
  · cases added
  · next root isObject =>
    split at added
    · cases added
    · next properties listed =>
      split at added
      · cases added
      · obtain ⟨parameters, looped, returned⟩ := Result.bind_eq_ok.mp added
        cases returned
        refine ⟨parameters, rfl, ?_⟩
        have read : propertiesOf schema = properties := by
          rw [propertiesOf, Json.get, isObject, Option.bind_some, listed, Option.getD_some]
        have root' : schema.asObject.getD [] = root := by rw [isObject, Option.getD_some]
        have round : ∀ {map property map' collected},
            addParameter location requiredForAll root map property = .ok map' →
            map.entries.Perm collected → map'.entries.Perm
              (collected ++ [parameterOf schema location requiredForAll property]) := by
          intro map property map' collected stepped holds
          rw [addParameter] at stepped
          split at stepped
          · cases stepped
          · next absent =>
            cases stepped
            refine (map.entries_insert_perm _ _).trans ?_
            rw [SortedMap.others_of_get_eq_none (by simpa using absent), parameterOf, requires,
              root']
            exact (holds.cons _).trans (List.perm_append_singleton _ _).symm
        have collects := @Result.foldlM_collects _ _ _ _ (addParameter location requiredForAll root)
          (fun map collected => map.entries.Perm collected)
          (fun property => [parameterOf schema location requiredForAll property]) round
          _ _ _ _ looped (List.Perm.refl _)
        rw [read, List.map_eq_flatMap]
        exact collects

variable {routeId method path : Str} {calls : List BuilderCall}

theorem collected_new (routeId method path : Str) :
    Collected routeId method path (new routeId method path) [] :=
  ⟨⟨rfl, rfl, rfl⟩, .refl _, nofun, by simp [new], nofun, nofun, nofun⟩

namespace Collected

/-- A call that only adds parameters. -/
theorem addParameters (collected : Collected routeId method path contract calls)
    {call : BuilderCall} (plain : ∀ status schema, call ≠ .successJson schema status)
    (known : ∀ status code, call ≠ .knownProblem status code)
    {parameters : SortedMap ParameterKey Json}
    (added : parameters.entries.Perm (contract.parameters.entries ++ call.parameters)) :
    Collected routeId method path { contract with parameters } (calls ++ [call]) where
  route := collected.route
  parameters := by
    rw [List.flatMap_append, List.flatMap_singleton]
    exact added.trans (collected.parameters.append_right _)
  body value stored := by
    obtain ⟨earlier, member, rest⟩ := collected.body value stored
    exact ⟨earlier, List.mem_append_left _ member, rest⟩
  success status schema := by
    rw [List.mem_append, List.mem_singleton, or_iff_left (plain status schema).symm]
    exact collected.success status schema
  succeeds := collected.succeeds
  declared status code member := by
    rw [List.mem_append, List.mem_singleton, or_iff_left (known status code).symm] at member
    exact collected.declared status code member
  stored status codes found := by
    obtain ⟨bounds, ⟨code, member⟩, all⟩ := collected.stored status codes found
    exact ⟨bounds, ⟨code, List.mem_append_left _ member⟩,
      fun code inside => List.mem_append_left _ (all code inside)⟩

/-- A call that sets the body. -/
theorem setJsonBody (collected : Collected routeId method path contract calls)
    {call : BuilderCall} {required : Bool} (carries : call.schema = some schema)
    (plain : ∀ status schema, call ≠ .successJson schema status)
    (none : call.parameters = [])
    (set : contract.setJsonBody schema required = .ok next) :
    Collected routeId method path next (calls ++ [call]) := by
  have known : ∀ status code, call ≠ .knownProblem status code := by
    rintro status code rfl
    cases carries
  have same : contract.parameters.entries.Perm (contract.parameters.entries ++ call.parameters) := by
    rw [none, List.append_nil]
  have before := collected.addParameters plain known same
  rw [OpenApiContract.setJsonBody] at set
  split at set
  · cases set
  · cases set
    refine { before with body := ?_ }
    intro value stored
    cases stored
    exact ⟨call, List.mem_append_right _ (List.mem_singleton_self _), schema, required, carries, rfl⟩

theorem successJson (collected : Collected routeId method path contract calls)
    (set : contract.successJson schema status = .ok next) :
    Collected routeId method path next (calls ++ [.successJson schema status]) := by
  rw [OpenApiContract.successJson] at set
  split at set
  · cases set
  · next bounds =>
    split at set
    · cases set
    · next fresh =>
      cases set
      have absent : contract.success = none := by simpa using fresh
      have only : ∀ status' schema', .successJson schema' status' ∈
          calls ++ [.successJson schema status] ↔ status' = status ∧ schema' = schema := by
        intro status' schema'
        rw [List.mem_append, List.mem_singleton, BuilderCall.successJson.injEq,
          ← collected.success status' schema', absent, or_iff_right nofun]
        exact and_comm
      refine ⟨collected.route, ?_, ?_, ?_, ?_, ?_, ?_⟩
      · rw [List.flatMap_append, List.flatMap_singleton]
        simpa [BuilderCall.parameters] using collected.parameters
      · intro value stored
        obtain ⟨call, member, rest⟩ := collected.body value stored
        exact ⟨call, List.mem_append_left _ member, rest⟩
      · intro status' schema'
        rw [only, Option.some.injEq, Prod.mk.injEq]
        exact and_congr eq_comm eq_comm
      · intro status' schema' stored
        cases stored
        simpa using bounds
      · intro status' code member
        rw [List.mem_append, List.mem_singleton, or_iff_left nofun] at member
        exact collected.declared status' code member
      · intro status' codes found
        obtain ⟨within, ⟨code, member⟩, all⟩ := collected.stored status' codes found
        exact ⟨within, ⟨code, List.mem_append_left _ member⟩,
          fun code inside => List.mem_append_left _ (all code inside)⟩

theorem knownProblem (collected : Collected routeId method path contract calls) {code : Str}
    (set : contract.knownProblem status code = .ok next) :
    Collected routeId method path next (calls ++ [.knownProblem status code]) := by
  rw [OpenApiContract.knownProblem] at set
  split at set
  · cases set
  · next bounds =>
    split at set
    · cases set
    · cases set
      refine ⟨collected.route, ?_, ?_, ?_, collected.succeeds, ?_, ?_⟩
      · rw [List.flatMap_append, List.flatMap_singleton]
        simpa [BuilderCall.parameters] using collected.parameters
      · intro value stored
        obtain ⟨call, member, rest⟩ := collected.body value stored
        exact ⟨call, List.mem_append_left _ member, rest⟩
      · intro status' schema'
        rw [List.mem_append, List.mem_singleton, or_iff_left nofun]
        exact collected.success status' schema'
      · intro status' code' member
        rw [List.mem_append, List.mem_singleton, BuilderCall.knownProblem.injEq] at member
        rw [SortedMap.get_insert]
        split
        · next same =>
          refine ⟨_, rfl, ?_⟩
          rw [SortedMap.get_insert]
          split
          · rfl
          · next other =>
            obtain earlier | ⟨-, here⟩ := member
            · obtain ⟨codes, found, listed⟩ := collected.declared status' code' earlier
              rw [same] at found
              rw [found]
              exact listed
            · exact absurd here other
        · next other =>
          obtain earlier | ⟨here, -⟩ := member
          · exact collected.declared status' code' earlier
          · exact absurd here other
      · intro status' codes found
        rw [SortedMap.get_insert] at found
        split at found
        · next same =>
          cases found
          subst same
          refine ⟨by simpa using bounds, ⟨code, by simp⟩, fun code' listed => ?_⟩
          rw [SortedMap.get_insert] at listed
          split at listed
          · next here => simp [here]
          · cases before : contract.problems.get status' with
            | none =>
                rw [before] at listed
                cases listed
            | some codes =>
                rw [before] at listed
                obtain ⟨-, -, all⟩ := collected.stored status' codes before
                exact List.mem_append_left _ (all code' listed)
        · obtain ⟨within, ⟨code', member⟩, all⟩ := collected.stored status' codes found
          exact ⟨within, ⟨code', List.mem_append_left _ member⟩,
            fun code inside => List.mem_append_left _ (all code inside)⟩

/-- Every call adds what it declares. -/
theorem call (collected : Collected routeId method path contract calls) {call : BuilderCall}
    (called : contract.call call = .ok next) :
    Collected routeId method path next (calls ++ [call]) := by
  cases call with
  | path schema =>
      obtain ⟨parameters, rfl, added⟩ := addParameters_ok called
      refine collected.addParameters ?_ ?_ added
      · nofun
      · nofun
  | query schema =>
      obtain ⟨parameters, rfl, added⟩ := addParameters_ok called
      refine collected.addParameters ?_ ?_ added
      · nofun
      · nofun
  | jsonBody schema => exact collected.setJsonBody rfl nofun rfl called
  | optionalJsonBody schema => exact collected.setJsonBody rfl nofun rfl called
  | successJson schema status => exact collected.successJson called
  | knownProblem status code => exact collected.knownProblem called

end Collected

theorem collected_of_calls
    (called : calls.foldlM OpenApiContract.call (new routeId method path) = .ok contract) :
    Collected routeId method path contract calls := by
  have collects := @Result.foldlM_collects _ _ _ _ OpenApiContract.call
    (Collected routeId method path) (fun call => [call])
    (fun stepped holds => holds.call stepped) _ _ _ _ called (collected_new routeId method path)
  simpa using collects

end Calls

/-! ### Parameters are read back -/

section Reading

open Contract (Parameter parameterMap readEntry CarriesParameter)

variable {config : OpenApiConfig} {routeId : Str}

/-- A parameter that the validator can read. -/
def Readable (entry : ParameterKey × Json) (required : Bool) : Prop :=
  ∃ location name schema, entry =
      (parameterKey location name, parameterValue location name required schema) ∧
    (location = lit "path" ∨ location = lit "query") ∧
    (location = lit "path" → required = true) ∧ Grounded schema schema

/-- A generated parameter declares what it was made from. -/
theorem carriesParameter {location name : Str} {required : Bool} {schema : Json}
    (located : location = lit "path" ∨ location = lit "query")
    (always : location = lit "path" → required = true) :
    CarriesParameter config routeId (parameterValue location name required schema) location name
      required schema where
  read := by
    have found := fun key => @ObjectMap.find_ofList Json _ [(lit "name", .string name),
      (lit "in", .string location), (lit "required", .bool required), (lit "schema", schema)]
      nodup_parameterValue key
    refine ⟨_, resolveComponent_ofFields (by exact nodup_parameterValue) rfl, found _, found _,
      found _, ?_, found _⟩
    simp only [Contract.validateParameterSerialization, found]
    rfl
  located := located
  always := always

theorem Readable.readEntry {entry : ParameterKey × Json} {required : Bool}
    (readable : Readable entry required) : ∃ form, ∀ origin,
      readEntry config routeId origin entry.2 = .ok (some (entry.1, ⟨required, form⟩)) := by
  obtain ⟨location, name, schema, rfl, located, always, grounded⟩ := readable
  obtain ⟨form, formed⟩ := grounded.canonicalSchema_isOk config routeId
  exact ⟨form, fun origin => Contract.readEntry_some.mpr
    ⟨location, name, schema, carriesParameter located always, formed, rfl⟩⟩

/-- The parameters of the operation are read back as they were declared. -/
theorem parameterMap_declared (config : OpenApiConfig) (routeId : Str)
    {parameters : SortedMap ParameterKey Json}
    {required : ParameterKey × Json → Bool}
    (readable : ∀ entry ∈ parameters.entries, Readable entry (required entry))
    {field : Option Json}
    (listed : Contract.parameterValues field = some (parameters.entries.map Prod.snd)) :
    ∃ map, (∀ origin, parameterMap config routeId field origin = .ok map) ∧
      map.entries.map (fun entry => (entry.1, entry.2.required)) =
        parameters.entries.map fun entry => (entry.1, required entry) := by
  have each : ∀ entry ∈ parameters.entries, ∃ read : ParameterKey × Parameter,
      (∀ origin, readEntry config routeId origin entry.2 = .ok (some read)) ∧
        read.1 = entry.1 ∧ read.2.required = required entry := by
    intro entry member
    obtain ⟨form, reads⟩ := (readable entry member).readEntry
    exact ⟨_, reads, rfl, rfl⟩
  obtain ⟨read, all⟩ := Result.exists_forall₂ each
  have keys : read.map Prod.fst = parameters.entries.map Prod.fst :=
    Result.map_eq_of_forall₂ (fun _ _ related => related.2.1) all
  have sorted : Assoc.Sorted read := by
    rw [Assoc.Sorted, keys]
    exact parameters.sorted
  refine ⟨⟨read, sorted⟩, fun origin => ?_, ?_⟩
  · have whole : (read.map some).reduceOption = read := by
      rw [List.reduceOption, List.filterMap_map, Function.id_comp, List.filterMap_some]
    refine Contract.parameterMap_ok.mpr ⟨_, read.map some, listed, ?_, ?_, ?_⟩
    · rw [List.forall₂_map_left_iff, List.forall₂_map_right_iff]
      exact all.imp fun _ _ related => related.1 origin
    · rw [whole]
      exact sorted.nodup
    · rw [whole, SortedMap.insertAll_empty sorted]
  · refine Result.map_eq_of_forall₂ (fun _ _ related => ?_) all
    rw [related.2.1, related.2.2]

/-- The flag of a generated parameter. -/
def flagOf (entry : ParameterKey × Json) : Bool :=
  ((entry.2.get (lit "required")).bind Json.asBool).getD false

theorem flagOf_parameterOf (schema : Json) (location : Str) (requiredForAll : Bool)
    (property : Str × Json) : flagOf (parameterOf schema location requiredForAll property) =
      (requiredForAll || requires schema property.1) := by
  rw [flagOf, parameterOf, parameterValue, Json.get_ofFields (by exact nodup_parameterValue)]
  rfl

theorem flags_eq_declares (call : BuilderCall) :
    call.parameters.map (fun entry => (entry.1, flagOf entry)) = call.declares := by
  cases call with
  | path schema =>
      rw [BuilderCall.parameters, List.map_map]
      exact List.map_congr_left fun property _ => Prod.ext rfl (flagOf_parameterOf _ _ _ _)
  | query schema =>
      rw [BuilderCall.parameters, List.map_map]
      exact List.map_congr_left fun property _ => Prod.ext rfl (flagOf_parameterOf _ _ _ _)
  | jsonBody schema => rfl
  | optionalJsonBody schema => rfl
  | successJson schema status => rfl
  | knownProblem status code => rfl

theorem readable_parameterOf {schema : Json} (derived : Derived schema) {location : Str}
    {requiredForAll : Bool} (located : location = lit "path" ∨ location = lit "query")
    (always : location = lit "path" → requiredForAll = true) {property : Str × Json}
    (member : property ∈ propertiesOf schema) :
    Readable (parameterOf schema location requiredForAll property)
      (flagOf (parameterOf schema location requiredForAll property)) := by
  rw [flagOf_parameterOf]
  refine ⟨location, property.1, _, rfl, located, fun path => ?_, ?_⟩
  · rw [always path, Bool.true_or]
  · rw [propertiesOf] at member
    cases schema with
    | object root =>
        cases listed : Assoc.find (lit "properties") root with
        | none =>
            rw [Json.get, Json.asObject, Option.bind_some, listed] at member
            cases member
        | some table =>
            rw [Json.get, Json.asObject, Option.bind_some, listed, Option.bind_some] at member
            cases table with
            | object properties =>
                exact grounded_propertySchema derived.grounded listed member
                  (derived.properties properties listed property member)
            | null => cases member
            | bool value => cases member
            | number value => cases member
            | string text => cases member
            | array items => cases member
    | null => cases member
    | bool value => cases member
    | number value => cases member
    | string text => cases member
    | array items => cases member

theorem readable_of_derived {calls : List BuilderCall}
    (derived : ∀ call ∈ calls, ∀ schema, call.schema = some schema → Derived schema)
    {entry : ParameterKey × Json} (member : entry ∈ calls.flatMap BuilderCall.parameters) :
    Readable entry (flagOf entry) := by
  obtain ⟨call, called, declared⟩ := List.mem_flatMap.mp member
  cases call with
  | path schema =>
      obtain ⟨property, inside, rfl⟩ := List.mem_map.mp declared
      exact readable_parameterOf (derived _ called schema rfl) (.inl rfl) (fun _ => rfl) inside
  | query schema =>
      obtain ⟨property, inside, rfl⟩ := List.mem_map.mp declared
      exact readable_parameterOf (derived _ called schema rfl) (.inr rfl) nofun inside
  | jsonBody schema => cases declared
  | optionalJsonBody schema => cases declared
  | successJson schema status => cases declared
  | knownProblem status code => cases declared

end Reading

/-! ### Responses are read back -/

section Responses

open Contract (Response responseMap BecomesResponse CarriesResponse responseMediaType)

variable {config : OpenApiConfig} {routeId : Str} {contract : OpenApiContract}

/-- A generated response is read back with the form of its schema. -/
theorem becomesResponse {status : Nat} {description mediaType : Str} {schema form : Json}
    (bounds : 100 ≤ status ∧ status < 600)
    (media : responseMediaType (Nat.toDigits 10 status) = mediaType)
    (formed : canonicalSchema config schema routeId = .ok form) :
    BecomesResponse config routeId
      (Nat.toDigits 10 status, response description mediaType schema)
      (Nat.toDigits 10 status, ⟨mediaType, form⟩) := by
  refine ⟨schema, form, ⟨isStatusCode_toDigits status bounds.2 bounds.1, _,
    resolveComponent_ofFields (by exact nodup_response) rfl, _, [(lit "schema", schema)],
    ObjectMap.find_ofList (by exact nodup_response) _, rfl, ?_, rfl⟩, formed, ?_⟩
  · rw [media, Assoc.find_cons, if_pos rfl]
  · rw [media]

/-- The field of a problem status. -/
def problemField (problem : Nat × SortedMap Str Unit) : Str × Json :=
  (Nat.toDigits 10 problem.1,
    response (lit "Known problem response.") (lit "application/problem+json")
      (problemSchema problem.1 (problem.2.entries.map Prod.fst)))

/-- The field of the success response. -/
def successField (status : Nat) (schema : Json) : Str × Json :=
  (Nat.toDigits 10 status, response (lit "Successful response.") (lit "application/json") schema)

theorem foldlM_addProblem {status : Nat} {problems : List (Nat × SortedMap Str Unit)}
    {fields final : List (Str × Json)}
    (looped : problems.foldlM (addProblem status) fields = .ok final) :
    final = ObjectMap.insertAll fields (problems.map problemField) := by
  induction problems generalizing fields with
  | nil =>
      cases looped
      rfl
  | cons problem rest ih =>
      obtain ⟨next, added, later⟩ := Result.bind_eq_ok.mp looped
      rw [addProblem] at added
      split at added
      · cases added
      · cases added
        exact ih later

/-- The parts of a built contract. -/
theorem build_ok {built : Json} (returned : contract.build = .ok built) :
    ∃ status schema, contract.success = some (status, schema) ∧
      built = .ofFields [(lit "route_id", .string contract.routeId),
        (lit "method", .string contract.method), (lit "path", .string contract.path),
        (lit "operation", .object (requestPart contract ++ [(lit "responses", .object
          (ObjectMap.insertAll [successField status schema]
            (contract.problems.entries.map problemField)))]))] := by
  rw [build] at returned
  split at returned
  · cases returned
  · next status schema succeeds =>
    obtain ⟨responses, looped, built⟩ := Result.bind_eq_ok.mp returned
    cases built
    exact ⟨status, schema, succeeds, by rw [foldlM_addProblem looped]; rfl⟩

theorem not_mentions_problemSchema {status : Nat} {codes : List Str} (reference : Str) :
    ¬ Mentions (problemSchema status codes) reference := by
  have code : ¬ Mentions (.ofFields [(lit "type", .string (lit "string")),
      (lit "enum", .array (codes.map Json.string))]) reference := by
    apply not_mentions_ofFields (by exact nodup_codeSchema) rfl
    simp only [List.forall_mem_cons, List.not_mem_nil, false_imp_iff, implies_true, and_true]
    exact ⟨not_mentions_scalar rfl, not_mentions_texts⟩
  have constant : ¬ Mentions (.object [(lit "const", .number (.ofNat status))]) reference :=
    not_mentions_object rfl (List.forall_mem_singleton.mpr (not_mentions_scalar rfl))
  have properties : ¬ Mentions (.ofFields [(lit "type", ofType "string"),
      (lit "title", ofType "string"),
      (lit "status", .object [(lit "const", .number (.ofNat status))]),
      (lit "detail", ofType "string"), (lit "code", .ofFields [(lit "type", .string (lit "string")),
        (lit "enum", .array (codes.map Json.string))])]) reference := by
    apply not_mentions_ofFields (by exact nodup_problemProperties) rfl
    simp only [List.forall_mem_cons, List.not_mem_nil, false_imp_iff, implies_true, and_true]
    exact ⟨not_mentions_ofType, not_mentions_ofType, constant, not_mentions_ofType, code⟩
  apply not_mentions_ofFields (by exact nodup_problemSchema) rfl
  simp only [List.forall_mem_cons, List.not_mem_nil, false_imp_iff, implies_true, and_true]
  refine ⟨not_mentions_scalar rfl, ?_, properties, not_mentions_scalar rfl⟩
  exact @not_mentions_texts
    [lit "type", lit "title", lit "status", lit "detail", lit "code"] reference

/-- Where a problem schema lists its codes. -/
def enumeration (schema : Json) : Option Json :=
  ((schema.get (lit "properties")).bind (·.get (lit "code"))).bind (·.get (lit "enum"))

theorem canonicalSchema_problemSchema (status : Nat) (codes : List Str) :
    ∃ form items, canonicalSchema config (problemSchema status codes) routeId = .ok form ∧
      enumeration form = some (.array items) ∧ items.Perm (codes.map Json.string) := by
  have grounded : Grounded (problemSchema status codes) (problemSchema status codes) :=
    .of_not_mentions not_mentions_problemSchema
  obtain ⟨form, formed⟩ := grounded.canonicalSchema_isOk config routeId
  obtain ⟨depth, inside⟩ := canonicalSchema_ok.mp formed
  obtain ⟨entries, properties, rfl, inside, foundProperties⟩ := canonicalForm_find_ofFields
    (by exact nodup_problemSchema) rfl inside (.tail _ (.tail _ (.head _))) rfl
  obtain ⟨table, code, rfl, inside, foundCode⟩ := canonicalForm_find_ofFields
    (by exact nodup_problemProperties) rfl inside
    (.tail _ (.tail _ (.tail _ (.tail _ (.head _))))) rfl
  obtain ⟨fields, listed, rfl, inside, foundEnum⟩ := canonicalForm_find_ofFields
    (by exact nodup_codeSchema) rfl inside (.tail _ (.head _)) rfl
  obtain ⟨forms, all, rfl⟩ := canonicalForm_array_ok.mp inside
  have texts : forms = codes.map Json.string := by
    rw [List.forall₂_map_left_iff] at all
    have same := @Result.map_eq_of_forall₂ _ _ _ _ _ _ Json.string id
      (fun code form formed => by
        rw [canonicalForm_scalar _ _ _ rfl] at formed
        cases formed
        rfl) all
    rwa [List.map_id] at same
  refine ⟨_, forms.insertionSort fun left right => left.render ≤ right.render, formed, ?_, ?_⟩
  · rw [enumeration, Json.get, Json.asObject, Option.bind_some, foundProperties, Option.bind_some]
    show ((Assoc.find (lit "code") table).bind _) = _
    rw [foundCode, Option.bind_some]
    show Assoc.find (lit "enum") fields = _
    exact foundEnum
  · rw [← texts]
    exact List.perm_insertionSort _ _

theorem becomesResponse_unique {field : Str × Json} {entry other : Str × Response}
    (becomes : BecomesResponse config routeId field entry)
    (again : BecomesResponse config routeId field other) : entry = other := by
  obtain ⟨schema, form, ⟨-, object, found, carried⟩, formed, rfl⟩ := becomes
  obtain ⟨schema', form', ⟨-, object', found', carried'⟩, formed', rfl⟩ := again
  cases found.symm.trans found'
  obtain ⟨content, media, outer, -, inner, there⟩ := carried'
  cases carried.eq ⟨content, media, outer, inner, there⟩
  cases formed.symm.trans formed'
  rfl

variable {method path : Str} {calls : List BuilderCall} {status : Nat} {schema : Json}

/-- A problem field is read back with its codes. -/
theorem becomesResponse_problem (collected : Collected routeId method path contract calls)
    {problem : Nat × SortedMap Str Unit} (member : problem ∈ contract.problems.entries) :
    ∃ form items, BecomesResponse config routeId (problemField problem)
        (Nat.toDigits 10 problem.1, ⟨lit "application/problem+json", form⟩) ∧
      enumeration form = some (.array items) ∧
      items.Perm ((problem.2.entries.map Prod.fst).map Json.string) := by
  obtain ⟨status, codes⟩ := problem
  have found : contract.problems.get status = some codes := SortedMap.get_of_mem member
  obtain ⟨bounds, -, -⟩ := collected.stored status codes found
  obtain ⟨form, items, formed, listed, all⟩ :=
    @canonicalSchema_problemSchema _ config routeId status (codes.entries.map Prod.fst)
  exact ⟨form, items, becomesResponse ⟨by omega, by omega⟩
    (mediaType_problem status (by omega) bounds.1) formed, listed, all⟩

/-- The statuses of the problems are written differently. -/
theorem nodup_problemFields (collected : Collected routeId method path contract calls) :
    ((contract.problems.entries.map problemField).map Prod.fst).Nodup := by
  have bounds : ∀ problem ∈ contract.problems.entries, 100 ≤ problem.1 ∧ problem.1 ≤ 599 := by
    intro problem member
    have found : contract.problems.get problem.1 = some problem.2 := SortedMap.get_of_mem member
    have within := (collected.stored problem.1 problem.2 found).1
    omega
  rw [List.map_map]
  have distinct := contract.problems.sorted.nodup
  rw [List.Nodup, List.pairwise_map] at distinct ⊢
  refine distinct.imp_of_mem fun first second apart same => apart ?_
  exact toDigits_injective (bounds _ first) (bounds _ second) same

/-- The responses of the operation are read back as they were declared. -/
theorem responseMap_declared (config : OpenApiConfig)
    (collected : Collected routeId method path contract calls)
    (succeeds : contract.success = some (status, schema)) (derived : Derived schema) :
    ∃ map, (∀ origin, responseMap config routeId (some (.object (ObjectMap.insertAll
        [successField status schema] (contract.problems.entries.map problemField)))) origin =
          .ok map) ∧
      (∀ key, (map.get key).isSome = true ↔ key = Nat.toDigits 10 status ∨
        ∃ problem ∈ contract.problems.entries, key = Nat.toDigits 10 problem.1) ∧
      ∀ problem ∈ contract.problems.entries, ∃ response items,
        map.get (Nat.toDigits 10 problem.1) = some response ∧
        response.mediaType = lit "application/problem+json" ∧
        enumeration response.schema = some (.array items) ∧
        items.Perm ((problem.2.entries.map Prod.fst).map Json.string) := by
  generalize isFields : ObjectMap.insertAll [successField status schema]
    (contract.problems.entries.map problemField) = fields
  have bounds := collected.succeeds status schema succeeds
  have each : ∀ field ∈ fields, ∃ entry, BecomesResponse config routeId field entry := by
    intro field member
    subst isFields
    obtain first | problem := ObjectMap.mem_of_mem_insertAll member
    · obtain ⟨form, formed⟩ := derived.grounded.canonicalSchema_isOk config routeId
      rw [List.mem_singleton.mp first]
      exact ⟨_, becomesResponse ⟨by omega, by omega⟩
        (mediaType_success status (by omega) bounds.1) formed⟩
    · obtain ⟨problem, inside, rfl⟩ := List.mem_map.mp problem
      obtain ⟨form, items, becomes, -⟩ := becomesResponse_problem collected inside
      exact ⟨_, becomes⟩
  obtain ⟨entries, all⟩ := Result.exists_forall₂ each
  have keys : entries.map Prod.fst = fields.map Prod.fst := by
    refine Result.map_eq_of_forall₂ ?_ all
    rintro field entry ⟨_, _, -, -, rfl⟩
    rfl
  have distinct : (entries.map Prod.fst).Nodup := by
    rw [keys, ← isFields]
    exact ((ObjectMap.arranged_singleton _).insertAll _).nodup
  have lookup : ∀ key, Assoc.find key fields =
      (Assoc.find key (contract.problems.entries.map problemField)).or
        (Assoc.find key [successField status schema]) := by
    intro key
    rw [← isFields, ObjectMap.find_insertAll (nodup_problemFields collected)]
  refine ⟨SortedMap.insertAll ∅ entries, fun origin => ?_, fun key => ?_, fun problem member => ?_⟩
  · exact Contract.responseMap_ok.mpr ⟨fields, entries, rfl, all, rfl⟩
  · have listed : ((SortedMap.insertAll ∅ entries).get key).isSome = true ↔
        key ∈ entries.map Prod.fst :=
      SortedMap.get_isSome_iff.trans (Assoc.mem_keys_insertAll.trans (or_iff_left nofun))
    rw [listed, keys, ← Assoc.find_isSome_iff, lookup, Option.isSome_or, Bool.or_eq_true,
      Assoc.find_isSome_iff, Assoc.find_isSome_iff, or_comm]
    simp [successField, problemField, eq_comm]
  · obtain ⟨form, items, becomes, listed, codes⟩ := becomesResponse_problem collected member
    have found : Assoc.find (problemField problem).1 fields = some (problemField problem).2 := by
      have inside : ((problemField problem).1, (problemField problem).2) ∈
          contract.problems.entries.map problemField := List.mem_map_of_mem member
      rw [lookup, Assoc.find_of_mem (nodup_problemFields collected) inside, Option.some_or]
    obtain ⟨entry, inside, made⟩ := Result.exists_of_forall₂_left all (Assoc.mem_of_find found)
    rw [becomesResponse_unique made becomes] at inside
    exact ⟨_, items, SortedMap.get_insertAll_of_mem distinct inside, rfl, listed, codes⟩

end Responses

/-! ### The whole contract -/

section Whole

open Contract (parameterMap responseMap ReadsBody Agrees)

variable {config : OpenApiConfig} {routeId method path : Str} {contract : OpenApiContract}
  {calls : List BuilderCall}

omit [FieldOrder] in
theorem parameterValues_requestPart (contract : OpenApiContract) (responses : Json) :
    Contract.parameterValues (Assoc.find (lit "parameters")
      (requestPart contract ++ [(lit "responses", responses)])) =
        some (contract.parameters.entries.map Prod.snd) := by
  rw [requestPart]
  cases entries : contract.parameters.entries with
  | nil => cases contract.requestBody <;> rfl
  | cons entry rest => cases contract.requestBody <;> rfl

omit [FieldOrder] in
theorem find_requestBody (contract : OpenApiContract) (responses : Json) :
    Assoc.find (lit "requestBody") (requestPart contract ++ [(lit "responses", responses)]) =
      contract.requestBody := by
  rw [requestPart]
  cases contract.parameters.entries <;> cases contract.requestBody <;> rfl

omit [FieldOrder] in
theorem find_responses (contract : OpenApiContract) (responses : Json) :
    Assoc.find (lit "responses") (requestPart contract ++ [(lit "responses", responses)]) =
      some responses := by
  rw [requestPart]
  cases contract.parameters.entries <;> cases contract.requestBody <;> rfl

/-- The body of the operation is read back. -/
theorem readsBody_of_collected (config : OpenApiConfig)
    (collected : Collected routeId method path contract calls)
    (derived : ∀ call ∈ calls, ∀ schema, call.schema = some schema → Derived schema)
    {operation : List (Str × Json)}
    (found : Assoc.find (lit "requestBody") operation = contract.requestBody) :
    ∃ body, ReadsBody config routeId operation body := by
  cases stored : contract.requestBody with
  | none => exact ⟨none, found.trans stored⟩
  | some value =>
      obtain ⟨call, called, schema, required, carries, rfl⟩ := collected.body value stored
      obtain ⟨form, formed⟩ :=
        (derived call called schema carries).grounded.canonicalSchema_isOk config routeId
      have flag := @ObjectMap.find_ofList Json _ [(lit "required", .bool required), (lit "content",
        .object [(lit "application/json", .object [(lit "schema", schema)])])] nodup_bodyValue
      refine ⟨some ⟨required, form⟩, _, schema, found.trans stored,
        ⟨_, resolveComponent_ofFields (by exact nodup_bodyValue) rfl, ?_, _,
          [(lit "schema", schema)], flag _, rfl, rfl, rfl⟩, formed⟩
      rw [flag]
      rfl

/-- What a successful run of the builder returns is accepted by the validator for its own
route and operation, under every configuration. A parameter is read for each property of a
path or query type, and a response for the success status and for each problem status,
with the codes that were declared for it. -/
theorem built_contract_accepted {built : Json}
    (derived : ∀ call ∈ calls, ∀ schema, call.schema = some schema → Derived schema)
    (returned : run routeId method path calls = .ok built) (config : OpenApiConfig) :
    ∃ operation, built.get (lit "operation") = some (.object operation) ∧
      Contract.validate config routeId method path operation built = .ok () ∧
      (∃ parameters, (∀ origin, parameterMap config routeId
          (Assoc.find (lit "parameters") operation) origin = .ok parameters) ∧
        (parameters.entries.map fun entry => (entry.1, entry.2.required)).Perm
          (calls.flatMap BuilderCall.declares)) ∧
      ∃ responses, (∀ origin, responseMap config routeId
          (Assoc.find (lit "responses") operation) origin = .ok responses) ∧
        (∀ key, (responses.get key).isSome = true ↔
          (∃ schema status, .successJson schema status ∈ calls ∧ key = Nat.toDigits 10 status) ∨
          ∃ status code, .knownProblem status code ∈ calls ∧ key = Nat.toDigits 10 status) ∧
        ∀ status code, .knownProblem status code ∈ calls → ∃ response items,
          responses.get (Nat.toDigits 10 status) = some response ∧
          response.mediaType = lit "application/problem+json" ∧
          enumeration response.schema = some (.array items) ∧ items.Nodup ∧
          ∀ item, item ∈ items ↔ ∃ code, .knownProblem status code ∈ calls ∧ item = .string code := by
  obtain ⟨contract, called, build⟩ := Result.bind_eq_ok.mp returned
  have collected := collected_of_calls called
  obtain ⟨status, schema, succeeds, rfl⟩ := build_ok build
  have success : .successJson schema status ∈ calls := (collected.success status schema).mp succeeds
  obtain ⟨responses, readResponses, keys, problems⟩ :=
    responseMap_declared config collected succeeds (derived _ success schema rfl)
  generalize ObjectMap.insertAll [successField status schema]
    (contract.problems.entries.map problemField) = fields at readResponses ⊢
  obtain ⟨parameters, readParameters, declared⟩ := parameterMap_declared config routeId
    (fun entry member => readable_of_derived derived (collected.parameters.mem_iff.mp member))
    (parameterValues_requestPart contract (.object fields))
  obtain ⟨body, readBody⟩ := readsBody_of_collected config collected derived
    (find_requestBody contract (.object fields))
  rw [← find_responses contract] at readResponses
  obtain ⟨rfl, rfl, rfl⟩ := collected.route
  have entry := fun key => @ObjectMap.find_ofList Json _ [
    (lit "route_id", .string contract.routeId),
    (lit "method", .string contract.method), (lit "path", .string contract.path),
    (lit "operation", .object (requestPart contract ++ [(lit "responses", .object fields)]))]
    nodup_built key
  refine ⟨_, entry _, Contract.validate_ok.mpr ⟨_, _, rfl, entry _, entry _, entry _, entry _,
    ⟨parameters, parameters, readParameters _, readParameters _,
      .refl (Contract.equal_self_of_parameterMap (readParameters (lit "generated")))⟩,
    ⟨body, body, readBody, readBody, Contract.sameBody_self readBody⟩,
    ⟨responses, responses, readResponses _, readResponses _,
      .refl (Contract.equal_self_of_responseMap (readResponses (lit "generated")))⟩⟩,
    ⟨parameters, readParameters, ?_⟩, responses, readResponses, fun key => ?_,
    fun status code known => ?_⟩
  · rw [declared]
    refine (collected.parameters.map _).trans (.of_eq ?_)
    rw [List.map_flatMap]
    exact List.flatMap_congr fun call _ => flags_eq_declares call
  · rw [keys]
    refine or_congr ?_ ?_
    · constructor
      · rintro rfl
        exact ⟨schema, status, success, rfl⟩
      · rintro ⟨schema', status', member, rfl⟩
        rw [← collected.success, succeeds] at member
        cases member
        rfl
    · constructor
      · rintro ⟨problem, member, rfl⟩
        obtain ⟨-, ⟨code, known⟩, -⟩ := collected.stored _ _ (SortedMap.get_of_mem member)
        exact ⟨problem.1, code, known, rfl⟩
      · rintro ⟨status', code, known, rfl⟩
        obtain ⟨codes, found, -⟩ := collected.declared status' code known
        exact ⟨(status', codes), SortedMap.mem_of_get found, rfl⟩
  · obtain ⟨codes, found, -⟩ := collected.declared status code known
    obtain ⟨response, items, there, media, listed, all⟩ :=
      problems (status, codes) (SortedMap.mem_of_get found)
    refine ⟨response, items, there, media, listed, all.nodup_iff.mpr ?_, fun item => ?_⟩
    · exact codes.sorted.nodup.map fun _ _ same => Json.string.inj same
    · rw [all.mem_iff, List.mem_map]
      constructor
      · rintro ⟨code, member, rfl⟩
        obtain ⟨-, -, only⟩ := collected.stored status codes found
        obtain ⟨entry, inside, rfl⟩ := List.mem_map.mp member
        exact ⟨entry.1, only entry.1 (SortedMap.get_of_mem inside), rfl⟩
      · rintro ⟨code, declares, rfl⟩
        obtain ⟨codes', again, member⟩ := collected.declared status code declares
        cases found.symm.trans again
        exact ⟨code, List.mem_map.mpr ⟨(code, ()), SortedMap.mem_of_get member, rfl⟩, rfl⟩

end Whole

end Accepts

attribute [local instance] FieldOrder.byInsertion

/-- A path type with a property of a named type. -/
def orderPath : Json :=
  .object [(lit "$defs", .object [(lit "OrderId", ofType "string")]),
    (lit "properties", .object [(lit "order_id",
      .object [(lit "$ref", .string (lit "#/$defs/OrderId"))])]),
    (lit "required", .array [.string (lit "order_id")]), (lit "type", .string (lit "object"))]

theorem mentions_orderPath {reference : Str} (mentioned : Mentions orderPath reference) :
    reference = lit "#/$defs/" ++ lit "OrderId" := by
  have text : ∀ text, ¬ Mentions (.string text) reference := fun _ => not_mentions_scalar rfl
  simp only [orderPath, mentions_object, mentions_array, List.mem_cons, List.not_mem_nil, or_false,
    exists_eq_or_imp, exists_eq_left, not_mentions_ofType, text] at mentioned
  obtain outer | definitions | properties | refers := mentioned
  · cases outer
  · cases definitions
  · cases properties
  · cases refers
    rfl

theorem derived_orderPath : Derived orderPath where
  grounded := by
    have target : ∀ root, Grounded root (ofType "string") :=
      fun _ => .of_not_mentions fun _ => not_mentions_ofType
    refine .intro (fun reference mentioned => ?_) fun name value mentioned defined => ?_
    · exact ⟨lit "OrderId", _, mentions_orderPath mentioned, rfl⟩
    · cases List.append_cancel_left (mentions_orderPath mentioned)
      cases defined
      exact target _
  properties properties listed := by
    cases listed
    decide

theorem derived_ofType (name : String) : Derived (ofType name) :=
  ⟨.of_not_mentions fun _ => not_mentions_ofType, nofun⟩

/-- A path parameter, a success response and a problem with two codes. -/
def orderCalls : List BuilderCall :=
  [.knownProblem 422 (lit "invalid_order"), .path orderPath, .successJson (ofType "string") 201,
    .knownProblem 422 (lit "closed_order")]

theorem built_contract_accepted_order :
    ∃ built, run (lit "orders.create") (lit "POST") (lit "/orders/\x7border_id\x7d") orderCalls =
        .ok built ∧ ∀ config, ∃ operation, built.get (lit "operation") = some (.object operation) ∧
      Contract.validate config (lit "orders.create") (lit "POST")
        (lit "/orders/\x7border_id\x7d") operation built = .ok () := by
  have returned : (run (lit "orders.create") (lit "POST") (lit "/orders/\x7border_id\x7d")
      orderCalls).toOption.isSome = true := by decide +kernel
  have derived : ∀ call ∈ orderCalls, ∀ schema, call.schema = some schema → Derived schema := by
    simp only [orderCalls, List.forall_mem_cons, List.not_mem_nil, false_imp_iff, implies_true,
      and_true]
    refine ⟨nofun, ?_, ?_, nofun⟩
    · rintro _ ⟨⟩
      exact derived_orderPath
    · rintro _ ⟨⟩
      exact derived_ofType "string"
  cases outcome : run (lit "orders.create") (lit "POST") (lit "/orders/\x7border_id\x7d")
      orderCalls with
  | error message =>
      rw [outcome] at returned
      cases returned
  | ok built =>
      refine ⟨built, rfl, fun config => ?_⟩
      obtain ⟨operation, found, accepted, -⟩ := built_contract_accepted derived outcome config
      exact ⟨operation, found, accepted⟩

end OpenApiContract

end OpenApi
