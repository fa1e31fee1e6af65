import LensoWeb.OpenApi.Assemble.Order
import LensoWeb.OpenApi.Assemble.Template

/-!
# The parameters of an emitted operation

A contract is checked against the authored operation, and the parameters of the path
are completed afterwards. The check looks through references to components, the
completion does not: it counts a name as declared only where the operation itself
spells it out. What is emitted has the parameters of the path, each once, exactly
when the references do not add to what is spelled out.
-/

namespace OpenApi

open Foundation

section Either

variable [FieldOrder]

/-! ### Declared parameters -/

/-- The parameter values of an operation; anything but an array has none. -/
def parameterItems (operation : List (Str × Json)) : List Json :=
  ((Assoc.find (lit "parameters") operation).bind Json.asArray).getD []

/-- A parameter value after resolution, if it can be resolved to an object. -/
def resolvedParameter (config : OpenApiConfig) (routeId : Str) (value : Json) :
    Option (List (Str × Json)) :=
  match Contract.resolveComponent config value (lit "parameters") routeId with
  | .ok resolved => resolved.asObject
  | .error _ => none

def locationOf (parameter : List (Str × Json)) : Option Str :=
  (Assoc.find (lit "in") parameter).bind Json.asStr

def nameOf (parameter : List (Str × Json)) : Option Str :=
  (Assoc.find (lit "name") parameter).bind Json.asStr

def requiredOf (parameter : List (Str × Json)) : Option Bool :=
  (Assoc.find (lit "required") parameter).bind Json.asBool

/-- The name of a path parameter, where it has one. -/
def pathName (parameter : List (Str × Json)) : Option (Option Str) :=
  if locationOf parameter = some (lit "path") then some (nameOf parameter) else none

/-- The location and the name of a path or query parameter. -/
def locatedName (parameter : List (Str × Json)) : Option (Str × Str) :=
  match locationOf parameter, nameOf parameter with
  | some location, some name =>
      if location = lit "path" ∨ location = lit "query" then some (location, name) else none
  | _, _ => none

/-- The names that a value itself spells out for the path. -/
def inlineName (value : Json) : Option Str :=
  (value.asObject.bind pathName).join

/-- The names that the values themselves spell out for the path. -/
def inlineNames (values : List Json) : List Str := values.filterMap inlineName

section Declared

variable (config : OpenApiConfig) (routeId : Str)

def resolvedParameters (values : List Json) : List (List (Str × Json)) :=
  values.filterMap (resolvedParameter config routeId)

/-- The names of the path parameters, after resolution. -/
def pathNames (values : List Json) : List (Option Str) :=
  (resolvedParameters config routeId values).filterMap pathName

/-- The locations and names of the path and query parameters, after resolution. -/
def locatedNames (values : List Json) : List (Str × Str) :=
  (resolvedParameters config routeId values).filterMap locatedName

end Declared

/-- The contract that a route carries. -/
def Route.contract (route : Route) : Option Json :=
  Assoc.find contractExtension (route.openapi.getD ∅).entries

/-- The parameter values that a route carries. -/
def Route.parameterItems (route : Route) : List Json :=
  OpenApi.parameterItems (route.openapi.getD ∅).entries

/-- An operation that declares the parameters of the path, each once and required, has no
located name twice, and is still accepted by the contract of its route. -/
structure SoundOperation (config : OpenApiConfig) (route : Route) (names : List Str)
    (operation : List (Str × Json)) : Prop where
  exact : (pathNames config route.routeId (parameterItems operation)).Perm (names.map some)
  required : ∀ parameter ∈ resolvedParameters config route.routeId (parameterItems operation),
    locationOf parameter = some (lit "path") → requiredOf parameter = some true
  distinct : (locatedNames config route.routeId (parameterItems operation)).Nodup
  accepted : ∀ contract, route.contract = some contract →
    Contract.validate config route.routeId route.method route.path operation contract = .ok ()

/-- What a route must carry for that: after resolution its path parameters are required,
and they are those parameters of the path that it spells out itself, each once; no query
parameter comes twice; and beside a contract it spells out all parameters of the path. -/
structure SoundRoute (config : OpenApiConfig) (route : Route) (names : List Str) : Prop where
  exact : (pathNames config route.routeId route.parameterItems).Perm
    ((names.filter fun name => name ∈ inlineNames route.parameterItems).map some)
  required : ∀ parameter ∈ resolvedParameters config route.routeId route.parameterItems,
    locationOf parameter = some (lit "path") → requiredOf parameter = some true
  distinct : ((locatedNames config route.routeId route.parameterItems).filter fun located =>
    located.1 = lit "query").Nodup
  spelled : route.contract.isSome = true → ∀ name ∈ names,
    name ∈ inlineNames route.parameterItems

/-! ### What completion adds -/

omit [FieldOrder] in
theorem declareParameter_ok {routeId : Str} {declared next : Finset Str} {value : Json}
    (round : declareParameter routeId declared value = .ok next) :
    next = declared ∪ (inlineName value).toFinset := by
  rw [declareParameter] at round
  split at round
  · cases round
  · next parameter isObject =>
    have shape : inlineName value = (pathName parameter).join := by
      rw [inlineName, isObject, Option.bind_some]
    rw [shape, pathName, locationOf]
    split at round
    · next elsewhere =>
      cases round
      rw [if_neg elsewhere]
      simp
    · next here =>
      rw [if_pos (not_not.mp here)]
      split at round
      · cases round
      · next name named =>
        split at round
        · cases round
        · cases round
          rw [nameOf, named, Option.join_some, Option.toFinset_some, Finset.union_comm]
          rfl

omit [FieldOrder] in
theorem declareParameters_ok {routeId : Str} {values : List Json} {declared final : Finset Str}
    (looped : values.foldlM (declareParameter routeId) declared = .ok final) :
    final = declared ∪ (inlineNames values).toFinset := by
  induction values generalizing declared with
  | nil =>
      cases looped
      simp [inlineNames]
  | cons value rest ih =>
      rw [List.foldlM_cons] at looped
      obtain ⟨next, first, later⟩ := Result.bind_eq_ok.mp looped
      rw [ih later, declareParameter_ok first, Finset.union_assoc]
      congr 1
      rw [inlineNames, inlineNames, List.filterMap_cons]
      cases inlineName value with
      | none => simp
      | some name => simp

/-- Completion adds the names that are not declared. -/
theorem completeParameters_eq {names : List Str} (distinct : names.Nodup) (declared : Finset Str)
    (values : List Json) :
    (names.foldl completeParameter (declared, values)).2 =
      values ++ (names.filter fun name => name ∉ declared).map pathParameter := by
  induction names generalizing declared values with
  | nil => simp
  | cons name rest ih =>
      rw [List.nodup_cons] at distinct
      rw [List.foldl_cons, completeParameter]
      by_cases known : name ∈ declared
      · rw [if_pos known, ih distinct.2, List.filter_cons_of_neg (by simp [known])]
      · have others : rest.filter (fun other => other ∉ insert name declared) =
            rest.filter fun other => other ∉ declared := by
          refine List.filter_congr fun other member => ?_
          have apart : other ≠ name := fun same => distinct.1 (same ▸ member)
          simp [apart]
        rw [if_neg known, ih distinct.2, others, List.filter_cons_of_pos (by simp [known])]
        simp

section Added

local instance lawfulBEqStr : LawfulBEq Str := inferInstance

/-- The names that completion adds to a list of values. -/
def addedNames (names : List Str) (values : List Json) : List Str :=
  names.filter fun name => name ∉ inlineNames values

end Added

/-- The parameters of a completed operation. -/
theorem parameterItems_ensure {routeId : Str} {names : List Str} (distinct : names.Nodup)
    {operation completed : List (Str × Json)}
    (ensured : ensurePathParameters routeId names operation = .ok completed) :
    parameterItems completed = parameterItems operation ++
      (addedNames names (parameterItems operation)).map pathParameter := by
  rw [ensurePathParameters] at ensured
  split at ensured
  · next none =>
    cases ensured
    rw [List.isEmpty_iff.mp none]
    simp [addedNames]
  · split at ensured
    · cases ensured
    · next values isArray =>
      obtain ⟨declared, looped, returned⟩ := Result.bind_eq_ok.mp ensured
      cases returned
      have items : parameterItems operation = values := by
        rw [parameterItems]
        rw [Json.asArray_eq_some] at isArray
        cases found : Assoc.find (lit "parameters") operation with
        | none =>
            rw [found] at isArray
            cases isArray
            rfl
        | some value =>
            rw [found, Option.getD_some] at isArray
            rw [isArray]
            rfl
      have known := declareParameters_ok looped
      rw [Finset.empty_union] at known
      rw [items, parameterItems, ObjectMap.find_insert, if_pos rfl, Option.bind_some, Json.asArray,
        Option.getD_some, completeParameters_eq distinct, known]
      simp [addedNames]

/-! ### Declared parameters of the emitted operation -/

section Added

variable {config : OpenApiConfig} {routeId : Str}

/-- The fields of an added parameter. -/
def addedFields (name : Str) : List (Str × Json) :=
  [(lit "name", .string name), (lit "in", .string (lit "path")), (lit "required", .bool true),
    (lit "schema", .object [(lit "type", .string (lit "string"))])]

/-- An added parameter as an object. -/
def addedParameter (name : Str) : List (Str × Json) := ObjectMap.ofList (addedFields name)

theorem find_addedParameter (name key : Str) :
    Assoc.find key (addedParameter name) = Assoc.find key (addedFields name) := by
  refine ObjectMap.find_ofList ?_ key
  have distinct : [lit "name", lit "in", lit "required", lit "schema"].Nodup := by decide
  exact distinct

theorem locationOf_added (name : Str) : locationOf (addedParameter name) = some (lit "path") := by
  rw [locationOf, find_addedParameter]
  rfl

theorem nameOf_added (name : Str) : nameOf (addedParameter name) = some name := by
  rw [nameOf, find_addedParameter]
  rfl

theorem requiredOf_added (name : Str) : requiredOf (addedParameter name) = some true := by
  rw [requiredOf, find_addedParameter]
  rfl

theorem pathName_added (name : Str) : pathName (addedParameter name) = some (some name) := by
  rw [pathName, locationOf_added, if_pos rfl, nameOf_added]

theorem locatedName_added (name : Str) :
    locatedName (addedParameter name) = some (lit "path", name) := by
  simp [locatedName, locationOf_added, nameOf_added]

theorem resolveComponent_added (name : Str) :
    Contract.resolveComponent config (pathParameter name) (lit "parameters") routeId =
      .ok (.object (addedParameter name)) := by
  refine Contract.resolveComponent_of_plain ?_
  have found : (pathParameter name).get (lit "$ref") = none := by
    refine (find_addedParameter name (lit "$ref")).trans ?_
    rfl
  rw [found]
  rfl

theorem resolvedParameters_added (values : List Json) (names : List Str) :
    resolvedParameters config routeId (values ++ names.map pathParameter) =
      resolvedParameters config routeId values ++ names.map addedParameter := by
  rw [resolvedParameters, resolvedParameters, List.filterMap_append]
  congr 1
  induction names with
  | nil => rfl
  | cons name rest ih =>
      rw [List.map_cons, List.map_cons, List.filterMap_cons_some (b := addedParameter name), ih]
      rw [resolvedParameter, resolveComponent_added]
      rfl

theorem pathNames_added (values : List Json) (names : List Str) :
    pathNames config routeId (values ++ names.map pathParameter) =
      pathNames config routeId values ++ names.map some := by
  rw [pathNames, pathNames, resolvedParameters_added, List.filterMap_append]
  congr 1
  induction names with
  | nil => rfl
  | cons name rest ih =>
      rw [List.map_cons, List.map_cons, List.filterMap_cons_some (pathName_added name), ih]

theorem locatedNames_added (values : List Json) (names : List Str) :
    locatedNames config routeId (values ++ names.map pathParameter) =
      locatedNames config routeId values ++ names.map fun name => (lit "path", name) := by
  rw [locatedNames, locatedNames, resolvedParameters_added, List.filterMap_append]
  congr 1
  induction names with
  | nil => rfl
  | cons name rest ih =>
      rw [List.map_cons, List.map_cons, List.filterMap_cons_some (locatedName_added name), ih]

end Added

/-! ### Located names -/

omit [FieldOrder] in
/-- The located names of the path are the names of the path parameters. -/
theorem locatedNames_path (parameters : List (List (Str × Json))) :
    (parameters.filterMap locatedName).filter (fun located => located.1 = lit "path") =
      (parameters.filterMap pathName).reduceOption.map fun name => (lit "path", name) := by
  induction parameters with
  | nil => rfl
  | cons parameter rest ih =>
      rw [List.filterMap_cons, List.filterMap_cons, locatedName, pathName]
      cases location : locationOf parameter with
      | none => simpa using ih
      | some place =>
          cases name : nameOf parameter with
          | none =>
              by_cases path : place = lit "path"
              · simpa [path] using ih
              · simpa [path] using ih
          | some name =>
              by_cases path : place = lit "path"
              · simpa [path] using ih
              · by_cases query : place = lit "query"
                · simpa [query, show lit "query" ≠ lit "path" by decide] using ih
                · simpa [path, query] using ih

omit [FieldOrder] in
/-- Located names are distinct when those of the path and those of the query are. -/
theorem locatedNames_nodup (parameters : List (List (Str × Json))) :
    (parameters.filterMap locatedName).Nodup ↔
      (parameters.filterMap pathName).reduceOption.Nodup ∧
      ((parameters.filterMap locatedName).filter fun located => located.1 = lit "query").Nodup := by
  have places : ∀ located ∈ parameters.filterMap locatedName,
      located.1 = lit "path" ∨ located.1 = lit "query" := by
    intro located member
    obtain ⟨parameter, -, found⟩ := List.mem_filterMap.mp member
    rw [locatedName] at found
    split at found
    · split at found
      · next here =>
        cases found
        exact here
      · cases found
    · cases found
  have inPath := locatedNames_path parameters
  have injective : Function.Injective fun name : Str => (lit "path", name) :=
    fun _ _ same => (Prod.mk.inj same).2
  rw [← List.nodup_map_iff injective, ← inPath]
  have others : (parameters.filterMap locatedName).filter (fun located => located.1 = lit "query") =
      (parameters.filterMap locatedName).filter fun located => !decide (located.1 = lit "path") := by
    refine List.filter_congr fun located member => ?_
    obtain here | here := places located member
    · rw [here]
      decide
    · rw [here]
      decide
  rw [others, ← (List.filter_append_perm (fun located : Str × Str => located.1 = lit "path")
    (parameters.filterMap locatedName)).nodup_iff, List.nodup_append']
  constructor
  · rintro ⟨left, right, -⟩
    exact ⟨left, right⟩
  · rintro ⟨left, right⟩
    refine ⟨left, right, ?_⟩
    intro located inLeft inRight
    have here := (List.mem_filter.mp inLeft).2
    have there := (List.mem_filter.mp inRight).2
    simp only [here, Bool.not_true, Bool.false_eq_true] at there

/-! ### The contract after completion -/

section Contract

variable {config : OpenApiConfig} {routeId : Str}

open Contract

omit [FieldOrder] in
theorem parameterItems_of_values {operation : List (Str × Json)} {values : List Json}
    (read : parameterValues (Assoc.find (lit "parameters") operation) = some values) :
    parameterItems operation = values := by
  rw [parameterItems]
  cases found : Assoc.find (lit "parameters") operation with
  | none =>
      rw [found] at read
      cases read
      rfl
  | some value =>
      rw [found, parameterValues] at read
      rw [Option.bind_some, read, Option.getD_some]

/-- Where the authored values can be read, the completed ones can. -/
theorem parameterValues_ensure {names : List Str} (distinct : names.Nodup)
    {operation completed : List (Str × Json)}
    (ensured : ensurePathParameters routeId names operation = .ok completed) {values : List Json}
    (read : parameterValues (Assoc.find (lit "parameters") operation) = some values) :
    parameterValues (Assoc.find (lit "parameters") completed) =
      some (values ++ (addedNames names values).map pathParameter) := by
  have items := parameterItems_ensure distinct ensured
  rw [parameterItems_of_values read] at items
  rw [ensurePathParameters] at ensured
  split at ensured
  · cases ensured
    rw [← items, parameterItems_of_values read, read]
  · split at ensured
    · cases ensured
    · obtain ⟨declared, -, returned⟩ := Result.bind_eq_ok.mp ensured
      cases returned
      rw [parameterItems, ObjectMap.find_insert, if_pos rfl, Option.bind_some, Json.asArray,
        Option.getD_some] at items
      rw [ObjectMap.find_insert, if_pos rfl, parameterValues, Json.asArray, items]

theorem readEntry_pathParameter {origin name : Str} {output : Option (ParameterKey × Parameter)}
    (read : readEntry config routeId origin (pathParameter name) = .ok output) :
    ∃ parameter, output = some (parameterKey (lit "path") name, parameter) := by
  obtain ⟨object, location, resolved, located, outcome⟩ := readEntry_ok.mp read
  cases (resolveComponent_added name).symm.trans resolved
  have path : Assoc.find (lit "in") (addedParameter name) = some (.string (lit "path")) :=
    find_addedParameter name (lit "in")
  cases path.symm.trans located
  rw [if_pos (.inl rfl)] at outcome
  obtain ⟨⟨key, parameter⟩, made, rfl⟩ := outcome
  obtain ⟨name', schema, named, -, -, -, -, -, rfl⟩ := readParameter_ok.mp made
  have itsName : Assoc.find (lit "name") (addedParameter name) = some (.string name) :=
    find_addedParameter name (lit "name")
  cases itsName.symm.trans named
  exact ⟨parameter, rfl⟩

/-- Values that are added and make no difference to the keys are none. -/
theorem parameterMap_added {origin : Str} {values : List Json} {names : List Str}
    {before after : Option Json} {map map' : SortedMap ParameterKey Parameter}
    (valuesBefore : parameterValues before = some values)
    (valuesAfter : parameterValues after = some (values ++ names.map pathParameter))
    (readBefore : parameterMap config routeId before origin = .ok map)
    (readAfter : parameterMap config routeId after origin = .ok map')
    (keys : map.entries.map Prod.fst = map'.entries.map Prod.fst) : names = [] := by
  obtain ⟨values', outputs, same, all, distinct, rfl⟩ := parameterMap_ok.mp readBefore
  cases valuesBefore.symm.trans same
  obtain ⟨values', outputs', same, all', distinct', rfl⟩ := parameterMap_ok.mp readAfter
  cases valuesAfter.symm.trans same
  have looped := Result.mapM_eq_ok.mpr all'
  rw [List.mapM_append, Result.mapM_eq_ok.mpr all] at looped
  obtain ⟨first, sameFirst, looped⟩ := Result.bind_eq_ok.mp looped
  cases sameFirst
  obtain ⟨added, readAdded, returned⟩ := Result.bind_eq_ok.mp looped
  cases returned
  have allAdded := Result.mapM_eq_ok.mp readAdded
  rw [List.reduceOption_append, List.map_append] at distinct'
  refine List.eq_nil_iff_forall_not_mem.mpr fun name member => ?_
  obtain ⟨output, listed, entered⟩ :=
    Result.exists_of_forall₂_left allAdded (List.mem_map.mpr ⟨name, member, rfl⟩)
  obtain ⟨parameter, rfl⟩ := readEntry_pathParameter entered
  have inAdded := List.reduceOption_mem_iff.mpr listed
  -- The new key is in the map after, but it cannot be in the map before.
  have fresh : parameterKey (lit "path") name ∉ outputs.reduceOption.map Prod.fst := by
    intro earlier
    exact (List.nodup_append'.mp distinct').2.2 earlier (List.mem_map.mpr ⟨_, inAdded, rfl⟩)
  have here : (SortedMap.insertAll ∅ (outputs ++ added).reduceOption).get
      (parameterKey (lit "path") name) = some parameter := by
    refine SortedMap.get_insertAll_of_mem ?_ ?_
    · rw [List.reduceOption_append, List.map_append]
      exact distinct'
    · rw [List.reduceOption_append]
      exact List.mem_append_right _ inAdded
  have listed : ((SortedMap.insertAll ∅ outputs.reduceOption).get
      (parameterKey (lit "path") name)).isSome = true := by
    rw [SortedMap.get_isSome_iff, keys, ← SortedMap.get_isSome_iff, here]
    rfl
  rw [SortedMap.get_insertAll_of_notMem distinct fresh] at listed
  cases listed

/-- The contract accepts the completed operation exactly when nothing was added. -/
theorem validate_completed {method path : Str} {contract : Json} {names : List Str}
    (distinct : names.Nodup) {authored completed : List (Str × Json)}
    (ensured : ensurePathParameters routeId names authored = .ok completed)
    (checked : validate config routeId method path authored contract = .ok ()) :
    validate config routeId method path
        (ObjectMap.insert (lit "operationId") (.string routeId) completed) contract = .ok () ↔
      addedNames names (parameterItems authored) = [] := by
  obtain ⟨fields, expected, rfl, route, verb, place, found, agrees⟩ := validate_ok.mp checked
  obtain ⟨left, right, generated, read, entries⟩ := agrees.parameters
  obtain ⟨values, outputs, isValues, -⟩ := parameterMap_ok.mp read
  have items := parameterItems_of_values isValues
  have isCompleted := parameterValues_ensure distinct ensured isValues
  have other : ∀ {key}, key ≠ lit "operationId" →
      Assoc.find key (ObjectMap.insert (lit "operationId") (.string routeId) completed) =
        Assoc.find key completed := by
    intro key apart
    rw [ObjectMap.find_insert, if_neg apart]
  rw [items]
  constructor
  · intro accepted
    obtain ⟨fields', expected', same, -, -, -, found', agrees'⟩ := validate_ok.mp accepted
    cases same
    cases found.symm.trans found'
    obtain ⟨left', right', generated', read', entries'⟩ := agrees'.parameters
    cases generated.symm.trans generated'
    rw [other (by decide)] at read'
    exact parameterMap_added isValues isCompleted read read'
      (entries.keys.symm.trans entries'.keys)
  · intro none
    rw [none, List.map_nil, List.append_nil] at isCompleted
    refine validate_ok.mpr ⟨fields, expected, rfl, route, verb, place, found, ?_, ?_, ?_⟩
    · refine ⟨left, right, generated, ?_, entries⟩
      rw [other (by decide)]
      obtain ⟨values', outputs, same, rest⟩ := parameterMap_ok.mp read
      cases isValues.symm.trans same
      exact parameterMap_ok.mpr ⟨values, outputs, isCompleted, rest⟩
    · obtain ⟨expectedBody, body, generated, reads, bodies⟩ := agrees.body
      refine ⟨expectedBody, body, generated, ?_, bodies⟩
      have same : Assoc.find (lit "requestBody")
          (ObjectMap.insert (lit "operationId") (.string routeId) completed) =
            Assoc.find (lit "requestBody") authored :=
        (other (by decide)).trans (find_ensurePathParameters ensured (by decide))
      cases body with
      | none => exact same.trans reads
      | some body =>
          obtain ⟨value, schema, there, rest⟩ := reads
          exact ⟨value, schema, same.trans there, rest⟩
    · obtain ⟨expectedResponses, responses, generated, reads, entries⟩ := agrees.responses
      refine ⟨expectedResponses, responses, generated, ?_, entries⟩
      rw [other (by decide), find_ensurePathParameters ensured (by decide)]
      exact reads

end Contract

/-! ### Routes and documents -/

section Routes

variable {config : OpenApiConfig} {route : Route} {names : List Str}
  {operation : List (Str × Json)}

theorem parameterItems_authored {authored : List (Str × Json)}
    (made : authoredOperation route = .ok authored) :
    parameterItems authored = route.parameterItems := by
  rw [parameterItems, Route.parameterItems, parameterItems,
    find_authoredOperation made (by decide),
    ObjectMap.find_remove (route.openapi.getD ∅).sorted.nodup, if_neg (by decide)]

theorem parameterItems_emitted (distinct : names.Nodup)
    (emitted : emittedOperation config route names = .ok operation) :
    parameterItems operation = route.parameterItems ++
      (addedNames names route.parameterItems).map pathParameter := by
  obtain ⟨authored, completed, made, -, ensured, rfl⟩ := emittedOperation_ok.mp emitted
  have items := parameterItems_ensure distinct ensured
  rw [parameterItems_authored made] at items
  rw [← items, parameterItems, ObjectMap.find_insert, if_neg (by decide), parameterItems]

theorem accepted_emitted_iff (distinct : names.Nodup)
    (emitted : emittedOperation config route names = .ok operation) {contract : Json}
    (carries : route.contract = some contract) :
    Contract.validate config route.routeId route.method route.path operation contract = .ok () ↔
      ∀ name ∈ names, name ∈ inlineNames route.parameterItems := by
  obtain ⟨authored, completed, made, checked, ensured, rfl⟩ := emittedOperation_ok.mp emitted
  have accepted : Contract.validate config route.routeId route.method route.path authored
      contract = .ok () := by
    rw [checkContract] at checked
    have found : Assoc.find contractExtension (route.openapi.getD ∅).entries = some contract :=
      carries
    rwa [found] at checked
  rw [validate_completed distinct ensured accepted, parameterItems_authored made, addedNames,
    List.filter_eq_nil_iff]
  simp

/-- The emitted operation of a route is sound exactly when the route is. -/
theorem soundOperation_iff (distinct : names.Nodup)
    (emitted : emittedOperation config route names = .ok operation) :
    SoundOperation config route names operation ↔ SoundRoute config route names := by
  have items := parameterItems_emitted distinct emitted
  have partition : (names.map some).Perm
      ((names.filter fun name => name ∈ inlineNames route.parameterItems).map some ++
        (addedNames names route.parameterItems).map some) := by
    rw [← List.map_append]
    apply List.Perm.map _
    have parts := (List.filter_append_perm
      (fun name => decide (name ∈ inlineNames route.parameterItems)) names).symm
    simpa [addedNames] using parts
  have exact : (pathNames config route.routeId (parameterItems operation)).Perm
        (names.map some) ↔
      (pathNames config route.routeId route.parameterItems).Perm
        ((names.filter fun name => name ∈ inlineNames route.parameterItems).map some) := by
    rw [items, pathNames_added]
    constructor
    · intro perm
      exact (List.perm_append_right_iff _).mp (perm.trans partition)
    · intro perm
      exact (perm.append_right _).trans partition.symm
  have required : (∀ parameter ∈ resolvedParameters config route.routeId
        (parameterItems operation),
        locationOf parameter = some (lit "path") → requiredOf parameter = some true) ↔
      ∀ parameter ∈ resolvedParameters config route.routeId route.parameterItems,
        locationOf parameter = some (lit "path") → requiredOf parameter = some true := by
    rw [items, resolvedParameters_added, List.forall_mem_append]
    apply and_iff_left
    intro parameter member _
    obtain ⟨name, -, rfl⟩ := List.mem_map.mp member
    exact requiredOf_added name
  have located : (pathNames config route.routeId (parameterItems operation)).Perm
        (names.map some) →
      ((locatedNames config route.routeId (parameterItems operation)).Nodup ↔
        ((locatedNames config route.routeId route.parameterItems).filter fun located =>
          located.1 = lit "query").Nodup) := by
    intro perm
    have paths : (pathNames config route.routeId (parameterItems operation)).reduceOption.Nodup := by
      have reduced := perm.filterMap id
      rw [List.filterMap_map] at reduced
      apply reduced.nodup_iff.mpr
      simpa using distinct
    have queries : (locatedNames config route.routeId (parameterItems operation)).filter
          (fun located => located.1 = lit "query") =
        (locatedNames config route.routeId route.parameterItems).filter
          fun located => located.1 = lit "query" := by
      rw [items, locatedNames_added, List.filter_append]
      simp [show lit "path" ≠ lit "query" by decide]
    refine (locatedNames_nodup _).trans ((and_iff_right paths).trans ?_)
    exact Iff.of_eq (congrArg List.Nodup queries)
  have accepted : (∀ contract, route.contract = some contract →
        Contract.validate config route.routeId route.method route.path operation contract =
          .ok ()) ↔
      (route.contract.isSome = true → ∀ name ∈ names,
        name ∈ inlineNames route.parameterItems) := by
    cases carries : route.contract with
    | none => simp
    | some contract =>
        have here := accepted_emitted_iff distinct emitted carries
        simpa using here
  constructor
  · intro sound
    exact ⟨exact.mp sound.exact, required.mp sound.required,
      (located sound.exact).mp sound.distinct, accepted.mp sound.accepted⟩
  · intro sound
    have perm := exact.mpr sound.exact
    exact ⟨perm, required.mpr sound.required, (located perm).mpr sound.distinct,
      accepted.mpr sound.spelled⟩

end Routes

/-- In an assembled document every operation is sound exactly when every route is. -/
theorem assembleDocument_sound_iff {config : OpenApiConfig} {descriptions : List DescribeResponse}
    {result : Document} (assembled : assembleDocument config descriptions = .ok result) :
    (∀ route ∈ descriptions.flatMap DescribeResponse.routes, ∀ rendered names operation,
        openapiPath route.routeId route.path = .ok (rendered, names) →
        ⟨rendered, route.documentMethod, .object operation⟩ ∈ placedOperations result.paths →
        SoundOperation config route names operation) ↔
      ∀ route ∈ descriptions.flatMap DescribeResponse.routes, ∀ rendered names,
        openapiPath route.routeId route.path = .ok (rendered, names) →
        SoundRoute config route names := by
  obtain ⟨placed, all, exact, -⟩ := assembleDocument_places assembled
  have places := placedOperations_nodup result.paths
  -- Each route has its emitted operation in the document, and no other at its place.
  have emits : ∀ route ∈ descriptions.flatMap DescribeResponse.routes, ∀ rendered names,
      openapiPath route.routeId route.path = .ok (rendered, names) →
      ∃ operation, emittedOperation config route names = .ok operation ∧
        ⟨rendered, route.documentMethod, .object operation⟩ ∈ placedOperations result.paths := by
    intro route member rendered names path
    obtain ⟨⟨path', method, value⟩, listed, operation, ⟨⟨names', path', emitted⟩, -⟩, rfl, rfl⟩ :=
      Result.exists_of_forall₂_left all member
    cases path.symm.trans path'
    exact ⟨operation, emitted, exact.mem_iff.mpr listed⟩
  constructor
  · intro sound route member rendered names path
    obtain ⟨operation, emitted, listed⟩ := emits route member rendered names path
    exact (soundOperation_iff (openapiPath_nodup path) emitted).mp
      (sound route member rendered names operation path listed)
  · intro sound route member rendered names operation path listed
    obtain ⟨operation', emitted, listed'⟩ := emits route member rendered names path
    have same := List.inj_on_of_nodup_map places listed listed' rfl
    cases same
    exact (soundOperation_iff (openapiPath_nodup path) emitted).mpr
      (sound route member rendered names path)

end Either

section

attribute [local instance] FieldOrder.byInsertion

/-- A configuration with a shared parameter. -/
def sharedConfig : OpenApiConfig where
  title := lit "Orders"
  version := lit "1"
  description := none
  documentPath := lit "/openapi.json"
  servers := []
  components := some [(lit "parameters", .object [(lit "Id", pathParameter (lit "id"))])]

/-- An operation that answers with a string. -/
def orderOperation (parameter : Json) : List (Str × Json) :=
  [(lit "parameters", .array [parameter]),
    (lit "responses", .object [(lit "200", .object [(lit "content", .object
      [(lit "application/json", .object
        [(lit "schema", .object [(lit "type", .string (lit "string"))])])])])])]

/-- A route with a contract, and with its parameter given as a value. -/
def orderRoute (parameter : Json) : Route where
  method := lit "GET"
  openapi := some (SortedMap.insertAll ∅ (orderOperation parameter ++ [(contractExtension, .object
    [(lit "method", .string (lit "GET")),
      (lit "operation", .object (orderOperation (pathParameter (lit "id")))),
      (lit "path", .string (lit "/orders/\x7bid\x7d")),
      (lit "route_id", .string (lit "orders.read"))])]))
  path := lit "/orders/\x7bid\x7d"
  routeId := lit "orders.read"

/-- The document with one operation for `orderRoute`. -/
def orderDocument (operation : List (Str × Json)) : Document :=
  document sharedConfig (SortedMap.insertAll ∅ [(lit "/orders/\x7bid\x7d",
    SortedMap.insertAll ∅ [(lit "get", .object operation)])])

/-- What `orderRoute` is emitted as when its parameters are these. -/
def orderEmitted (parameters : List Json) : List (Str × Json) :=
  ObjectMap.insert (lit "operationId") (.string (lit "orders.read"))
    (ObjectMap.insert (lit "parameters") (.array parameters) (orderOperation .null))

/-- A route that spells out its parameter is emitted as it was checked. -/
theorem assembleDocument_sound_spelled :
    SoundOperation sharedConfig (orderRoute (pathParameter (lit "id"))) [lit "id"]
      (orderEmitted [pathParameter (lit "id")]) := by
  have path : openapiPath (lit "orders.read") (lit "/orders/\x7bid\x7d") =
      .ok (lit "/orders/\x7bid\x7d", [lit "id"]) := by decide +kernel
  have assembled : assembleDocument sharedConfig [⟨[orderRoute (pathParameter (lit "id"))]⟩] =
      .ok (orderDocument (orderEmitted [pathParameter (lit "id")])) := by decide +kernel
  refine (assembleDocument_sound_iff assembled).mpr ?_ (orderRoute (pathParameter (lit "id")))
    (List.mem_singleton.mpr rfl) (lit "/orders/\x7bid\x7d") [lit "id"]
    (orderEmitted [pathParameter (lit "id")]) path (by decide +kernel)
  intro route member rendered names rendering
  obtain rfl := List.mem_singleton.mp member
  cases path.symm.trans rendering
  exact ⟨by decide +kernel, by decide +kernel, by decide +kernel, by decide +kernel⟩

/-- A route that refers to a shared parameter is checked and accepted, and is then emitted
with the parameter twice, which its own contract rejects. -/
theorem shared_parameter_emitted_twice :
    assembleDocument sharedConfig [⟨[orderRoute (.object
        [(lit "$ref", .string (lit "#/components/parameters/Id"))])]⟩] =
      .ok (orderDocument (orderEmitted [.object
        [(lit "$ref", .string (lit "#/components/parameters/Id"))], pathParameter (lit "id")])) ∧
    pathNames sharedConfig (lit "orders.read") [.object
        [(lit "$ref", .string (lit "#/components/parameters/Id"))], pathParameter (lit "id")] =
      [some (lit "id"), some (lit "id")] ∧
    ∃ contract, (orderRoute (.object
        [(lit "$ref", .string (lit "#/components/parameters/Id"))])).contract = some contract ∧
      Contract.validate sharedConfig (lit "orders.read") (lit "GET") (lit "/orders/\x7bid\x7d")
        (orderEmitted [.object [(lit "$ref", .string (lit "#/components/parameters/Id"))],
          pathParameter (lit "id")]) contract ≠ .ok () := by
  refine ⟨by decide +kernel, by decide +kernel, _, rfl, ?_⟩
  decide +kernel

end

end OpenApi
