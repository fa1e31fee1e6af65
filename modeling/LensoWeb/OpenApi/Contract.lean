import LensoWeb.OpenApi.Depth

/-!
# Strict contracts

A strict contract is the operation that a typed handler generates. The validator
reads the generated and the authored operation in the same way, into maps of
parameters and responses and an optional request body, and compares what it read;
schemas are compared in their canonical form, as JSON values.
-/

namespace OpenApi

open Foundation

variable [FieldOrder]

namespace Contract

/-- A message about a route. -/
def about (routeId : Str) (rest : Str) : Str := lit "route " ++ routeId ++ rest

/-- `require_string`. -/
def requireString (contract : List (Str × Json)) (field actual routeId : Str) :
    Except Str Unit :=
  match (Assoc.find field contract).bind Json.asStr with
  | none => .error (about routeId (lit " has a generated contract without string " ++ field))
  | some expected =>
      if expected ≠ actual then
        .error (about routeId (lit " strict OpenAPI contract drifted " ++ field ++
          lit ": generated `" ++ expected ++ lit "`, declared `" ++ actual ++ lit "`"))
      else .ok ()

/-- `resolve_component`. -/
def resolveComponent (config : OpenApiConfig) (value : Json) (part routeId : Str) :
    Except Str Json :=
  match (value.get (lit "$ref")).bind Json.asStr with
  | none => .ok value
  | some reference =>
      match Str.strip (lit "#/components/" ++ part ++ lit "/") reference with
      | none => .error (about routeId (lit " uses unsupported OpenAPI reference " ++ reference))
      | some name =>
          if name.isEmpty || name.contains '/' then
            .error (about routeId (lit " uses invalid OpenAPI reference " ++ reference))
          else match config.component part name with
            | some target => .ok target
            | none => .error (about routeId (lit " references missing OpenAPI component " ++
                reference))

/-- The two comparisons that follow a reading: the keys, and then the entries. -/
def compareEntries {κ ν : Type} [LinearOrder κ] (equal : ν → ν → Bool)
    (expected actual : SortedMap κ ν) (keysDiffer : Str) (entryDiffers : κ → Str) :
    Except Str Unit :=
  if expected.entries.map Prod.fst ≠ actual.entries.map Prod.fst then .error keysDiffer
  else match expected.entries.find? fun entry => !(actual.get entry.1).any (equal entry.2) with
    | some entry => .error (entryDiffers entry.1)
    | none => .ok ()

/-! ### Parameters -/

/-- `Parameter`. -/
structure Parameter where
  required : Bool
  schema : Json
deriving DecidableEq

/-- `Parameter::eq`. -/
def Parameter.equal (left right : Parameter) : Bool :=
  left.required == right.required && left.schema.equal right.schema

/-- A location and a name, ordered by the location first. -/
abbrev ParameterKey := Str ×ₗ Str

def parameterKey (location name : Str) : ParameterKey := toLex (location, name)

/-- `validate_parameter_serialization`. -/
def validateParameterSerialization (parameter : List (Str × Json)) (location routeId name : Str) :
    Except Str Unit :=
  let defaultStyle := if location == lit "path" then lit "simple" else lit "form"
  let defaultExplode := location == lit "query"
  if ((Assoc.find (lit "style") parameter).bind Json.asStr).any (· != defaultStyle) then
    .error (about routeId (lit " strict OpenAPI " ++ location ++ lit " parameter " ++ name ++
      lit " uses a non-default serialization style"))
  else if ((Assoc.find (lit "explode") parameter).bind Json.asBool).any (· != defaultExplode) then
    .error (about routeId (lit " strict OpenAPI " ++ location ++ lit " parameter " ++ name ++
      lit " uses a non-default explode setting"))
  else if ((Assoc.find (lit "allowReserved") parameter).bind Json.asBool).getD false then
    .error (about routeId (lit " strict OpenAPI " ++ location ++ lit " parameter " ++ name ++
      lit " sets allowReserved"))
  else .ok ()

/-- A parameter of the path or the query, as one round of `parameter_map` reads it. -/
def readParameter (config : OpenApiConfig) (routeId location : Str) (object : List (Str × Json)) :
    Except Str (ParameterKey × Parameter) :=
  match (Assoc.find (lit "name") object).bind Json.asStr with
  | none => .error (about routeId (lit " has a " ++ location ++ lit " parameter without a name"))
  | some name =>
      match (Assoc.find (lit "required") object).bind Json.asBool with
      | none => .error (about routeId (lit " " ++ location ++ lit " parameter " ++ name ++
          lit " must declare required"))
      | some required =>
          if location == lit "path" && !required then
            .error (about routeId (lit " path parameter " ++ name ++ lit " must be required"))
          else do
            validateParameterSerialization object location routeId name
            match Assoc.find (lit "schema") object with
            | none => .error (about routeId (lit " " ++ location ++ lit " parameter " ++ name ++
                lit " has no schema"))
            | some schema =>
                let schema ← canonicalSchema config schema routeId
                return (parameterKey location name, ⟨required, schema⟩)

/-- What one round of `parameter_map` reads; other locations are passed over. -/
def readEntry (config : OpenApiConfig) (routeId origin : Str) (value : Json) :
    Except Str (Option (ParameterKey × Parameter)) := do
  let value ← resolveComponent config value (lit "parameters") routeId
  match value.asObject with
  | none => .error (about routeId (lit " has a non-object " ++ origin ++
      lit " OpenAPI parameter"))
  | some object =>
      match (Assoc.find (lit "in") object).bind Json.asStr with
      | none => .error (about routeId (lit " has an OpenAPI parameter without a location"))
      | some location =>
          if !(location == lit "path" || location == lit "query") then .ok none
          else return some (← readParameter config routeId location object)

/-- One round of `parameter_map`. -/
def addParameter (config : OpenApiConfig) (routeId origin : Str)
    (parameters : SortedMap ParameterKey Parameter) (value : Json) :
    Except Str (SortedMap ParameterKey Parameter) := do
  match ← readEntry config routeId origin value with
  | none => .ok parameters
  | some (key, parameter) =>
      if (parameters.get key).isSome then
        .error (about routeId (lit " declares the same " ++ (ofLex key).1 ++ lit " parameter " ++
          (ofLex key).2 ++ lit " more than once"))
      else .ok (parameters.insert key parameter)

/-- `parameter_map`. -/
def parameterMap (config : OpenApiConfig) (routeId : Str) (value : Option Json) (origin : Str) :
    Except Str (SortedMap ParameterKey Parameter) :=
  match value with
  | none => .ok ∅
  | some value =>
      match value.asArray with
      | none => .error (about routeId (lit " has non-array " ++ origin ++
          lit " OpenAPI parameters"))
      | some values => values.foldlM (addParameter config routeId origin) ∅

/-- `validate_parameters`. -/
def validateParameters (config : OpenApiConfig) (routeId : Str)
    (expected operation : List (Str × Json)) : Except Str Unit := do
  let expected ← parameterMap config routeId (Assoc.find (lit "parameters") expected)
    (lit "generated")
  let actual ← parameterMap config routeId (Assoc.find (lit "parameters") operation)
    (lit "authored")
  compareEntries Parameter.equal expected actual
    (about routeId (lit " strict OpenAPI path or query parameters differ from its typed handler"))
    fun key => about routeId (lit " strict OpenAPI " ++ (ofLex key).1 ++ lit " parameter `" ++
      (ofLex key).2 ++ lit "` differs from its typed handler")

/-! ### Bodies and responses -/

/-- `media_schema`. -/
def mediaSchema (config : OpenApiConfig) (routeId : Str) (object : List (Str × Json))
    (expectedMediaType origin : Str) : Except Str Json :=
  match (Assoc.find (lit "content") object).bind Json.asObject with
  | none => .error (about routeId (lit " " ++ origin ++
      lit " OpenAPI content must be an object"))
  | some content =>
      if content.length ≠ 1 ∨ (Assoc.find expectedMediaType content).isNone then
        .error (about routeId (lit " " ++ origin ++ lit " OpenAPI content must contain only " ++
          expectedMediaType))
      else match (Assoc.find expectedMediaType content).bind Json.asObject with
        | none => .error (about routeId (lit " " ++ origin ++ lit " OpenAPI " ++
            expectedMediaType ++ lit " content must be an object"))
        | some media =>
            match Assoc.find (lit "schema") media with
            | none => .error (about routeId (lit " " ++ origin ++ lit " OpenAPI " ++
                expectedMediaType ++ lit " content has no schema"))
            | some schema => canonicalSchema config schema routeId

/-- `RequestBody`. -/
structure RequestBody where
  required : Bool
  schema : Json
deriving DecidableEq

/-- `RequestBody::eq`. -/
def RequestBody.equal (left right : RequestBody) : Bool :=
  left.required == right.required && left.schema.equal right.schema

/-- `request_body`. -/
def requestBody (config : OpenApiConfig) (routeId : Str) (value : Json) (origin : Str) :
    Except Str RequestBody :=
  match value.asObject with
  | none => .error (about routeId (lit " has a non-object " ++ origin ++
      lit " OpenAPI requestBody"))
  | some object => do
      let required := ((Assoc.find (lit "required") object).bind Json.asBool).getD false
      let schema ← mediaSchema config routeId object (lit "application/json") origin
      return ⟨required, schema⟩

/-- `validate_request_body`. -/
def validateRequestBody (config : OpenApiConfig) (routeId : Str)
    (expected operation : List (Str × Json)) : Except Str Unit :=
  match Assoc.find (lit "requestBody") expected, Assoc.find (lit "requestBody") operation with
  | none, none => .ok ()
  | some expected, some actual => do
      let expected ← resolveComponent config expected (lit "requestBodies") routeId
      let actual ← resolveComponent config actual (lit "requestBodies") routeId
      let expected ← requestBody config routeId expected (lit "generated")
      let actual ← requestBody config routeId actual (lit "authored")
      if !expected.equal actual then
        .error (about routeId
          (lit " strict OpenAPI JSON request body differs from its typed handler"))
      else .ok ()
  | _, _ => .error (about routeId
      (lit " strict OpenAPI request body differs from its typed handler"))

/-- `Response`. -/
structure Response where
  mediaType : Str
  schema : Json
deriving DecidableEq

/-- `Response::eq`. -/
def Response.equal (left right : Response) : Bool :=
  left.mediaType == right.mediaType && left.schema.equal right.schema

/-- The number that decimal digits denote, below a bound; a plus sign is allowed. -/
def parseBelow (bound : Nat) (text : Str) : Option Nat :=
  let digits := if text.head? = some '+' then text.tail else text
  if digits ≠ [] ∧ digits.all Char.isDigit = true then
    (some (digits.foldl (fun number digit => number * 10 + (digit.toNat - 48)) 0)).filter (· < bound)
  else none

/-- `is_status_code`. A text that parses is ASCII, so its length in characters is its
length in bytes. -/
def isStatusCode (status : Str) : Bool :=
  status.length == 3 && (parseBelow 65536 status).any fun code => 100 ≤ code && code ≤ 599

/-- The media type that a response must have. -/
def responseMediaType (status : Str) : Str :=
  if (lit "2").isPrefixOf status then lit "application/json" else lit "application/problem+json"

/-- One round of `response_map`. -/
def addResponse (config : OpenApiConfig) (routeId origin : Str) (responses : SortedMap Str Response)
    (field : Str × Json) : Except Str (SortedMap Str Response) :=
  if !isStatusCode field.1 then
    .error (about routeId (lit " strict OpenAPI response key " ++ field.1 ++
      lit " is not an explicit HTTP status"))
  else do
    let value ← resolveComponent config field.2 (lit "responses") routeId
    match value.asObject with
    | none => .error (about routeId (lit " has a non-object " ++ origin ++ lit " response " ++
        field.1))
    | some object =>
        let schema ← mediaSchema config routeId object (responseMediaType field.1) origin
        return responses.insert field.1 ⟨responseMediaType field.1, schema⟩

/-- `response_map`. -/
def responseMap (config : OpenApiConfig) (routeId : Str) (value : Option Json) (origin : Str) :
    Except Str (SortedMap Str Response) :=
  match value.bind Json.asObject with
  | none => .error (about routeId (lit " has a non-object " ++ origin ++
      lit " OpenAPI responses field"))
  | some object => object.foldlM (addResponse config routeId origin) ∅

/-- `validate_responses`. -/
def validateResponses (config : OpenApiConfig) (routeId : Str)
    (expected operation : List (Str × Json)) : Except Str Unit := do
  let expected ← responseMap config routeId (Assoc.find (lit "responses") expected)
    (lit "generated")
  let actual ← responseMap config routeId (Assoc.find (lit "responses") operation)
    (lit "authored")
  compareEntries Response.equal expected actual
    (about routeId
      (lit " strict OpenAPI success or known error responses differ from its typed handler"))
    fun status => about routeId (lit " strict OpenAPI response " ++ status ++
      lit " differs from its typed handler")

/-- `validate`. -/
def validate (config : OpenApiConfig) (routeId method path : Str)
    (operation : List (Str × Json)) (contract : Json) : Except Str Unit :=
  match contract.asObject with
  | none => .error (about routeId (lit " has a non-object generated strict OpenAPI contract"))
  | some contract => do
      requireString contract (lit "route_id") routeId routeId
      requireString contract (lit "method") method routeId
      requireString contract (lit "path") path routeId
      match (Assoc.find (lit "operation") contract).bind Json.asObject with
      | none => .error (about routeId (lit " has a generated contract without an operation"))
      | some expected =>
          validateParameters config routeId expected operation
          validateRequestBody config routeId expected operation
          validateResponses config routeId expected operation

end Contract

end OpenApi
