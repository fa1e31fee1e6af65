import LensoWeb.OpenApi.Contract.Accepted

/-!
# The contract builder

`OpenApiContract` derives the operation that an authored operation must match from
the types of a handler. A call of the builder carries the schema that was derived
for its type; a builder run is a list of such calls, and ends in `build`.
-/

namespace OpenApi

open Foundation

open Contract (ParameterKey parameterKey)

variable [FieldOrder]

mutual

/-- `contains_local_definition_reference`. -/
def containsLocalDefinitionReference : Json → Bool
  | .object fields =>
      (referenceOf fields).any (lit "#/$defs/").isPrefixOf || anyFieldContains fields
  | .array items => anyItemContains items
  | _ => false

def anyItemContains : List Json → Bool
  | [] => false
  | item :: rest => containsLocalDefinitionReference item || anyItemContains rest

def anyFieldContains : List (Str × Json) → Bool
  | [] => false
  | (_, value) :: rest => containsLocalDefinitionReference value || anyFieldContains rest

end

/-- `response`. -/
def response (description mediaType : Str) (schema : Json) : Json :=
  .ofFields [(lit "description", .string description),
    (lit "content", .object [(mediaType, .object [(lit "schema", schema)])])]

/-- A schema with nothing but a type. -/
def ofType (name : String) : Json := .object [(lit "type", .string (lit name))]

/-- `problem_schema`. -/
def problemSchema (status : Nat) (codes : List Str) : Json :=
  .ofFields [(lit "type", .string (lit "object")),
    (lit "required", .array [.string (lit "type"), .string (lit "title"), .string (lit "status"),
      .string (lit "detail"), .string (lit "code")]),
    (lit "properties", .ofFields [
      (lit "type", ofType "string"),
      (lit "title", ofType "string"),
      (lit "status", .object [(lit "const", .number (.ofNat status))]),
      (lit "detail", ofType "string"),
      (lit "code", .ofFields [(lit "type", .string (lit "string")),
        (lit "enum", .array (codes.map Json.string))])]),
    (lit "additionalProperties", .bool false)]

/-- `OpenApiContract`. -/
structure OpenApiContract where
  routeId : Str
  method : Str
  path : Str
  parameters : SortedMap ParameterKey Json
  requestBody : Option Json
  success : Option (Nat × Json)
  problems : SortedMap Nat (SortedMap Str Unit)

namespace OpenApiContract

/-- `new`. -/
def new (routeId method path : Str) : OpenApiContract :=
  ⟨routeId, method, path, ∅, none, none, ∅⟩

/-! ### Parameters -/

/-- The names that a schema lists as required. -/
def requiredNames (root : List (Str × Json)) : List Str :=
  (((Assoc.find (lit "required") root).bind Json.asArray).getD []).filterMap Json.asStr

/-- The schema of a property, with the definitions it may refer to. -/
def propertySchema (definitions : Option Json) (schema : Json) : Json :=
  match containsLocalDefinitionReference schema, definitions, schema with
  | true, some definitions, .object fields =>
      .object (ObjectMap.insert (lit "$defs") definitions fields)
  | _, _, schema => schema

/-- A parameter of the generated operation. -/
def parameterValue (location name : Str) (required : Bool) (schema : Json) : Json :=
  .ofFields [(lit "name", .string name), (lit "in", .string location),
    (lit "required", .bool required), (lit "schema", schema)]

/-- One round over the properties of a schema. -/
def addParameter (location : Str) (requiredForAll : Bool) (root : List (Str × Json))
    (parameters : SortedMap ParameterKey Json) (property : Str × Json) :
    Except Str (SortedMap ParameterKey Json) :=
  if (parameters.get (parameterKey location property.1)).isSome then
    .error (lit "strict OpenAPI contract declares " ++ location ++ lit " parameter `" ++
      property.1 ++ lit "` more than once")
  else .ok (parameters.insert (parameterKey location property.1)
    (parameterValue location property.1
      (requiredForAll || (requiredNames root).contains property.1)
      (propertySchema (Assoc.find (lit "$defs") root) property.2)))

/-- `add_parameters`. -/
def addParameters (contract : OpenApiContract) (schema : Json) (location : Str)
    (requiredForAll : Bool) : Except Str OpenApiContract :=
  match schema.asObject with
  | none => .error (lit "strict OpenAPI " ++ location ++
      lit " parameters must derive from an object schema")
  | some root =>
      match (Assoc.find (lit "properties") root).bind Json.asObject with
      | none => .error (lit "strict OpenAPI " ++ location ++
          lit " parameters must derive named object properties")
      | some properties =>
          if properties.isEmpty then
            .error (lit "strict OpenAPI " ++ location ++
              lit " parameters must declare at least one property")
          else do
            let parameters ← properties.foldlM (addParameter location requiredForAll root)
              contract.parameters
            return { contract with parameters }

/-- `set_json_body`. -/
def setJsonBody (contract : OpenApiContract) (schema : Json) (required : Bool) :
    Except Str OpenApiContract :=
  if contract.requestBody.isSome then
    .error (lit "a strict OpenAPI contract can declare only one JSON request body")
  else .ok { contract with requestBody := some (.ofFields [(lit "required", .bool required),
    (lit "content", .object [(lit "application/json", .object [(lit "schema", schema)])])]) }

/-- `success_json`. -/
def successJson (contract : OpenApiContract) (schema : Json) (status : Nat) :
    Except Str OpenApiContract :=
  if !(200 ≤ status && status ≤ 299) then
    .error (lit "strict OpenAPI success status " ++ Nat.toDigits 10 status ++
      lit " must be between 200 and 299")
  else if contract.success.isSome then
    .error (lit "a strict OpenAPI contract can declare only one success response")
  else .ok { contract with success := some (status, schema) }

/-- `known_problem`. -/
def knownProblem (contract : OpenApiContract) (status : Nat) (code : Str) :
    Except Str OpenApiContract :=
  if !(400 ≤ status && status ≤ 599) then
    .error (lit "strict OpenAPI problem status " ++ Nat.toDigits 10 status ++
      lit " must be between 400 and 599")
  else if (Str.trim code).isEmpty then
    .error (lit "a strict OpenAPI problem code must not be empty")
  else
    let codes := (contract.problems.get status).getD ∅
    .ok { contract with problems := contract.problems.insert status (codes.insert code ()) }

/-- A call of the builder, with the schema that was derived for its type. -/
inductive BuilderCall where
  | path (schema : Json)
  | query (schema : Json)
  | jsonBody (schema : Json)
  | optionalJsonBody (schema : Json)
  | successJson (schema : Json) (status : Nat)
  | knownProblem (status : Nat) (code : Str)

/-- What a call does. -/
def call (contract : OpenApiContract) : BuilderCall → Except Str OpenApiContract
  | .path schema => contract.addParameters schema (lit "path") true
  | .query schema => contract.addParameters schema (lit "query") false
  | .jsonBody schema => contract.setJsonBody schema true
  | .optionalJsonBody schema => contract.setJsonBody schema false
  | .successJson schema status => contract.successJson schema status
  | .knownProblem status code => contract.knownProblem status code

/-! ### Building -/

/-- One round over the problems. -/
def addProblem (successStatus : Nat) (responses : List (Str × Json))
    (problem : Nat × SortedMap Str Unit) : Except Str (List (Str × Json)) :=
  if problem.1 = successStatus then
    .error (lit "known problem status " ++ Nat.toDigits 10 problem.1 ++
      lit " conflicts with the success response")
  else .ok (ObjectMap.insert (Nat.toDigits 10 problem.1)
    (response (lit "Known problem response.") (lit "application/problem+json")
      (problemSchema problem.1 (problem.2.entries.map Prod.fst))) responses)

/-- The operation without its responses; both orders are the same here. -/
def requestPart (contract : OpenApiContract) : List (Str × Json) :=
  (if contract.parameters.entries.isEmpty then []
    else [(lit "parameters", .array (contract.parameters.entries.map Prod.snd))]) ++
  (contract.requestBody.map fun body => (lit "requestBody", body)).toList

/-- `build`. -/
def build (contract : OpenApiContract) : Except Str Json :=
  match contract.success with
  | none => .error (lit "a strict OpenAPI contract needs one JSON success response")
  | some (status, schema) => do
      let responses ← contract.problems.entries.foldlM (addProblem status)
        [(Nat.toDigits 10 status,
          response (lit "Successful response.") (lit "application/json") schema)]
      let operation := requestPart contract ++ [(lit "responses", Json.object responses)]
      return .ofFields [(lit "route_id", .string contract.routeId),
        (lit "method", .string contract.method), (lit "path", .string contract.path),
        (lit "operation", .object operation)]

/-- A run of the builder. -/
def run (routeId method path : Str) (calls : List BuilderCall) : Except Str Json := do
  let contract ← calls.foldlM call (new routeId method path)
  contract.build

end OpenApiContract

end OpenApi
