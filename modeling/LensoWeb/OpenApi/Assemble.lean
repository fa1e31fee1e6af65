import LensoWeb.OpenApi.Contract.Accepted

/-!
# Assembling the document

One loop over all described routes fills the path table of the document. Each route
is checked on its own, and then against the routes before it: an operation id or a
place in the document may be taken only once. Writing the document out is left to
a parameter.
-/

namespace OpenApi

open Foundation

variable [FieldOrder]

/-- `DescribeResponseRoutesItem`. -/
structure Route where
  method : Str
  openapi : Option (SortedMap Str Json)
  path : Str
  routeId : Str
deriving DecidableEq

/-- `DescribeResponse`. -/
structure DescribeResponse where
  routes : List Route
deriving DecidableEq

/-! ### Path templates -/

/-- The loop of `openapi_path`: what is rendered so far, the parameters found so far,
and what remains of the path. -/
def openapiPathLoop (routeId rendered : Str) (parameters : List Str) (remainder : Str) :
    Except Str (Str × List Str) :=
  match _opened : remainder.dropWhile (· != '\x7b') with
  | [] =>
      if remainder.contains '\x7d' then
        .error (Contract.about routeId (lit " has an unmatched path parameter terminator"))
      else .ok (rendered ++ remainder, parameters)
  | _ :: afterStart =>
      match _closed : afterStart.dropWhile (· != '\x7d') with
      | [] => .error (Contract.about routeId (lit " has an unclosed path parameter"))
      | _ :: next =>
          let declared := afterStart.takeWhile (· != '\x7d')
          let name := (Str.strip (lit "*") declared).getD declared
          if declared.contains '\x7b' then
            .error (Contract.about routeId (lit " has a nested path parameter"))
          else if name.isEmpty || name.any Str.isWhitespace then
            .error (Contract.about routeId (lit " has an invalid path parameter"))
          else if parameters.contains name then
            .error (Contract.about routeId (lit " repeats path parameter " ++ name))
          else
            openapiPathLoop routeId
              (rendered ++ remainder.takeWhile (· != '\x7b') ++ lit "\x7b" ++ name ++ lit "\x7d")
              (parameters ++ [name]) next
termination_by remainder.length
decreasing_by
  have first := (List.dropWhile_sublist (· != '\x7b') (l := remainder)).length_le
  have second := (List.dropWhile_sublist (· != '\x7d') (l := afterStart)).length_le
  rw [_opened, List.length_cons] at first
  rw [_closed, List.length_cons] at second
  omega

/-- `openapi_path`: the path as the document writes it, and its parameters. -/
def openapiPath (routeId path : Str) : Except Str (Str × List Str) :=
  if !(lit "/").isPrefixOf path || path.any (lit "?#").contains then
    .error (Contract.about routeId (lit " does not use an absolute OpenAPI path"))
  else openapiPathLoop routeId [] [] path

example : openapiPath (lit "files") (lit "/files/\x7bid\x7d/\x7b*rest\x7d") =
    .ok (lit "/files/\x7bid\x7d/\x7brest\x7d", [lit "id", lit "rest"]) := by decide +kernel

/-! ### Parameters of the path -/

/-- One round over the declared parameters: the names that are declared for the path. -/
def declareParameter (routeId : Str) (declared : Finset Str) (parameter : Json) :
    Except Str (Finset Str) :=
  match parameter.asObject with
  | none => .error (Contract.about routeId (lit " has a non-object OpenAPI parameter"))
  | some parameter =>
      if (Assoc.find (lit "in") parameter).bind Json.asStr ≠ some (lit "path") then .ok declared
      else match (Assoc.find (lit "name") parameter).bind Json.asStr with
        | none => .error (Contract.about routeId (lit " has a path parameter without a name"))
        | some name =>
            if (Assoc.find (lit "required") parameter).bind Json.asBool ≠ some true then
              .error (Contract.about routeId (lit " path parameter " ++ name ++
                lit " must be required"))
            else .ok (insert name declared)

/-- The parameter that is added for a name. -/
def pathParameter (name : Str) : Json :=
  .ofFields [(lit "name", .string name), (lit "in", .string (lit "path")),
    (lit "required", .bool true),
    (lit "schema", .object [(lit "type", .string (lit "string"))])]

/-- One round over the names of the path. -/
def completeParameter (state : Finset Str × List Json) (name : Str) : Finset Str × List Json :=
  if name ∈ state.1 then state else (insert name state.1, state.2 ++ [pathParameter name])

/-- `ensure_path_parameters`. -/
def ensurePathParameters (routeId : Str) (pathParameters : List Str)
    (operation : List (Str × Json)) : Except Str (List (Str × Json)) :=
  if pathParameters.isEmpty then .ok operation
  else match ((Assoc.find (lit "parameters") operation).getD (.array [])).asArray with
    | none => .error (Contract.about routeId (lit " has a non-array OpenAPI parameters field"))
    | some parameters => do
        let declared ← parameters.foldlM (declareParameter routeId) ∅
        let completed := pathParameters.foldl completeParameter (declared, parameters)
        return ObjectMap.insert (lit "parameters") (.array completed.2) operation

/-! ### The loop over the routes -/

/-- `METHODS`. -/
def methods : List Str :=
  [lit "delete", lit "get", lit "head", lit "options", lit "patch", lit "post", lit "put",
    lit "trace"]

/-- `OPENAPI_CONTRACT_EXTENSION`. -/
def contractExtension : Str := lit "x-lenso-contract"

/-- The operation of a route without its contract, with a default for the responses. -/
def authoredOperation (route : Route) : Except Str (List (Str × Json)) :=
  let operation := ObjectMap.remove contractExtension (route.openapi.getD ∅).entries
  if (Assoc.find (lit "operationId") operation).isSome then
    .error (Contract.about route.routeId (lit " must not override its generated operationId"))
  else match Assoc.find (lit "responses") operation with
    | some (.object _) => .ok operation
    | some _ => .error (Contract.about route.routeId
        (lit " has a non-object OpenAPI responses field"))
    | none => .ok (ObjectMap.insert (lit "responses")
        (.object [(lit "default", .object
          [(lit "description", .string (lit "Undocumented response."))])]) operation)

/-- The check of a contract that a route carries. -/
def checkContract (config : OpenApiConfig) (route : Route) (operation : List (Str × Json)) :
    Except Str Unit :=
  match Assoc.find contractExtension (route.openapi.getD ∅).entries with
  | none => .ok ()
  | some contract =>
      Contract.validate config route.routeId route.method route.path operation contract

/-- The operation of a route, checked and completed. -/
def emittedOperation (config : OpenApiConfig) (route : Route) (pathParameters : List Str) :
    Except Str (List (Str × Json)) := do
  let operation ← authoredOperation route
  checkContract config route operation
  let operation ← ensurePathParameters route.routeId pathParameters operation
  return ObjectMap.insert (lit "operationId") (.string route.routeId) operation

/-- What the loop has collected: the operations by path and method, and their ids. -/
structure Assembly where
  paths : SortedMap Str (SortedMap Str Json)
  operationIds : Finset Str
deriving DecidableEq

namespace Assembly

def empty : Assembly := ⟨∅, ∅⟩

/-- The operation at a place. -/
def operationAt (assembly : Assembly) (path method : Str) : Option Json :=
  (assembly.paths.get path).bind fun methods => methods.get method

/-- Add an operation. -/
def add (assembly : Assembly) (path method routeId : Str) (operation : Json) : Assembly where
  paths := assembly.paths.insert path
    (((assembly.paths.get path).getD ∅).insert method operation)
  operationIds := insert routeId assembly.operationIds

end Assembly

/-- The method of a route as the document writes it. -/
def Route.documentMethod (route : Route) : Str := Str.lowercase (Str.trim route.method)

/-- One round of `assemble`. -/
def addRoute (config : OpenApiConfig) (assembly : Assembly) (route : Route) :
    Except Str Assembly := do
  let (path, pathParameters) ← openapiPath route.routeId route.path
  if !methods.contains route.documentMethod then
    .error (lit "route " ++ route.routeId ++ lit " uses HTTP method " ++ route.method ++
      lit " which OpenAPI 3.1 cannot describe")
  else if (Str.trim route.routeId).isEmpty then
    .error (lit "an OpenAPI route has an empty route ID")
  else if route.routeId ∈ assembly.operationIds then
    .error (lit "duplicate OpenAPI operationId " ++ route.routeId)
  else
    let operation ← emittedOperation config route pathParameters
    if (assembly.operationAt path route.documentMethod).isSome then
      .error (lit "duplicate OpenAPI route " ++ Str.uppercase route.documentMethod ++ lit " " ++
        path)
    else .ok (assembly.add path route.documentMethod route.routeId (.object operation))

/-- `Info`. -/
structure Info where
  title : Str
  version : Str
  description : Option Str
deriving DecidableEq

/-- `Document`. -/
structure Document where
  openapi : Str
  jsonSchemaDialect : Str
  info : Info
  paths : SortedMap Str (SortedMap Str Json)
  servers : List OpenApiServer
  components : Option (List (Str × Json))
deriving DecidableEq

/-- The document with the collected paths. -/
def document (config : OpenApiConfig) (paths : SortedMap Str (SortedMap Str Json)) : Document where
  openapi := lit "3.1.0"
  jsonSchemaDialect := lit "https://json-schema.org/draft/2020-12/schema"
  info := ⟨config.title, config.version, config.description⟩
  paths := paths
  servers := config.servers
  components := config.components

/-- The document that `assemble` writes out. -/
def assembleDocument (config : OpenApiConfig) (descriptions : List DescribeResponse) :
    Except Str Document := do
  let assembly ← (descriptions.flatMap DescribeResponse.routes).foldlM (addRoute config) .empty
  if assembly.paths.entries.isEmpty then
    .error (lit "OpenAPI requires at least one explicitly bound Endpoint")
  else .ok (document config assembly.paths)

/-- `assemble`, given how a document is written out. -/
def assemble (toVecPretty : Document → Except Str (List UInt8)) (config : OpenApiConfig)
    (descriptions : List DescribeResponse) : Except Str (List UInt8) := do
  let document ← assembleDocument config descriptions
  let bytes ← (toVecPretty document).mapError
    (lit "OpenAPI document serialization failed: " ++ ·)
  return bytes ++ [10]

end OpenApi
