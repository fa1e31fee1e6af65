import LensoWeb.Endpoint.Extract
import LensoWeb.Foundation.JsonSchema
import LensoWeb.OpenApi.Builder.Accepted

/-!
# Strict contracts cover their extractors

`#[openapi_contract]` reads the argument types of a handler at compile time and writes down
which problems their extractors can answer with. The codes are literals of the macro; the
extractors have literals of their own, and the contract builder states the shape of a
problem in a third place.

A type is the last identifier of its path with its type arguments. What a type is decoded
into is given by its name, so every argument is one of the extractors of the Endpoint crate.
-/

namespace Endpoint

open Foundation Http Kernel OpenApi

open Ingress (utf8)

/-- `syn::Type`: a path, by its last identifier and the type arguments in angle brackets. -/
inductive Ty where
  | path (ident : Str) (arguments : Option (List Ty))
  | other

/-- `FnArg`. -/
inductive FnArg where
  | receiver
  | typed (ty : Ty)

/-- `final_type_ident`. -/
def finalTypeIdent : Ty → Option Str
  | .path ident _ => some ident
  | .other => none

/-- `extractor_type_argument`. -/
def extractorTypeArgument (ty : Ty) (expected : Str) : Except Str Ty :=
  match ty with
  | .other => .error (lit "strict OpenAPI " ++ expected ++ lit "<T> needs one type parameter")
  | .path ident arguments =>
      if ident ≠ expected then .error (lit "expected strict OpenAPI " ++ expected ++ lit "<T>")
      else
        match arguments with
        | some [inner] => .ok inner
        | _ => .error (lit "strict OpenAPI " ++ expected ++ lit "<T> needs one type parameter")

/-- `ContractProblem`. -/
structure ContractProblem where
  status : Nat
  code : Str
deriving DecidableEq

/-- `ContractBody`. -/
structure ContractBody where
  ty : Ty
  required : Bool

/-- `RequestContractShape`. -/
structure RequestContractShape where
  path : Option Ty
  query : Option Ty
  body : Option ContractBody
  problems : List ContractProblem

/-- `add_json_extractor_problems`. -/
def addJsonExtractorProblems (problems : List ContractProblem) : List ContractProblem :=
  problems ++ [⟨400, lit "invalid_json_body"⟩, ⟨415, lit "json_content_type_required"⟩]

/-- The two arms for a request body. -/
def addBody (shape : RequestContractShape) (ty : Ty) (required : Bool) :
    Except Str RequestContractShape := do
  if shape.body.isSome then
    .error (lit "a strict OpenAPI contract supports one Json<T> request body")
  else
    let inner ← extractorTypeArgument ty (lit "Json")
    return { shape with
      body := some ⟨inner, required⟩
      problems := addJsonExtractorProblems shape.problems }

/-- One round of `derive_strict_request_shape`, for a typed argument. -/
def addArgument (shape : RequestContractShape) (ty : Ty) : Except Str RequestContractShape :=
  let ident := finalTypeIdent ty
  if ident = some (lit "InvocationContext") ∨ ident = some (lit "RequestId") then .ok shape
  else if ident = some (lit "Path") then
    if shape.path.isSome then
      .error (lit "a strict OpenAPI contract supports one Path<T> extractor")
    else do
      let inner ← extractorTypeArgument ty (lit "Path")
      return { shape with
        path := some inner
        problems := shape.problems ++ [⟨400, lit "invalid_path_parameters"⟩] }
  else if ident = some (lit "QueryParams") then
    if shape.query.isSome then
      .error (lit "a strict OpenAPI contract supports one QueryParams<T> extractor")
    else do
      let inner ← extractorTypeArgument ty (lit "QueryParams")
      return { shape with
        query := some inner
        problems := shape.problems ++ [⟨400, lit "invalid_query"⟩] }
  else if ident = some (lit "Json") then addBody shape ty true
  else if ident = some (lit "Option") then do
    let inner ← extractorTypeArgument ty (lit "Option")
    if finalTypeIdent inner = some (lit "Json") then addBody shape inner false
    else .error (lit "strict OpenAPI contracts support Option only around Json<T>")
  else if ident = some (lit "Body") ∨ ident = some (lit "Headers") ∨
      ident = some (lit "HandleRequest") then
    .error (lit "strict OpenAPI contracts require typed Path, QueryParams, and Json values " ++
      lit "instead of raw request data")
  else
    .error (lit "strict OpenAPI contracts support InvocationContext, RequestId, Path<T>, " ++
      lit "QueryParams<T>, Json<T>, and Option<Json<T>> handler arguments")

/-- The types of the typed arguments. -/
def FnArg.ty : FnArg → Option Ty
  | .receiver => none
  | .typed ty => some ty

/-- `derive_strict_request_shape`. -/
def deriveStrictRequestShape (inputs : List FnArg) : Except Str RequestContractShape :=
  (inputs.filterMap FnArg.ty).foldlM addArgument ⟨none, none, none, []⟩

/-! ### Running the extractors -/

/-- The extractor that a type stands for. `none` is an argument that is handed over as it is,
an extractor outside the Endpoint crate, or no extractor at all. -/
inductive Extractor where
  | path (ty : Ty)
  | queryParams (ty : Ty)
  | json (ty : Ty)
  | optionalJson (ty : Ty)
  | requestId
  | body
  | headers

/-- `FromRequest` is implemented by type. -/
def extractorOf : Ty → Option Extractor
  | .path ident (some [inner]) =>
      if ident = lit "Path" then some (.path inner)
      else if ident = lit "QueryParams" then some (.queryParams inner)
      else if ident = lit "Json" then some (.json inner)
      else if ident = lit "Option" then
        match inner with
        | .path ident (some [inner]) =>
            if ident = lit "Json" then some (.optionalJson inner) else none
        | _ => none
      else none
  | .path ident _ =>
      if ident = lit "RequestId" then some .requestId
      else if ident = lit "Body" then some .body
      else if ident = lit "Headers" then some .headers
      else none
  | .other => none

/-- An extracted argument. -/
inductive Extracted (Value : Ty → Type) where
  | requestId (id : Str)
  | body (body : Bytes)
  | headers (values : List (Str × Str))
  | decoded (ty : Ty) (value : Value ty)
  | optional (ty : Ty) (value : Option (Value ty))

variable (library : Library) {Value : Ty → Type} (types : (ty : Ty) → DataType (Value ty))

/-- `FromRequest::from_request`. -/
def fromRequest (request : HandleRequest) :
    Extractor → Except ExtractorRejection (Extracted Value)
  | .path ty => (extractPath library (types ty) request).map (.decoded ty)
  | .queryParams ty => (extractQuery library (types ty) request).map (.decoded ty)
  | .json ty => (extractJson library (types ty) request).map (.decoded ty)
  | .optionalJson ty => (extractOptionalJson library (types ty) request).map (.optional ty)
  | .requestId => .ok (.requestId request.requestId)
  | .body => .ok (.body request.body)
  | .headers => .ok (.headers (request.headers.map fun header => (header.name, header.value)))

/-- The extraction steps of a dispatch arm, in the order of the arguments. -/
def runExtractors (inputs : List FnArg) (request : HandleRequest) :
    Except ExtractorRejection (List (Extracted Value)) :=
  ((inputs.filterMap FnArg.ty).filterMap extractorOf).mapM (fromRequest library types request)

/-- The problems that an extractor can answer with. -/
def Extractor.problems : Extractor → List ContractProblem
  | .path _ => [⟨400, lit "invalid_path_parameters"⟩]
  | .queryParams _ => [⟨400, lit "invalid_query"⟩]
  | .json _ => addJsonExtractorProblems []
  | .optionalJson _ => addJsonExtractorProblems []
  | _ => []

/-- A rejection is the response of a problem, with a status and a code that it declares. -/
def Declares (problems : List ContractProblem) (rejection : ExtractorRejection) : Prop :=
  ∃ status code detail, ⟨status.code, code⟩ ∈ problems ∧
    rejection = .response (problem library.canonicalReason status code detail)

theorem extractJson_declares {Value : Type} {type : DataType Value} {request : HandleRequest}
    {rejection : ExtractorRejection}
    (rejected : extractJson library type request = .error rejection) :
    Declares library (addJsonExtractorProblems []) rejection := by
  rw [extractJson] at rejected
  split at rejected
  · cases rejected
    exact ⟨unsupportedMediaType, _, _, List.mem_cons_of_mem _ List.mem_cons_self, rfl⟩
  · split at rejected
    · cases rejected
    · cases rejected
      exact ⟨.badRequest, _, _, List.mem_cons_self, rfl⟩

theorem fromRequest_declares {request : HandleRequest} {extractor : Extractor}
    {rejection : ExtractorRejection}
    (rejected : fromRequest library types request extractor = .error rejection) :
    Declares library extractor.problems rejection := by
  cases extractor with
  | path ty =>
      have declared : Declares library (Extractor.path ty).problems (invalidPath library) :=
        ⟨.badRequest, _, _, List.mem_cons_self, rfl⟩
      have failed := Result.map_eq_error rejected
      rw [extractPath] at failed
      split at failed
      · cases failed
        exact declared
      · split at failed
        · cases failed
        · cases failed
          exact declared
  | queryParams ty =>
      have failed := Result.map_eq_error rejected
      rw [extractQuery] at failed
      split at failed
      · cases failed
      · cases failed
        exact ⟨.badRequest, _, _, List.mem_cons_self, rfl⟩
  | json ty => exact extractJson_declares library (Result.map_eq_error rejected)
  | optionalJson ty =>
      have failed := Result.map_eq_error rejected
      rw [extractOptionalJson] at failed
      split at failed
      · cases failed
      · exact extractJson_declares library (Result.map_eq_error failed)
  | requestId => cases rejected
  | body => cases rejected
  | headers => cases rejected

/-! ### What the macro writes down -/

/-- A shape lists the problems of an argument's extractor. -/
def Covers (ty : Ty) (shape : RequestContractShape) : Prop :=
  ∀ extractor, extractorOf ty = some extractor → extractor.problems ⊆ shape.problems

theorem extractorTypeArgument_ok {ty inner : Ty} {expected : Str}
    (read : extractorTypeArgument ty expected = .ok inner) :
    ty = .path expected (some [inner]) := by
  unfold extractorTypeArgument at read
  split at read
  · cases read
  · split at read
    · cases read
    · next same =>
      obtain rfl := not_not.mp same
      split at read
      · cases read
        rfl
      · cases read

theorem addBody_covers {shape next : RequestContractShape} {ty : Ty} {required : Bool}
    (added : addBody shape ty required = .ok next) :
    next.problems = addJsonExtractorProblems shape.problems ∧
      ∃ inner, ty = .path (lit "Json") (some [inner]) := by
  rw [addBody] at added
  split at added
  · cases added
  · obtain ⟨inner, read, returned⟩ := Result.bind_eq_ok.mp added
    cases returned
    exact ⟨rfl, inner, extractorTypeArgument_ok read⟩

/-- No argument takes a problem away. -/
theorem addArgument_subset {shape next : RequestContractShape} {ty : Ty}
    (added : addArgument shape ty = .ok next) : shape.problems ⊆ next.problems := by
  have body : ∀ {inner required}, addBody shape inner required = .ok next →
      shape.problems ⊆ next.problems := by
    intro inner required placed
    rw [(addBody_covers placed).1]
    exact List.subset_append_left _ _
  simp only [addArgument] at added
  split at added
  · cases added
    exact List.Subset.refl _
  split at added
  · split at added
    · cases added
    · obtain ⟨inner, -, returned⟩ := Result.bind_eq_ok.mp added
      cases returned
      exact List.subset_append_left _ _
  split at added
  · split at added
    · cases added
    · obtain ⟨inner, -, returned⟩ := Result.bind_eq_ok.mp added
      cases returned
      exact List.subset_append_left _ _
  split at added
  · exact body added
  split at added
  · obtain ⟨inner, -, placed⟩ := Result.bind_eq_ok.mp added
    split at placed
    · exact body placed
    · cases placed
  split at added <;> cases added

/-- The types that stand for an extractor with problems. -/
theorem extractorOf_cases {ty : Ty} {extractor : Extractor}
    (found : extractorOf ty = some extractor) :
    (∃ inner, ty = .path (lit "Path") (some [inner]) ∧ extractor = .path inner) ∨
    (∃ inner, ty = .path (lit "QueryParams") (some [inner]) ∧ extractor = .queryParams inner) ∨
    (∃ inner, ty = .path (lit "Json") (some [inner]) ∧ extractor = .json inner) ∨
    (∃ inner, ty = .path (lit "Option") (some [.path (lit "Json") (some [inner])]) ∧
      extractor = .optionalJson inner) ∨
    extractor.problems = [] := by
  unfold extractorOf at found
  split at found
  · next ident inner =>
    split at found
    · next same =>
      cases found
      exact .inl ⟨inner, by rw [same], rfl⟩
    split at found
    · next same =>
      cases found
      exact .inr (.inl ⟨inner, by rw [same], rfl⟩)
    split at found
    · next same =>
      cases found
      exact .inr (.inr (.inl ⟨inner, by rw [same], rfl⟩))
    split at found
    · next optional =>
      split at found
      · next name inside =>
        split at found
        · next same =>
          cases found
          exact .inr (.inr (.inr (.inl ⟨inside, by rw [optional, same], rfl⟩)))
        · cases found
      · cases found
    · cases found
  · refine .inr (.inr (.inr (.inr ?_)))
    split at found
    · cases found
      rfl
    split at found
    · cases found
      rfl
    split at found
    · cases found
      rfl
    · cases found
  · cases found

/-- One argument adds the problems of its extractor. -/
theorem addArgument_covers {shape next : RequestContractShape} {ty : Ty}
    (added : addArgument shape ty = .ok next) : Covers ty next := by
  intro extractor found
  have bodyProblems : ∀ {inner required}, addBody shape inner required = .ok next →
      addJsonExtractorProblems [] ⊆ next.problems := by
    intro inner required placed
    rw [(addBody_covers placed).1]
    exact List.subset_append_right _ _
  simp only [addArgument] at added
  obtain ⟨inner, rfl, rfl⟩ | ⟨inner, rfl, rfl⟩ | ⟨inner, rfl, rfl⟩ | ⟨inner, rfl, rfl⟩ | none :=
    extractorOf_cases found
  · rw [finalTypeIdent, if_neg (by decide), if_pos rfl] at added
    split at added
    · cases added
    · obtain ⟨_, -, returned⟩ := Result.bind_eq_ok.mp added
      cases returned
      exact List.subset_append_right _ _
  · rw [finalTypeIdent, if_neg (by decide), if_neg (by decide), if_pos rfl] at added
    split at added
    · cases added
    · obtain ⟨_, -, returned⟩ := Result.bind_eq_ok.mp added
      cases returned
      exact List.subset_append_right _ _
  · rw [finalTypeIdent, if_neg (by decide), if_neg (by decide), if_neg (by decide),
      if_pos rfl] at added
    exact bodyProblems added
  · rw [finalTypeIdent, if_neg (by decide), if_neg (by decide), if_neg (by decide),
      if_neg (by decide), if_pos rfl] at added
    obtain ⟨_, -, placed⟩ := Result.bind_eq_ok.mp added
    split at placed
    · exact bodyProblems placed
    · cases placed
  · rw [none]
    exact List.nil_subset _

/-- A derived shape lists the problems of every extractor of the handler. -/
theorem derived_covers {inputs : List FnArg} {shape : RequestContractShape}
    (derived : deriveStrictRequestShape inputs = .ok shape) :
    ∀ ty ∈ inputs.filterMap FnArg.ty, Covers ty shape := by
  have made : ∀ shape ty next, addArgument shape ty = .ok next → Covers ty next :=
    fun _ _ _ added => addArgument_covers added
  have kept : ∀ shape ty next earlier, addArgument shape ty = .ok next → Covers earlier shape →
      Covers earlier next := by
    intro shape ty next earlier added covered extractor found
    exact List.Subset.trans (covered extractor found) (addArgument_subset added)
  exact (Result.foldlM_marks made kept derived).1

/-- What the extractors of a handler reject with is declared in its shape. -/
theorem runExtractors_declares {inputs : List FnArg} {shape : RequestContractShape}
    {request : HandleRequest} {rejection : ExtractorRejection}
    (derived : deriveStrictRequestShape inputs = .ok shape)
    (rejected : runExtractors library types inputs request = .error rejection) :
    Declares library shape.problems rejection := by
  obtain ⟨extractor, member, failed⟩ := Result.mapM_eq_error rejected
  obtain ⟨ty, inside, found⟩ := List.mem_filterMap.mp member
  obtain ⟨status, code, detail, listed, response⟩ := fromRequest_declares library types failed
  exact ⟨status, code, detail, derived_covers derived ty inside extractor found listed, response⟩

/-! ### The contract -/

/-- A round over the declared errors of `extend_problem_contract`. -/
def declareError (problems : List ContractProblem) (error : ContractProblem) :
    Except Str (List ContractProblem) :=
  if !(400 ≤ error.status && error.status ≤ 599) then
    .error (lit "strict OpenAPI problem status must be between 400 and 599")
  else if (Str.trim error.code).isEmpty then
    .error (lit "a strict OpenAPI problem code must not be empty")
  else if error ∈ problems then
    .error (lit "a strict OpenAPI problem status and code may be declared only once")
  else .ok (problems ++ [error])

/-- `extend_problem_contract`, for an error type and the errors of the attribute. -/
def extendProblemContract (error : Ty) (errors problems : List ContractProblem) :
    Except Str (List ContractProblem) :=
  if finalTypeIdent error = some (lit "Problem") then
    if errors.isEmpty then
      .error (lit "a strict OpenAPI contract for Problem errors must enumerate errors = " ++
        lit "[(status, \"code\")]")
    else errors.foldlM declareError problems
  else if finalTypeIdent error = some (lit "EndpointHandleInvocationError") then
    if !errors.isEmpty then
      .error (lit "strict OpenAPI errors require a Problem handler error type")
    else .ok problems
  else
    .error (lit "strict OpenAPI contracts support Problem or EndpointHandleInvocationError " ++
      lit "handler errors")

/-- The calls of `contract_factory`. -/
def contractCalls (shape : RequestContractShape) (success : Ty) (successStatus : Nat)
    (problems : List ContractProblem) : List OpenApiContract.BuilderCall :=
  (shape.path.map fun ty => .path (types ty).schema).toList ++
  (shape.query.map fun ty => .query (types ty).schema).toList ++
  (shape.body.map fun body =>
    if body.required then .jsonBody (types body.ty).schema
    else .optionalJsonBody (types body.ty).schema).toList ++
  [.successJson (types success).schema successStatus] ++
  problems.map fun problem => .knownProblem problem.status problem.code

/-- Declared errors come behind the problems of the extractors. -/
theorem extendProblemContract_subset {error : Ty} {errors problems extended : List ContractProblem}
    (declared : extendProblemContract error errors problems = .ok extended) :
    problems ⊆ extended := by
  have round : ∀ {problems error next collected}, declareError problems error = .ok next →
      problems = collected → next = collected ++ [error] := by
    rintro problems error next collected added rfl
    rw [declareError] at added
    split at added
    · cases added
    split at added
    · cases added
    split at added
    · cases added
    · cases added
      rfl
  rw [extendProblemContract] at declared
  split at declared
  · split at declared
    · cases declared
    · have collected := @Result.foldlM_collects _ _ _ _ declareError
        (fun problems collected => problems = collected) (fun error => [error]) round
        _ _ _ _ declared rfl
      rw [collected]
      exact List.subset_append_left _ _
  split at declared
  · split at declared
    · cases declared
    · cases declared
      exact List.Subset.refl _
  · cases declared

theorem satisfies_ofType_string (text : Str) :
    Json.satisfies (ofType "string") (.string text) = true := rfl

section Built

variable [FieldOrder]

/-- A problem is a JSON object that satisfies the schema of its status and code. -/
theorem satisfies_problemSchema {problem : Problem} {codes : List Str}
    (listed : problem.code ∈ codes) :
    Json.satisfies (problemSchema problem.status.code codes) problem.toJson = true := by
  refine Json.satisfies_ofFields (by exact OpenApiContract.nodup_problemSchema) ?_
  intro keyword member
  simp only [List.mem_cons, List.not_mem_nil, or_false] at member
  obtain rfl | rfl | rfl | rfl := member
  · rfl
  · rfl
  · rw [Json.satisfiesKeyword, if_pos rfl]
    refine Json.satisfiesProperties_ofList (by exact OpenApiContract.nodup_problemProperties) ?_
    intro property member value found
    simp only [List.mem_cons, List.not_mem_nil, or_false] at member
    obtain rfl | rfl | rfl | rfl | rfl := member
    · cases found
      exact satisfies_ofType_string _
    · cases found
      exact satisfies_ofType_string _
    · cases found
      rw [Json.satisfies, Json.satisfiesAll_iff]
      intro keyword member
      obtain rfl := List.mem_singleton.mp member
      exact beq_self_eq_true _
    · cases found
      exact satisfies_ofType_string _
    · cases found
      refine Json.satisfies_ofFields (by exact OpenApiContract.nodup_codeSchema) ?_
      intro keyword member
      simp only [List.mem_cons, List.not_mem_nil, or_false] at member
      obtain rfl | rfl := member
      · rfl
      · exact List.contains_iff_mem.mpr (List.mem_map_of_mem listed)
  · rw [Json.satisfiesKeyword, if_neg (by decide), if_pos rfl, List.all_eq_true]
    intro field member
    rw [Bool.or_eq_true, List.contains_iff_mem]
    left
    -- The properties of the schema have the names of the fields of a problem.
    refine ObjectMap.mem_keys_insertAll.mpr (.inl ?_)
    have names : field.1 ∈ (problem.toJson.asObject.getD []).map Prod.fst :=
      List.mem_map_of_mem member
    exact names

/-- A built contract has an entry for every known problem. -/
theorem find_problem {routeId method path : Str} {calls : List OpenApiContract.BuilderCall}
    {built : Json} {status : Nat} {code : Str}
    (returned : OpenApiContract.run routeId method path calls = .ok built)
    (declared : .knownProblem status code ∈ calls) :
    ∃ operation responses codes, built.get (lit "operation") = some operation ∧
      operation.get (lit "responses") = some responses ∧
      responses.get (Nat.toDigits 10 status) = some (OpenApi.response
        (lit "Known problem response.") (lit "application/problem+json")
        (problemSchema status codes)) ∧ code ∈ codes := by
  obtain ⟨contract, called, returned⟩ := Result.bind_eq_ok.mp returned
  have collected := OpenApiContract.collected_of_calls called
  obtain ⟨success, schema, -, rfl⟩ := OpenApiContract.build_ok returned
  obtain ⟨codes, found, listed⟩ := collected.declared status code declared
  have stored : OpenApiContract.problemField (status, codes) ∈
      contract.problems.entries.map OpenApiContract.problemField :=
    List.mem_map_of_mem (SortedMap.mem_of_get found)
  refine ⟨_, _, codes.entries.map Prod.fst,
    Json.get_ofFields (by exact OpenApiContract.nodup_built) (lit "operation"),
    OpenApiContract.find_responses contract _, ?_, ?_⟩
  · rw [Json.get, Json.asObject, Option.bind_some,
      ObjectMap.find_insertAll (OpenApiContract.nodup_problemFields collected),
      Assoc.find_of_mem (OpenApiContract.nodup_problemFields collected) stored, Option.some_or]
  · exact List.mem_map_of_mem (SortedMap.mem_of_get listed)

/-- The names that a problem response has, in the order of its body. -/
def problemKeys : List Str :=
  [lit "type", lit "title", lit "status", lit "detail", lit "code"]

/-- A contract that the macro builds for a handler with this shape. -/
def Builds (shape : RequestContractShape) (built : Json) : Prop :=
  ∃ error errors problems success successStatus routeId method path,
    extendProblemContract error errors shape.problems = .ok problems ∧
    OpenApiContract.run routeId method path
      (contractCalls types shape success successStatus problems) = .ok built

/-- A response that a shape covers: its status and code are declared together, and its body
is a problem that satisfies the schema of the entry which every contract built from the shape
has for the status. -/
def Covered (shape : RequestContractShape) (response : HandleResponse) : Prop :=
  ∃ (status : Nat) (code : Str) (fields : List (Str × Json)),
    ⟨status, code⟩ ∈ shape.problems ∧ response.status = status ∧
    response.headers = [⟨lit "content-type", lit "application/problem+json; charset=utf-8"⟩] ∧
    response.body = utf8 (Json.object fields).render ∧ fields.map Prod.fst = problemKeys ∧
    (Json.object fields).get (lit "code") = some (.string code) ∧
    ∀ built, Builds types shape built →
      ∃ operation responses codes, built.get (lit "operation") = some operation ∧
        operation.get (lit "responses") = some responses ∧
        responses.get (Nat.toDigits 10 status) = some (OpenApi.response
          (lit "Known problem response.") (lit "application/problem+json")
          (problemSchema status codes)) ∧
        code ∈ codes ∧ Json.satisfies (problemSchema status codes) (.object fields) = true

theorem Declares.covered {shape : RequestContractShape} {response : HandleResponse}
    (declares : Declares library shape.problems (.response response)) :
    Covered types shape response := by
  obtain ⟨status, code, detail, listed, rejection⟩ := declares
  cases rejection
  refine ⟨status.code, code, _, listed, rfl, rfl, rfl, rfl, rfl, ?_⟩
  rintro built ⟨error, errors, problems, success, successStatus, routeId, method, path, extended,
    returned⟩
  have known : .knownProblem status.code code ∈
      contractCalls types shape success successStatus problems :=
    List.mem_append_right _ (List.mem_map.mpr
      ⟨⟨status.code, code⟩, extendProblemContract_subset extended listed, rfl⟩)
  obtain ⟨operation, responses, codes, atOperation, atResponses, entry, inside⟩ :=
    find_problem returned known
  exact ⟨operation, responses, codes, atOperation, atResponses, entry, inside,
    @satisfies_problemSchema _ (Problem.new library.canonicalReason status code detail) codes
      inside⟩

/-- Whenever an extractor of a handler rejects, the strict contract of the handler covers the
response. -/
theorem rejections_covered {inputs : List FnArg} {shape : RequestContractShape}
    {request : HandleRequest} {response : HandleResponse}
    (derived : deriveStrictRequestShape inputs = .ok shape)
    (rejected : runExtractors library types inputs request = .error (.response response)) :
    Covered types shape response :=
  Declares.covered library types (runExtractors_declares library types derived rejected)

end Built

/-- The schema of a type with one named text. -/
def orderSchema : Json :=
  .object [(lit "properties", .object [(lit "order_id", ofType "string")]),
    (lit "type", .string (lit "object"))]

/-- Types whose form encoding is always read and whose body never is. -/
def orderTypes : (ty : Ty) → DataType Unit := fun _ => ⟨orderSchema, fun _ => none, fun _ => some ()⟩

/-- `async fn update(&self, path: Path<Order>, body: Json<Order>)`. -/
def updateOrder : List FnArg :=
  [.receiver, .typed (.path (lit "Path") (some [.path (lit "Order") none])),
    .typed (.path (lit "Json") (some [.path (lit "Order") none]))]

attribute [local instance] FieldOrder.byInsertion

/-- A body without a content type is rejected, as the contract says. -/
theorem rejections_covered_update :
    ∃ shape response, deriveStrictRequestShape updateOrder = .ok shape ∧
      (∃ built, Builds orderTypes shape built) ∧ Covered orderTypes shape response := by
  let library : Library := ⟨fun _ => none, fun _ => some []⟩
  have outcome : ∃ shape response, deriveStrictRequestShape updateOrder = .ok shape ∧
      runExtractors library orderTypes updateOrder ⟨[], [], [], none, lit "1"⟩ =
        .error (.response response) ∧ ∃ built, Builds orderTypes shape built := by
    refine ⟨_, _, rfl, rfl, _, .path (lit "EndpointHandleInvocationError") none, [], _,
      .path (lit "Order") none, 200, lit "orders.update", lit "PUT", lit "/orders/x", rfl, rfl⟩
  obtain ⟨shape, response, derived, rejected, built⟩ := outcome
  exact ⟨shape, response, derived, built, rejections_covered library orderTypes derived rejected⟩

end Endpoint
