import LensoWeb.Endpoint.Authoring

/-!
# Typed extraction

An Endpoint handler takes its arguments from the portable request by their types. An
extractor that cannot produce a value rejects with an RFC 9457 problem before the handler
runs.

Requests are modelled with texts as characters, since extraction trims and folds them; the
fields that no extractor reads are left out. A type is known by its schema and by what
deserialization makes of a body and of form-encoded text.
-/

namespace Endpoint

open Foundation Http Kernel

open Ingress (utf8)

structure HeaderItem where
  name : Str
  value : Str
deriving DecidableEq

/-- The fields of `HandleRequest` that extractors read. -/
structure HandleRequest where
  body : Bytes
  headers : List HeaderItem
  pathParameters : List (Str × Str)
  query : Option Str
  requestId : Str
deriving DecidableEq

/-- `HandleResponse`. -/
structure HandleResponse where
  body : Bytes
  headers : List HeaderItem
  status : Int
deriving DecidableEq

/-! ### Problems -/

def problemContentType : Str := lit "application/problem+json; charset=utf-8"

/-- `Problem`. -/
structure Problem where
  typeUri : Str
  title : Str
  status : StatusCode
  detail : Str
  code : Str
deriving DecidableEq

/-- `Problem::new`. The canonical reason of a status belongs to the HTTP library. -/
def Problem.new (canonicalReason : StatusCode → Option Str) (status : StatusCode)
    (code detail : Str) : Problem where
  typeUri := lit "about:blank"
  title := (canonicalReason status).getD (lit "HTTP error")
  status
  detail
  code

/-- What `Serialize` makes of a problem. -/
def Problem.toJson (problem : Problem) : Json :=
  .object [(lit "type", .string problem.typeUri), (lit "title", .string problem.title),
    (lit "status", .number (.ofNat problem.status.code)),
    (lit "detail", .string problem.detail), (lit "code", .string problem.code)]

/-- `with_content_type`. -/
def withContentType (status : StatusCode) (contentType : Str) (body : Bytes) : HandleResponse where
  body
  headers := [⟨lit "content-type", contentType⟩]
  status := status.code

/-- `Problem::into_response`. -/
def Problem.intoResponse (problem : Problem) : HandleResponse :=
  withContentType problem.status problemContentType (utf8 problem.toJson.render)

/-- `problem`. -/
def problem (canonicalReason : StatusCode → Option Str) (status : StatusCode)
    (code detail : Str) : HandleResponse :=
  (Problem.new canonicalReason status code detail).intoResponse

/-! ### Extractors -/

/-- A type that arguments are decoded into. -/
structure DataType (Value : Type) where
  schema : Json
  fromSlice : Bytes → Option Value
  fromUrlencoded : Str → Option Value

/-- What extraction uses of other libraries: the reasons of statuses, and the form encoding
of names and values. -/
structure Library where
  canonicalReason : StatusCode → Option Str
  toUrlencoded : List (Str × Str) → Option Str

/-- `ExtractorRejection`. -/
inductive ExtractorRejection where
  | response (response : HandleResponse)
  | invocation (failure : RuntimeFailure)
deriving DecidableEq

def unsupportedMediaType : StatusCode := ⟨415, by decide⟩

variable (library : Library) {Value : Type}

/-- `has_json_content_type`. -/
def hasJsonContentType (request : HandleRequest) : Bool :=
  request.headers.any fun header =>
    Str.lowercase header.name == lit "content-type" &&
      (header.value.splitOn ';').head?.any fun value =>
        Str.lowercase (Str.trim value) == lit "application/json"

/-- `extract_json`. -/
def extractJson (type : DataType Value) (request : HandleRequest) :
    Except ExtractorRejection Value :=
  if !hasJsonContentType request then
    .error (.response (problem library.canonicalReason unsupportedMediaType
      (lit "json_content_type_required")
      (lit "The request content type must be application/json.")))
  else
    match type.fromSlice request.body with
    | some value => .ok value
    | none => .error (.response (problem library.canonicalReason .badRequest
        (lit "invalid_json_body")
        (lit "The request body is not valid JSON for this endpoint.")))

/-- `invalid_path`. -/
def invalidPath : ExtractorRejection :=
  .response (problem library.canonicalReason .badRequest (lit "invalid_path_parameters")
    (lit "The route path parameters are not valid for this endpoint."))

/-- `extract_path`. -/
def extractPath (type : DataType Value) (request : HandleRequest) :
    Except ExtractorRejection Value :=
  match library.toUrlencoded request.pathParameters with
  | none => .error (invalidPath library)
  | some encoded =>
      match type.fromUrlencoded encoded with
      | some value => .ok value
      | none => .error (invalidPath library)

/-- `extract_query`. -/
def extractQuery (type : DataType Value) (request : HandleRequest) :
    Except ExtractorRejection Value :=
  match type.fromUrlencoded (request.query.getD []) with
  | some value => .ok value
  | none => .error (.response (problem library.canonicalReason .badRequest (lit "invalid_query")
      (lit "The query string is not valid for this endpoint.")))

/-- `Option<Json<T>>::from_request`: an empty body is an absent one. -/
def extractOptionalJson (type : DataType Value) (request : HandleRequest) :
    Except ExtractorRejection (Option Value) :=
  if request.body.isEmpty then .ok none else (extractJson library type request).map some

end Endpoint
