import LensoWeb.Http.Header

/-!
# Methods, status codes, request targets and messages

The remaining types of the `http` crate. A request target has one of four forms;
only the authority form has an empty path. How the crate parses the text of a
target is outside this development: `UriParser` stands for any parser with the
two documented properties that Ingress relies on.
-/

namespace Http

open Foundation

/-- A method token. Letter case is significant. -/
structure Method where
  token : Bytes
  nonempty : token ≠ []
  valid : token.all isTokenByte = true

namespace Method

theorem ext_token {left right : Method} (same : left.token = right.token) : left = right := by
  cases left
  cases right
  cases same
  rfl

instance : DecidableEq Method := fun left right =>
  decidable_of_iff (left.token = right.token) ⟨ext_token, congrArg token⟩

/-- `Method::from_bytes`. -/
def fromBytes (source : Bytes) : Option Method :=
  if valid : source ≠ [] ∧ source.all isTokenByte = true then
    some ⟨source, valid.1, valid.2⟩
  else none

def connect : Method := ⟨ascii "CONNECT", by decide, by decide⟩
def get : Method := ⟨ascii "GET", by decide, by decide⟩
def head : Method := ⟨ascii "HEAD", by decide, by decide⟩
def options : Method := ⟨ascii "OPTIONS", by decide, by decide⟩
def post : Method := ⟨ascii "POST", by decide, by decide⟩
def trace : Method := ⟨ascii "TRACE", by decide, by decide⟩

theorem isTokenByte_toUpper (byte : UInt8) :
    isTokenByte byte = true → isTokenByte (Text.toUpper byte) = true :=
  Text.forall_byte (P := fun b => isTokenByte b = true → isTokenByte (Text.toUpper b) = true)
    (by decide +kernel) byte

end Method

/-- A three-digit status code. -/
structure StatusCode where
  code : Nat
  valid : 100 ≤ code ∧ code < 1000
deriving DecidableEq

namespace StatusCode

/-- `StatusCode::from_u16`. -/
def fromU16 (code : Nat) : Option StatusCode :=
  if valid : 100 ≤ code ∧ code < 1000 then some ⟨code, valid⟩ else none

/-- `StatusCode::is_informational`. -/
def isInformational (status : StatusCode) : Bool := status.code < 200

def switchingProtocols : StatusCode := ⟨101, by decide⟩
def ok : StatusCode := ⟨200, by decide⟩
def noContent : StatusCode := ⟨204, by decide⟩
def notModified : StatusCode := ⟨304, by decide⟩
def badRequest : StatusCode := ⟨400, by decide⟩
def unauthorized : StatusCode := ⟨401, by decide⟩
def forbidden : StatusCode := ⟨403, by decide⟩
def notFound : StatusCode := ⟨404, by decide⟩
def methodNotAllowed : StatusCode := ⟨405, by decide⟩
def requestTimeout : StatusCode := ⟨408, by decide⟩
def payloadTooLarge : StatusCode := ⟨413, by decide⟩
def upgradeRequired : StatusCode := ⟨426, by decide⟩
def requestHeaderFieldsTooLarge : StatusCode := ⟨431, by decide⟩
def notImplemented : StatusCode := ⟨501, by decide⟩
def badGateway : StatusCode := ⟨502, by decide⟩
def serviceUnavailable : StatusCode := ⟨503, by decide⟩
def gatewayTimeout : StatusCode := ⟨504, by decide⟩

end StatusCode

/-- The protocol versions of the crate. -/
inductive Version where
  | http09
  | http10
  | http11
  | http2
  | http3
deriving DecidableEq

/-- A path as a target stores it: rooted, and without the two delimiters. -/
structure UriPath where
  text : Bytes
  rooted : text.head? = some 47
  noQuery : (63 : UInt8) ∉ text
  noFragment : (35 : UInt8) ∉ text
deriving DecidableEq

theorem UriPath.text_ne_nil (path : UriPath) : path.text ≠ [] := by
  intro empty
  have rooted := path.rooted
  rw [empty] at rooted
  cases rooted

/-- A query as a target stores it. -/
structure UriQuery where
  text : Bytes
  noFragment : (35 : UInt8) ∉ text
deriving DecidableEq

/-- A parsed request target. In absolute form the stored path may be missing; the
asterisk carries scheme and authority where HTTP/2 delivers them with it. -/
inductive Uri where
  | originForm (path : UriPath) (query : Option UriQuery)
  | absoluteForm (scheme authority : Bytes) (path : Option UriPath) (query : Option UriQuery)
  | asteriskForm (origin : Option (Bytes × Bytes))
  | authorityForm (authority : Bytes)
deriving DecidableEq

namespace Uri

/-- `Uri::path`: a missing path is `/` behind a scheme and empty behind none. -/
def path : Uri → Bytes
  | originForm path _ => path.text
  | absoluteForm _ _ path _ => (path.map UriPath.text).getD (ascii "/")
  | asteriskForm _ => ascii "*"
  | authorityForm _ => []

/-- `Uri::query`. -/
def query : Uri → Option Bytes
  | originForm _ query => query.map UriQuery.text
  | absoluteForm _ _ _ query => query.map UriQuery.text
  | asteriskForm _ => none
  | authorityForm _ => none

/-- `Uri::scheme_str`. -/
def scheme : Uri → Option Bytes
  | absoluteForm scheme _ _ _ => some scheme
  | asteriskForm origin => origin.map Prod.fst
  | _ => none

/-- `Uri::authority`. -/
def authority : Uri → Option Bytes
  | absoluteForm _ authority _ _ => some authority
  | asteriskForm origin => origin.map Prod.snd
  | authorityForm authority => some authority
  | _ => none

/-- The text `path?query`, or the path alone. -/
def render (path : Bytes) : Option Bytes → Bytes
  | none => path
  | some query => path ++ 63 :: query

/-- `Uri::path_and_query` with `as_str`: the stored text, in which a missing path
takes no room before a query; an empty text is given out as `/`. The authority form
stores none. -/
def pathAndQuery : Uri → Option Bytes
  | originForm path query => some (render path.text (query.map UriQuery.text))
  | absoluteForm _ _ none none => some (ascii "/")
  | absoluteForm _ _ path query =>
      some (render ((path.map UriPath.text).getD []) (query.map UriQuery.text))
  | asteriskForm _ => some (ascii "*")
  | authorityForm _ => none

/-- Only the authority form has an empty path. -/
theorem path_eq_nil_iff {uri : Uri} : uri.path = [] ↔ ∃ authority, uri = authorityForm authority := by
  cases uri with
  | originForm path query => simp [Uri.path, path.text_ne_nil]
  | absoluteForm scheme authority path query =>
      cases path with
      | none => simp [Uri.path, ascii]
      | some path => simp [Uri.path, path.text_ne_nil]
  | asteriskForm origin => simp [Uri.path, ascii]
  | authorityForm authority => simp [Uri.path]

end Uri

/-- A parser of target texts, with the URIs that exist because it or its crate made them. The
empty text is not a target, and the text of a non-empty path with its query, taken from such a
URI, parses to a target with the same path and query. -/
structure UriParser where
  parse : Bytes → Option Uri
  Produces : Uri → Prop
  produces_of_parse : ∀ text uri, parse text = some uri → Produces uri
  parse_nil : parse [] = none
  parse_render : ∀ uri, Produces uri → uri.path ≠ [] →
    ∃ again, parse (Uri.render uri.path uri.query) = some again ∧
      again.path = uri.path ∧ again.query = uri.query

namespace UriParser

/-- Origin form from a separated path and query. -/
def fromParts (path : Bytes) (query : Option Bytes) : Option Uri :=
  if stored : path.head? = some 47 ∧ (63 : UInt8) ∉ path ∧ (35 : UInt8) ∉ path then
    match query with
    | none => some (.originForm ⟨path, stored.1, stored.2.1, stored.2.2⟩ none)
    | some query =>
        if plain : (35 : UInt8) ∉ query then
          some (.originForm ⟨path, stored.1, stored.2.1, stored.2.2⟩ (some ⟨query, plain⟩))
        else none
  else none

/-- Parse the targets that start with a slash, and the asterisk. -/
def parseTarget (text : Bytes) : Option Uri :=
  if text = ascii "*" then some (.asteriskForm none)
  else match Text.splitOnce 63 text with
    | none => fromParts text none
    | some (path, query) => fromParts path (some query)

theorem parseTarget_render (path : UriPath) (query : Option UriQuery) :
    parseTarget (Uri.render path.text (query.map UriQuery.text)) =
      some (.originForm path query) := by
  have stored : path.text.head? = some 47 ∧ (63 : UInt8) ∉ path.text ∧ (35 : UInt8) ∉ path.text :=
    ⟨path.rooted, path.noQuery, path.noFragment⟩
  have notStar : ∀ rest : Bytes, path.text ++ rest ≠ ascii "*" := by
    intro rest same
    have first := congrArg List.head? same
    rw [List.head?_append, path.rooted, Option.some_or] at first
    exact absurd first (by decide)
  cases query with
  | none =>
      have unsplit : Text.splitOnce 63 path.text = none :=
        Text.splitOnce_eq_none_iff.mpr path.noQuery
      have star := notStar []
      rw [List.append_nil] at star
      simp only [Option.map_none, Uri.render, parseTarget, if_neg star, unsplit, fromParts]
      exact dif_pos stored
  | some query =>
      have found : Text.splitOnce 63 (path.text ++ 63 :: query.text) = some (path.text, query.text) :=
        Text.splitOnce_eq_some_iff.mpr ⟨rfl, path.noQuery⟩
      simp only [Option.map_some, Uri.render, parseTarget, if_neg (notStar _), found, fromParts,
        dif_pos stored, dif_pos query.noFragment]

/-- The path and the query of any URI with a path are read as its own. -/
theorem exists_parseTarget_render {uri : Uri} (nonempty : uri.path ≠ []) :
    ∃ again, parseTarget (Uri.render uri.path uri.query) = some again ∧
      again.path = uri.path ∧ again.query = uri.query := by
  cases uri with
  | originForm path query => exact ⟨_, parseTarget_render path query, rfl, rfl⟩
  | absoluteForm scheme authority path query =>
      cases path with
      | none =>
          exact ⟨_, parseTarget_render ⟨ascii "/", by decide, by decide, by decide⟩ query, rfl, rfl⟩
      | some path => exact ⟨_, parseTarget_render path query, rfl, rfl⟩
  | asteriskForm origin =>
      have parsed : parseTarget (ascii "*") = some (.asteriskForm none) := by decide
      exact ⟨.asteriskForm none, parsed, rfl, rfl⟩
  | authorityForm authority => exact absurd rfl nonempty

/-- A parser for the texts that a path and a query can render to. -/
def pathOnly : UriParser where
  parse := parseTarget
  Produces uri := ∃ text, parseTarget text = some uri
  produces_of_parse text _ parsed := ⟨text, parsed⟩
  parse_nil := by decide
  parse_render _ _ nonempty := exists_parseTarget_render nonempty

/-- A parser that reads one more text. -/
def withTarget (source : Bytes) (target : Uri) (named : source ≠ [])
    (unread : parseTarget source = none) : UriParser where
  parse text := if text = source then some target else parseTarget text
  Produces uri := uri = target ∨ ∃ text, parseTarget text = some uri
  produces_of_parse text uri parsed := by
    split at parsed
    · exact .inl (Option.some.inj parsed).symm
    · exact .inr ⟨text, parsed⟩
  parse_nil := by
    rw [if_neg (Ne.symm named)]
    decide
  parse_render uri _ nonempty := by
    obtain ⟨again, parsed, same⟩ := exists_parseTarget_render nonempty
    refine ⟨again, ?_, same⟩
    rw [if_neg]
    · exact parsed
    · rintro rendered
      cases (rendered ▸ parsed).symm.trans unread

end UriParser

/-- A request whose body has type `β`. -/
structure Request (β : Type) where
  method : Method
  uri : Uri
  version : Version
  headers : HeaderMap
  body : β
deriving DecidableEq

/-- A response whose body has type `β`. -/
structure Response (β : Type) where
  status : StatusCode
  headers : HeaderMap
  body : β
deriving DecidableEq

end Http
