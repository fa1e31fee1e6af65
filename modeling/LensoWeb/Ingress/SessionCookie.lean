import LensoWeb.Ingress.Config

/-!
# Credential selection

One request carries at most one credential: the single `Authorization` field, or
the configured session cookie. A session cookie on an unsafe method also needs
the CSRF cookie and the CSRF header to agree. The definitions follow the tokenizer
and the order of its checks; what they select is characterised in `Selection`.
-/

namespace Ingress

open Foundation Http

/-- A session policy after validation, with its CSRF header already parsed. -/
structure SessionCookiePolicy where
  name : Bytes
  csrfCookieName : Bytes
  csrfHeaderName : HeaderName
deriving DecidableEq

/-- `SessionCookiePolicy::from`; `none` is the unwinding `expect`. -/
def SessionCookiePolicy.fromConfig (config : SessionCookieConfig) : Option SessionCookiePolicy :=
  (HeaderName.fromBytes config.csrfHeaderName).map fun header =>
    ⟨config.name, config.csrfCookieName, header⟩

/-- A configuration that passed its checks names a header. -/
theorem SessionCookiePolicy.fromConfig_isSome {config : SessionCookieConfig}
    (valid : config.validate = .ok ()) : (fromConfig config).isSome = true := by
  rw [fromConfig, Option.isSome_map]
  unfold SessionCookieConfig.validate at valid
  split at valid
  · cases valid
  · split at valid
    · cases valid
    · split at valid
      · cases valid
      · next found => rw [found]; rfl

/-- A policy that comes from a configuration that passed its checks. -/
def SessionCookiePolicy.Validated (policy : SessionCookiePolicy) : Prop :=
  ∃ config : SessionCookieConfig, config.validate = .ok () ∧ fromConfig config = some policy

structure CredentialEvidence where
  scheme : Bytes
  value : Bytes
deriving DecidableEq

inductive CredentialRejection where
  | badRequest
  | csrfForbidden
deriving DecidableEq

/-- `single_header`: absent, or one visible field. -/
def singleHeader (headers : HeaderMap) (name : HeaderName) :
    Except CredentialRejection (Option Bytes) :=
  match headers.getAll name with
  | [] => .ok none
  | [value] =>
      match value.toStr with
      | some text => .ok (some text)
      | none => .error .badRequest
  | _ :: _ :: _ => .error .badRequest

/-- `authorization_credential`. Bearer and Basic values may not hold a comma or
white space, because a host may have folded repeated fields into one. -/
def authorizationCredential (headers : HeaderMap) :
    Except CredentialRejection (Option CredentialEvidence) := do
  match ← singleHeader headers .authorization with
  | none => .ok none
  | some text =>
      match Text.splitOnce 32 text with
      | none => .error .badRequest
      | some (scheme, value) =>
          if scheme.isEmpty || value.isEmpty then .error .badRequest
          else if (Text.eqIgnoreCase scheme (ascii "bearer") ||
              Text.eqIgnoreCase scheme (ascii "basic")) &&
              value.any (fun byte => byte == 44 || Text.isAsciiWhitespace byte) then
            .error .badRequest
          else .ok (some ⟨Text.lowercase scheme, value⟩)

/-- `cookie_octet`. -/
def cookieOctet (byte : UInt8) : Bool :=
  byte == 0x21 || (0x23 ≤ byte && byte ≤ 0x2b) || (0x2d ≤ byte && byte ≤ 0x3a) ||
    (0x3c ≤ byte && byte ≤ 0x5b) || (0x5d ≤ byte && byte ≤ 0x7e)

/-- `str::strip_prefix` with a one-byte prefix. -/
def stripFirst (mark : UInt8) : Bytes → Option Bytes
  | byte :: rest => if byte = mark then some rest else none
  | [] => none

/-- `str::strip_suffix` with a one-byte suffix. -/
def stripLast (mark : UInt8) (value : Bytes) : Option Bytes :=
  if value.getLast? = some mark then some value.dropLast else none

/-- The value between matching double quotes, or the bare value. -/
def unquotedCookieValue (value : Bytes) : Option Bytes :=
  if value.head? = some 34 ∨ value.getLast? = some 34 then
    (stripFirst 34 value).bind (stripLast 34)
  else some value

/-- `normalized_cookie_value`. -/
def normalizedCookieValue (value : Bytes) : Except CredentialRejection Bytes :=
  match unquotedCookieValue value with
  | none => .error .badRequest
  | some inner => if inner.all cookieOctet then .ok inner else .error .badRequest

/-- `insert_cookie`: a second occurrence, a malformed value and an empty value
are refused. -/
def insertCookie (target : Option Bytes) (value : Bytes) :
    Except CredentialRejection (Option Bytes) :=
  if target.isSome then .error .badRequest
  else match normalizedCookieValue (Text.trim value) with
    | .error rejection => .error rejection
    | .ok inner => if inner.isEmpty then .error .badRequest else .ok (some inner)

structure SelectedCookies where
  session : Option Bytes
  csrf : Option Bytes
deriving DecidableEq

/-- The body of the inner loop of `selected_cookies`, for one `;`-separated pair. -/
def selectPair (policy : SessionCookiePolicy) (selected : SelectedCookies) (pair : Bytes) :
    Except CredentialRejection SelectedCookies :=
  match Text.splitOnce 61 pair with
  | none =>
      -- A bare name carries no value, and a configured name without one is malformed.
      if pair = policy.name ∨ pair = policy.csrfCookieName then .error .badRequest
      else .ok selected
  | some (name, value) =>
      if Text.trim name = policy.name then
        (insertCookie selected.session value).map fun session => { selected with session }
      else if Text.trim name = policy.csrfCookieName then
        (insertCookie selected.csrf value).map fun csrf => { selected with csrf }
      else .ok selected

/-- The trimmed, non-empty pairs of one `Cookie` field. -/
def cookiePairs (field : Bytes) : List Bytes :=
  ((Text.split 59 field).map Text.trim).filter fun pair => !pair.isEmpty

/-- The body of the outer loop of `selected_cookies`, for one `Cookie` field. -/
def selectField (policy : SessionCookiePolicy) (selected : SelectedCookies)
    (field : HeaderValue) : Except CredentialRejection SelectedCookies :=
  match field.toStr with
  | none => .error .badRequest
  | some text => (cookiePairs text).foldlM (selectPair policy) selected

/-- `selected_cookies`. -/
def selectedCookies (headers : HeaderMap) (policy : SessionCookiePolicy) :
    Except CredentialRejection SelectedCookies :=
  (headers.getAll .cookie).foldlM (selectField policy) ⟨none, none⟩

/-- `safe_method`. Only `QUERY` is recognised in any letter case. -/
def safeMethod (method : Method) : Bool :=
  method == .get || method == .head || method == .options || method == .trace ||
    Text.eqIgnoreCase method.token (ascii "QUERY")

/-- `tokens_match`: equal lengths, and no differing bit in any position. -/
def tokensMatch (left right : Bytes) : Bool :=
  if left.length ≠ right.length then false
  else (left.zip right).foldl (fun difference pair => difference ||| (pair.1 ^^^ pair.2)) 0 == 0

/-- The double-submit check that a session cookie needs on an unsafe method. -/
def checkCsrf (headers : HeaderMap) (policy : SessionCookiePolicy) (csrf : Option Bytes) :
    Except CredentialRejection Unit :=
  match csrf with
  | none => .error .csrfForbidden
  | some cookie =>
      match singleHeader headers policy.csrfHeaderName with
      | .error rejection => .error rejection
      | .ok none => .error .csrfForbidden
      | .ok (some header) =>
          if header.isEmpty || !tokensMatch cookie header then .error .csrfForbidden else .ok ()

/-- `select_credential`. -/
def selectCredential (method : Method) (headers : HeaderMap)
    (sessionCookie : Option SessionCookiePolicy) :
    Except CredentialRejection (Option CredentialEvidence) := do
  let authorization ← authorizationCredential headers
  match sessionCookie with
  | none => .ok authorization
  | some policy =>
      let cookies ← selectedCookies headers policy
      match cookies.session with
      | none => .ok authorization
      | some session =>
          if authorization.isSome then .error .badRequest
          else do
            if !safeMethod method then checkCsrf headers policy cookies.csrf
            .ok (some ⟨ascii "session", session⟩)

end Ingress
