import LensoWeb.Http.Message

/-!
# Ingress configuration

The immutable policy of one Ingress instance and the checks made before it is
used. The listener address is left out: no check reads it, and binding is the
operating system's business. Sizes are byte counts, timeouts are milliseconds.
-/

namespace Ingress

open Foundation Http

def maxTransferBytes : Nat := 64 * 1024 * 1024
def maxHeadBytes : Nat := 1024 * 1024
def maxConcurrentRequestsLimit : Nat := 4096
def maxConnectionsLimit : Nat := 65536
def maxTimeoutMillis : Nat := 300000
def maxProtocolNameBytes : Nat := 128

/-- `valid_http_token`. -/
def validHttpToken (value : Bytes) : Bool :=
  !value.isEmpty && decide (value.length ≤ maxProtocolNameBytes) && value.all isTokenByte

/-- `host_cookie_name`. -/
def hostCookieName (value : Bytes) : Bool :=
  (ascii "__Host-").isPrefixOf value && validHttpToken value

/-- Cookie-based session and double-submit CSRF policy, as configured. -/
structure SessionCookieConfig where
  name : Bytes
  csrfCookieName : Bytes
  csrfHeaderName : Bytes
deriving DecidableEq

namespace SessionCookieConfig

/-- Names that the CSRF header may not take, because Ingress owns them. -/
def reservedHeaderNames : List Bytes :=
  ["authorization", "connection", "content-length", "cookie", "host", "keep-alive",
    "proxy-connection", "te", "trailer", "transfer-encoding", "upgrade", "x-request-id"].map ascii

/-- `SessionCookieConfig::validate`. -/
def validate (config : SessionCookieConfig) : Except String Unit :=
  if !hostCookieName config.name || !hostCookieName config.csrfCookieName ||
      config.name == config.csrfCookieName then
    .error "Web Ingress requires distinct __Host- session and CSRF cookie names"
  else if config.csrfHeaderName.isEmpty ||
      decide (maxProtocolNameBytes < config.csrfHeaderName.length) then
    .error "Web Ingress CSRF header name is invalid"
  else match HeaderName.fromBytes config.csrfHeaderName with
    | none => .error "Web Ingress CSRF header name is invalid"
    | some header =>
        if reservedHeaderNames.contains header.text then
          .error "Web Ingress CSRF header must be a dedicated request header"
        else .ok ()

end SessionCookieConfig

/-- Explicit WebSocket transport policy. Browser origins are exact matches. -/
structure WebSocketConfig where
  allowedOrigins : List Bytes
  maxMessageBytes : Nat
  maxSessionBytes : Nat
deriving DecidableEq

namespace WebSocketConfig

/-- An origin is refused unless it is a bare `http` or `https` origin. -/
def validateOrigin (parser : UriParser) (origin : Bytes) : Except String Unit :=
  match parser.parse origin with
  | none => .error "Invalid WebSocket origin"
  | some uri =>
      if !(uri.scheme == some (ascii "http") || uri.scheme == some (ascii "https")) ||
          uri.authority.isNone ||
          uri.authority.any (fun authority => authority.contains 64) ||
          uri.pathAndQuery.any (fun path => path != ascii "/") ||
          origin.getLast? == some 47 || decide (2048 < origin.length) then
        .error "WebSocket origins must be exact serialized HTTP origins"
      else .ok ()

/-- `WebSocketConfig::validate`. -/
def validate (parser : UriParser) (config : WebSocketConfig) : Except String Unit :=
  if config.maxMessageBytes == 0 || decide (1048576 < config.maxMessageBytes) ||
      decide (config.maxSessionBytes < config.maxMessageBytes) ||
      decide (maxTransferBytes < config.maxSessionBytes) ||
      decide (64 < config.allowedOrigins.length) then
    .error "Invalid WebSocket bounds"
  else config.allowedOrigins.forM (validateOrigin parser)

end WebSocketConfig

/-- Immutable HTTP policy of one Ingress instance. -/
structure WebIngressConfig where
  maxRequestBodyBytes : Nat
  maxRequestHeadBytes : Nat
  maxConcurrentRequests : Nat
  maxConnections : Nat
  requestHeadTimeoutMillis : Nat
  requestBodyTimeoutMillis : Nat
  connectionIdleTimeoutMillis : Nat
  shutdownGraceTimeoutMillis : Nat
  requestTimeoutMillis : Nat
  sessionCookie : Option SessionCookieConfig
  websocket : Option WebSocketConfig
deriving DecidableEq

namespace WebIngressConfig

/-- `(1..=maximum).contains(&value)`. -/
def within (maximum value : Nat) : Bool := decide (1 ≤ value) && decide (value ≤ maximum)

/-- `WebIngressConfig::validate`. -/
def validate (parser : UriParser) (config : WebIngressConfig) : Except String Unit :=
  if !within maxTransferBytes config.maxRequestBodyBytes ||
      !within maxHeadBytes config.maxRequestHeadBytes ||
      !within maxConcurrentRequestsLimit config.maxConcurrentRequests ||
      !within maxConnectionsLimit config.maxConnections ||
      !within maxTimeoutMillis config.requestHeadTimeoutMillis ||
      !within maxTimeoutMillis config.requestBodyTimeoutMillis ||
      !within maxTimeoutMillis config.connectionIdleTimeoutMillis ||
      !within maxTimeoutMillis config.shutdownGraceTimeoutMillis ||
      !within maxTimeoutMillis config.requestTimeoutMillis then
    .error "Web Ingress limits or timeout are invalid"
  else do
    if let some policy := config.websocket then policy.validate parser
    if let some policy := config.sessionCookie then policy.validate

/-- `WebIngressConfig::default`. -/
def default : WebIngressConfig where
  maxRequestBodyBytes := 1024 * 1024
  maxRequestHeadBytes := 16 * 1024
  maxConcurrentRequests := 128
  maxConnections := 1024
  requestHeadTimeoutMillis := 10000
  requestBodyTimeoutMillis := 30000
  connectionIdleTimeoutMillis := 60000
  shutdownGraceTimeoutMillis := 30000
  requestTimeoutMillis := 30000
  sessionCookie := none
  websocket := none

theorem validate_default (parser : UriParser) : default.validate parser = .ok () := rfl

/-- What validation promises about the limits and the two optional policies. -/
theorem of_validate {parser : UriParser} {config : WebIngressConfig}
    (valid : config.validate parser = .ok ()) :
    config.maxRequestBodyBytes ≤ maxTransferBytes ∧ 1 ≤ config.maxConnections ∧
      1 ≤ config.maxConcurrentRequests ∧
      (∀ policy, config.websocket = some policy → policy.validate parser = .ok ()) ∧
      (∀ policy, config.sessionCookie = some policy → policy.validate = .ok ()) := by
  unfold validate at valid
  split at valid
  · cases valid
  · next bounds =>
    simp only [within, Bool.or_eq_true, Bool.not_eq_true', Bool.and_eq_false_iff,
      decide_eq_false_iff_not, not_or, not_not] at bounds
    refine ⟨by omega, by omega, by omega, ?_, ?_⟩
    · intro policy configured
      rw [configured] at valid
      cases checked : policy.validate parser with
      | ok _ => rfl
      | error message =>
          simp only [checked] at valid
          cases valid
    · intro policy configured
      rw [configured] at valid
      cases checked : policy.validate with
      | ok _ => rfl
      | error message =>
          simp only [checked] at valid
          cases socket : config.websocket with
          | none =>
              rw [socket] at valid
              cases valid
          | some socketPolicy =>
              simp only [socket] at valid
              cases socketChecked : socketPolicy.validate parser <;>
                · rw [socketChecked] at valid
                  cases valid

/-- A validated configuration bounds the concurrent requests. -/
theorem maxConcurrentRequests_le {parser : UriParser} {config : WebIngressConfig}
    (valid : config.validate parser = .ok ()) :
    config.maxConcurrentRequests ≤ maxConcurrentRequestsLimit := by
  unfold validate at valid
  split at valid
  · cases valid
  · next bounds =>
    simp only [within, Bool.or_eq_true, Bool.not_eq_true', Bool.and_eq_false_iff,
      decide_eq_false_iff_not, not_or, not_not] at bounds
    omega

end WebIngressConfig

end Ingress
