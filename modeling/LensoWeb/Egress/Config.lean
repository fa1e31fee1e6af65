import LensoWeb.Foundation.Budget
import LensoWeb.Http.Message

/-!
# Egress configuration

The immutable outbound authority and the limits of one Egress instance. Origins
are given as URLs; how `url` parses them is outside this development, and
`UrlParser` stands for any parser. Sizes are byte counts, timeouts milliseconds.
-/

namespace Egress

open Foundation Http

def maxTransferBytes : Nat := 64 * 1024 * 1024
def maxHeadBytes : Nat := 1024 * 1024
def maxConcurrentRequestsLimit : Nat := 4096
def maxTimeoutMillis : Nat := 300000
def maxAllowedOrigins : Nat := 256
def maxUrlBytes : Nat := 4096

/-- What Egress reads of a parsed `url::Url`. `text` is the serialization that
`as_str` returns, `origin` the ASCII serialization of the origin. -/
structure Url where
  text : Bytes
  scheme : Bytes
  username : Bytes
  password : Option Bytes
  host : Option Bytes
  path : Bytes
  query : Option Bytes
  fragment : Option Bytes
  origin : Bytes
deriving DecidableEq

/-- `Url::parse`. -/
structure UrlParser where
  parse : Bytes → Option Url

/-- Outbound protocol selection. -/
inductive HttpVersionPolicy where
  | auto
  | http1Only
  | http2PriorKnowledge
deriving DecidableEq

/-- Immutable outbound HTTP authority and resource limits. -/
structure HttpEgressConfig where
  allowedOrigins : List Bytes
  httpVersion : HttpVersionPolicy
  maxRequestBodyBytes : Nat
  maxRequestHeadBytes : Nat
  maxResponseBodyBytes : Nat
  maxResponseHeadBytes : Nat
  maxConcurrentRequests : Nat
  connectTimeoutMillis : Nat
  requestTimeoutMillis : Nat
deriving DecidableEq

/-- Whether the scheme is one of the two that Egress speaks. -/
def Url.isHttp (url : Url) : Bool := url.scheme == ascii "http" || url.scheme == ascii "https"

/-- `request_origin`. -/
def requestOrigin (url : Url) : Option Bytes :=
  if url.isHttp && url.origin != ascii "null" then some url.origin else none

/-- `canonical_origin`. -/
def canonicalOrigin (parser : UrlParser) (value : Bytes) : Except String Bytes :=
  if maxUrlBytes < value.length then .error "outbound HTTP origin is too long"
  else match parser.parse value with
    | none => .error "invalid outbound HTTP origin"
    | some url =>
        if !url.isHttp || url.host.isNone || !url.username.isEmpty || url.password.isSome ||
            url.path != ascii "/" || url.query.isSome || url.fragment.isSome then
          .error "invalid outbound HTTP origin"
        else match requestOrigin url with
          | none => .error "invalid outbound HTTP origin"
          | some origin => .ok origin

namespace HttpEgressConfig

/-- The numeric part of `HttpEgressConfig::validate`. -/
def limitsValid (config : HttpEgressConfig) : Prop :=
  config.maxRequestBodyBytes ∈ Set.Icc 1 maxTransferBytes ∧
    config.maxResponseBodyBytes ∈ Set.Icc 1 maxTransferBytes ∧
    config.maxRequestHeadBytes ∈ Set.Icc 1 maxHeadBytes ∧
    config.maxResponseHeadBytes ∈ Set.Icc 1 maxHeadBytes ∧
    config.maxConcurrentRequests ∈ Set.Icc 1 maxConcurrentRequestsLimit ∧
    config.connectTimeoutMillis ∈ Set.Icc 1 maxTimeoutMillis ∧
    config.requestTimeoutMillis ∈ Set.Icc 1 maxTimeoutMillis ∧
    config.connectTimeoutMillis ≤ config.requestTimeoutMillis

instance (config : HttpEgressConfig) : Decidable config.limitsValid :=
  inferInstanceAs (Decidable (_ ∧ _ ∧ _ ∧ _ ∧ _ ∧ _ ∧ _ ∧ _))

/-- `HttpEgressConfig::validate`: the allowed origins in their canonical spelling. -/
def validate (parser : UrlParser) (config : HttpEgressConfig) : Except String (Finset Bytes) :=
  if config.allowedOrigins.isEmpty ||
      decide (maxAllowedOrigins < config.allowedOrigins.length) then
    .error "outbound HTTP origin count must be between 1 and 256"
  else match config.allowedOrigins.mapM (canonicalOrigin parser) with
    | .error message => .error message
    | .ok origins =>
        if origins.toFinset.card ≠ config.allowedOrigins.length then
          .error "outbound HTTP origins must be unique"
        else if ¬ config.limitsValid then
          .error "outbound HTTP limits or timeouts are invalid"
        else .ok origins.toFinset

/-- The defaults that `HttpEgressConfig::new` and deserialization share. -/
def withDefaults (allowedOrigins : List Bytes) : HttpEgressConfig where
  allowedOrigins := allowedOrigins
  httpVersion := .auto
  maxRequestBodyBytes := 1024 * 1024
  maxRequestHeadBytes := 16 * 1024
  maxResponseBodyBytes := 4 * 1024 * 1024
  maxResponseHeadBytes := 32 * 1024
  maxConcurrentRequests := 64
  connectTimeoutMillis := 5000
  requestTimeoutMillis := 30000

/-- `HttpEgressConfig::new`. -/
def new (parser : UrlParser) (allowedOrigins : List Bytes) : Except String HttpEgressConfig :=
  match (withDefaults allowedOrigins).validate parser with
  | .error message => .error message
  | .ok _ => .ok (withDefaults allowedOrigins)

theorem limitsValid_of_validate {parser : UrlParser} {config : HttpEgressConfig}
    {origins : Finset Bytes} (valid : config.validate parser = .ok origins) :
    config.limitsValid := by
  rw [validate] at valid
  split at valid
  · cases valid
  · split at valid
    · cases valid
    · split at valid
      · cases valid
      · split at valid
        · cases valid
        · next checked => exact not_not.mp checked

end HttpEgressConfig

end Egress
