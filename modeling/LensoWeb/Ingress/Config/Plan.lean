import LensoWeb.Foundation.Codec
import LensoWeb.Host.Replicated
import LensoWeb.Ingress.Config
import LensoWeb.Ingress.Routing.Resolve

/-!
# The configuration in the plan

A Host writes the configuration of Ingress into the plan, and the factory of Ingress reads
it from there. Everything but the address is read back as it was written, whatever the order
of the fields; the address is what the standard library makes of its text, which leaves out
the flow label of an IPv6 address. A replica insists on the configuration of the listener it
shares, so a replicated start comes up exactly where the address is read back.
-/

namespace Ingress

open Foundation Http

/-! ### Text -/

/-- The characters of a `String`, given its bytes. -/
def characters (bytes : Bytes) : Str :=
  if valid : (List.toByteArray bytes).IsValidUTF8 then (String.fromUTF8 _ valid).toList else []

theorem characters_utf8 (text : Str) : characters (utf8 text) = text := by
  have encoded : List.toByteArray (utf8 text) = text.utf8Encode := rfl
  have valid : (List.toByteArray (utf8 text)).IsValidUTF8 := by
    rw [encoded]
    exact ByteArray.isValidUTF8_utf8Encode
  rw [characters, dif_pos valid]
  exact String.toList_ofList

/-- The bytes of a `String`. -/
def IsText (bytes : Bytes) : Prop := ∃ text, utf8 text = bytes

/-- A `String` that is kept as its bytes. -/
def stringCodec : Codec Bytes :=
  Codec.text.via utf8 characters IsText
    (by
      rintro bytes ⟨text, rfl⟩
      exact ⟨trivial, congrArg utf8 (characters_utf8 text)⟩)
    (fun text _ => ⟨text, rfl⟩)

/-- `usize` and `u64`. -/
def word : Codec Nat := Codec.unsigned 64

/-! ### The records -/

namespace SessionCookieConfig

def fields : Fields (Bytes × Bytes × Bytes × Unit) :=
  .cons (.required (lit "name") stringCodec)
    (.cons (.required (lit "csrf_cookie_name") stringCodec)
      (.cons (.required (lit "csrf_header_name") stringCodec) .nil))

theorem nodup_names : fields.names.Nodup := by decide

/-- What the types of the fields guarantee. -/
structure Typed (config : SessionCookieConfig) : Prop where
  name : IsText config.name
  csrfCookieName : IsText config.csrfCookieName
  csrfHeaderName : IsText config.csrfHeaderName

def codec : Codec SessionCookieConfig :=
  (fields.codec true nodup_names).via
    (fun (name, csrfCookieName, csrfHeaderName, _) => ⟨name, csrfCookieName, csrfHeaderName⟩)
    (fun config => (config.name, config.csrfCookieName, config.csrfHeaderName, ())) Typed
    (fun _ typed => ⟨⟨typed.name, typed.csrfCookieName, typed.csrfHeaderName, trivial⟩, rfl⟩)
    (fun _ fits => ⟨fits.1, fits.2.1, fits.2.2.1⟩)

theorem codec_visible [FieldOrder] (config : SessionCookieConfig) :
    codec.encode config ≠ .null := by
  rintro ⟨⟩

end SessionCookieConfig

namespace WebSocketConfig

def fields : Fields (List Bytes × Nat × Nat × Unit) :=
  .cons (.required (lit "allowed_origins") stringCodec.list)
    (.cons (.required (lit "max_message_bytes") word)
      (.cons (.required (lit "max_session_bytes") word) .nil))

theorem nodup_names : fields.names.Nodup := by decide

/-- What the types of the fields guarantee. -/
structure Typed (config : WebSocketConfig) : Prop where
  allowedOrigins : ∀ origin ∈ config.allowedOrigins, IsText origin
  maxMessageBytes : config.maxMessageBytes < 2 ^ 64
  maxSessionBytes : config.maxSessionBytes < 2 ^ 64

def codec : Codec WebSocketConfig :=
  (fields.codec true nodup_names).via
    (fun (allowedOrigins, maxMessageBytes, maxSessionBytes, _) =>
      ⟨allowedOrigins, maxMessageBytes, maxSessionBytes⟩)
    (fun config => (config.allowedOrigins, config.maxMessageBytes, config.maxSessionBytes, ()))
    Typed
    (fun _ typed => ⟨⟨typed.allowedOrigins, typed.maxMessageBytes, typed.maxSessionBytes, trivial⟩,
      rfl⟩)
    (fun _ fits => ⟨fits.1, fits.2.1, fits.2.2.1⟩)

theorem codec_visible [FieldOrder] (config : WebSocketConfig) : codec.encode config ≠ .null := by
  rintro ⟨⟩

end WebSocketConfig

/-- `SocketAddr`: its serialization and the loopback address with port zero. An address that has
been read is written as a text that is read as the same address. -/
structure AddressFormat where
  Address : Type
  encode : Address → Json
  decode : Json → Except DecodeError Address
  loopback : Address
  decode_encode : ∀ json address, decode json = .ok address →
    decode (encode address) = .ok address
  decode_loopback : decode (encode loopback) = .ok loopback

namespace AddressFormat

variable (format : AddressFormat)

/-- The text of the address says all about it. -/
def ReadsBack (address : format.Address) : Prop :=
  format.decode (format.encode address) = .ok address

def codec : Codec format.Address where
  Fits := format.ReadsBack
  encode address := format.encode address
  decode := format.decode
  decode_encode _ back := back
  fits_of_decode := format.decode_encode

end AddressFormat

namespace WebIngressConfig

/-- A number with a default below the width of a word. -/
def numberField (name : Str) (default : Nat) (small : default < 2 ^ 64) :
    RecordField Nat :=
  .withDefault name word default small

/-- The fields of `WebIngressConfig`, with their defaults. -/
def fields (format : AddressFormat) : Fields (format.Address × Nat × Nat × Nat × Nat × Nat ×
    Nat × Nat × Nat × Nat × Option SessionCookieConfig × Option WebSocketConfig × Unit) :=
  .cons (.withDefault (lit "bind_address") format.codec format.loopback format.decode_loopback)
  (.cons (numberField (lit "max_request_body_bytes") default.maxRequestBodyBytes (by decide))
  (.cons (numberField (lit "max_request_head_bytes") default.maxRequestHeadBytes (by decide))
  (.cons (numberField (lit "max_concurrent_requests") default.maxConcurrentRequests (by decide))
  (.cons (numberField (lit "max_connections") default.maxConnections (by decide))
  (.cons (numberField (lit "request_head_timeout_millis") default.requestHeadTimeoutMillis
    (by decide))
  (.cons (numberField (lit "request_body_timeout_millis") default.requestBodyTimeoutMillis
    (by decide))
  (.cons (numberField (lit "connection_idle_timeout_millis") default.connectionIdleTimeoutMillis
    (by decide))
  (.cons (numberField (lit "shutdown_grace_timeout_millis") default.shutdownGraceTimeoutMillis
    (by decide))
  (.cons (numberField (lit "request_timeout_millis") default.requestTimeoutMillis (by decide))
  (.cons (.optional (lit "session_cookie") SessionCookieConfig.codec
    SessionCookieConfig.codec_visible true)
  (.cons (.optional (lit "websocket") WebSocketConfig.codec WebSocketConfig.codec_visible true)
    .nil)))))))))))

theorem nodup_names (format : AddressFormat) : (fields format).names.Nodup := by
  have names : (fields format).names = ["bind_address", "max_request_body_bytes",
      "max_request_head_bytes", "max_concurrent_requests", "max_connections",
      "request_head_timeout_millis", "request_body_timeout_millis",
      "connection_idle_timeout_millis", "shutdown_grace_timeout_millis",
      "request_timeout_millis", "session_cookie", "websocket"].map lit := rfl
  rw [names]
  decide +kernel

/-- The components in the order of the fields. -/
def components {Address : Type} (address : Address) (config : WebIngressConfig) :
    Address × Nat × Nat × Nat × Nat × Nat × Nat × Nat × Nat × Nat ×
      Option SessionCookieConfig × Option WebSocketConfig × Unit :=
  (address, config.maxRequestBodyBytes, config.maxRequestHeadBytes,
    config.maxConcurrentRequests, config.maxConnections, config.requestHeadTimeoutMillis,
    config.requestBodyTimeoutMillis, config.connectionIdleTimeoutMillis,
    config.shutdownGraceTimeoutMillis, config.requestTimeoutMillis, config.sessionCookie,
    config.websocket, ())

/-- What the types of the fields guarantee. -/
structure Typed (config : WebIngressConfig) : Prop where
  maxRequestBodyBytes : config.maxRequestBodyBytes < 2 ^ 64
  maxRequestHeadBytes : config.maxRequestHeadBytes < 2 ^ 64
  maxConcurrentRequests : config.maxConcurrentRequests < 2 ^ 64
  maxConnections : config.maxConnections < 2 ^ 64
  requestHeadTimeoutMillis : config.requestHeadTimeoutMillis < 2 ^ 64
  requestBodyTimeoutMillis : config.requestBodyTimeoutMillis < 2 ^ 64
  connectionIdleTimeoutMillis : config.connectionIdleTimeoutMillis < 2 ^ 64
  shutdownGraceTimeoutMillis : config.shutdownGraceTimeoutMillis < 2 ^ 64
  requestTimeoutMillis : config.requestTimeoutMillis < 2 ^ 64
  sessionCookie : ∀ policy, config.sessionCookie = some policy → policy.Typed
  websocket : ∀ policy, config.websocket = some policy → policy.Typed

theorem fits_components (format : AddressFormat) (address : format.Address)
    (config : WebIngressConfig) :
    (fields format).Fits (components address config) ↔ format.ReadsBack address ∧ config.Typed := by
  constructor
  · rintro ⟨back, body, head, concurrent, connections, headTime, bodyTime, idle, grace, time,
      cookie, socket, -⟩
    exact ⟨back, body, head, concurrent, connections, headTime, bodyTime, idle, grace, time,
      cookie, socket⟩
  · rintro ⟨back, body, head, concurrent, connections, headTime, bodyTime, idle, grace, time,
      cookie, socket⟩
    exact ⟨back, body, head, concurrent, connections, headTime, bodyTime, idle, grace, time,
      cookie, socket, trivial⟩

/-- `Serialize` and `Deserialize` of a configuration with its address. -/
def codec (format : AddressFormat) : Codec (format.Address × WebIngressConfig) :=
  ((fields format).codec true (nodup_names format)).via
    (fun (address, maxRequestBodyBytes, maxRequestHeadBytes, maxConcurrentRequests,
        maxConnections, requestHeadTimeoutMillis, requestBodyTimeoutMillis,
        connectionIdleTimeoutMillis, shutdownGraceTimeoutMillis, requestTimeoutMillis,
        sessionCookie, websocket, _) =>
      (address, ⟨maxRequestBodyBytes, maxRequestHeadBytes, maxConcurrentRequests,
        maxConnections, requestHeadTimeoutMillis, requestBodyTimeoutMillis,
        connectionIdleTimeoutMillis, shutdownGraceTimeoutMillis, requestTimeoutMillis,
        sessionCookie, websocket⟩))
    (fun value => components value.1 value.2)
    (fun value => format.ReadsBack value.1 ∧ value.2.Typed)
    (fun _ fits => ⟨(fits_components format _ _).mpr fits, rfl⟩)
    (fun _ fits => (fits_components format _ _).mp fits)

/-- Only the address may come back as another one. -/
theorem decode_encode_iff [FieldOrder] {format : AddressFormat}
    {config other : format.Address × WebIngressConfig} (typed : config.2.Typed) :
    (codec format).decode ((codec format).encode config) = .ok other ↔
      format.decode (format.encode config.1) = .ok other.1 ∧ other.2 = config.2 := by
  have rest := ((fits_components format format.loopback config.2).mpr
    ⟨format.decode_loopback, typed⟩).2
  have first : ∀ read, (fields format).reread (components config.1 config.2) = .ok read ↔
      format.decode (format.encode config.1) = .ok read.1 ∧
        read.2 = (components config.1 config.2).2 := fun read => Fields.reread_cons_eq_ok rest
  refine Result.map_eq_ok.trans ?_
  constructor
  · rintro ⟨⟨address, others⟩, decoded, rfl⟩
    have reread := (Fields.decode_entries (nodup_names format) true).mp decoded
    obtain ⟨back, same⟩ := (first _).mp reread
    obtain rfl : others = (components config.1 config.2).2 := same
    exact ⟨back, rfl⟩
  · rintro ⟨back, same⟩
    refine ⟨components other.1 other.2, (Fields.decode_entries (nodup_names format) true).mpr ?_,
      rfl⟩
    rw [first, same]
    exact ⟨back, rfl⟩

/-- An object whose fields are known, each there once, and so are those of the objects in it. -/
structure KnownOnly (format : AddressFormat) (object : List (Str × Json)) : Prop where
  fields : (fields format).KnownOnly object
  sessionCookie : ∀ nested, Assoc.find (lit "session_cookie") object = some (.object nested) →
    SessionCookieConfig.fields.KnownOnly nested
  websocket : ∀ nested, Assoc.find (lit "websocket") object = some (.object nested) →
    WebSocketConfig.fields.KnownOnly nested

/-- An object that is read in place of an optional policy is read as one. -/
theorem exists_decode_of_optional {α : Type} {policy : Codec α}
    (visible : ∀ [FieldOrder] value, policy.encode value ≠ .null) {nested : List (Str × Json)}
    (probed : ((policy.option visible).decode (.object nested)).map (fun _ => ()) = .ok ()) :
    ∃ value, policy.decode (.object nested) = .ok value := by
  obtain ⟨_, optional, -⟩ := Result.map_eq_ok.mp probed
  obtain ⟨value, own, -⟩ := Result.map_eq_ok.mp optional
  exact ⟨value, own⟩

theorem knownOnly_of_decode {format : AddressFormat} {object : List (Str × Json)}
    {read : format.Address × WebIngressConfig}
    (decoded : (codec format).decode (.object object) = .ok read) : KnownOnly format object := by
  obtain ⟨_, inner, -⟩ := Result.map_eq_ok.mp decoded
  refine ⟨Fields.knownOnly_of_decode inner, fun nested held => ?_, fun nested held => ?_⟩
  · have probed := Option.some.inj (Fields.probe_of_decode inner held)
    obtain ⟨_, own⟩ := exists_decode_of_optional SessionCookieConfig.codec_visible probed
    obtain ⟨_, within, -⟩ := Result.map_eq_ok.mp own
    exact Fields.knownOnly_of_decode within
  · have probed := Option.some.inj (Fields.probe_of_decode inner held)
    obtain ⟨_, own⟩ := exists_decode_of_optional WebSocketConfig.codec_visible probed
    obtain ⟨_, within, -⟩ := Result.map_eq_ok.mp own
    exact Fields.knownOnly_of_decode within

end WebIngressConfig

/-! ### Instantiation -/

/-- How `WebIngressFactory::instantiate` fails. -/
inductive InstantiateError where
  | configuration (error : DecodeError)
  | invalidResolvedPlan (detail : String)
deriving DecidableEq

/-- `middleware::validate`, of the identities. -/
def validateMiddleware (middleware : List String) : Except String Unit :=
  if middleware.any fun identity => (Str.trim identity.toList).isEmpty then
    .error "Web Ingress middleware identity must not be empty"
  else .ok ()

/-- `WebIngressReplica::validate_config`, given the configuration of the coordinator. -/
def validateConfig {format : AddressFormat} [DecidableEq format.Address]
    (coordinator config : format.Address × WebIngressConfig) : Except String Unit :=
  if config = coordinator then .ok ()
  else .error "same-port Web Ingress replicas must use the coordinator configuration"

/-- `WebIngressFactory::instantiate`: the configuration that the instance will have. -/
def instantiate (format : AddressFormat) [DecidableEq format.Address] (parser : UriParser)
    (middleware : List String) (replica : Option (format.Address × WebIngressConfig))
    (configuration : Json) : Except InstantiateError (format.Address × WebIngressConfig) := do
  let config ← ((WebIngressConfig.codec format).decode configuration).mapError
    InstantiateError.configuration
  (config.2.validate parser).mapError fun detail =>
    InstantiateError.invalidResolvedPlan ("Web Ingress configuration is invalid: " ++ detail)
  (validateMiddleware middleware).mapError InstantiateError.invalidResolvedPlan
  if let some coordinator := replica then
    (validateConfig coordinator config).mapError fun detail =>
      InstantiateError.invalidResolvedPlan
        ("Web Ingress replica configuration is invalid: " ++ detail)
  return config

variable {format : AddressFormat} [DecidableEq format.Address] {parser : UriParser}
  {middleware : List String} {replica : Option (format.Address × WebIngressConfig)}
  {configuration : Json} {config : format.Address × WebIngressConfig}

theorem validateConfig_eq_ok {coordinator : format.Address × WebIngressConfig} :
    validateConfig coordinator config = .ok () ↔ config = coordinator := by
  rw [validateConfig]
  split
  · next same => exact ⟨fun _ => same, fun _ => rfl⟩
  · next different =>
    constructor
    · intro impossible
      cases impossible
    · exact fun same => absurd same different

/-- An instance has the configuration that was read, which is valid and, in a replica, the
coordinator's. -/
theorem instantiate_eq_ok :
    instantiate format parser middleware replica configuration = .ok config ↔
      (WebIngressConfig.codec format).decode configuration = .ok config ∧
        config.2.validate parser = .ok () ∧ validateMiddleware middleware = .ok () ∧
        ∀ coordinator, replica = some coordinator → config = coordinator := by
  rw [instantiate, Result.bind_eq_ok]
  constructor
  · rintro ⟨read, decoded, rest⟩
    obtain ⟨_, valid, rest⟩ := Result.bind_eq_ok.mp rest
    obtain ⟨_, named, rest⟩ := Result.bind_eq_ok.mp rest
    have agreed : read = config ∧ ∀ coordinator, replica = some coordinator →
        read = coordinator := by
      cases replica with
      | none =>
          cases rest
          exact ⟨rfl, nofun⟩
      | some coordinator =>
          obtain ⟨_, same, returned⟩ := Result.bind_eq_ok.mp rest
          cases returned
          refine ⟨rfl, fun other held => ?_⟩
          cases held
          exact validateConfig_eq_ok.mp (Result.mapError_eq_ok.mp same)
    obtain ⟨rfl, agreed⟩ := agreed
    exact ⟨Result.mapError_eq_ok.mp decoded, Result.mapError_eq_ok.mp valid,
      Result.mapError_eq_ok.mp named, agreed⟩
  · rintro ⟨decoded, valid, named, agreed⟩
    refine ⟨config, Result.mapError_eq_ok.mpr decoded, ?_⟩
    refine Result.bind_eq_ok.mpr ⟨(), Result.mapError_eq_ok.mpr valid, ?_⟩
    refine Result.bind_eq_ok.mpr ⟨(), Result.mapError_eq_ok.mpr named, ?_⟩
    cases replica with
    | none => rfl
    | some coordinator =>
        have same := validateConfig_eq_ok.mpr (agreed coordinator rfl)
        exact Result.bind_eq_ok.mpr ⟨(), Result.mapError_eq_ok.mpr same, rfl⟩

/-- What becomes of a configuration that is written. -/
theorem instantiate_encode [FieldOrder] {other : format.Address × WebIngressConfig}
    (typed : config.2.Typed) :
    instantiate format parser middleware replica ((WebIngressConfig.codec format).encode config) =
        .ok other ↔
      format.decode (format.encode config.1) = .ok other.1 ∧ other.2 = config.2 ∧
        config.2.validate parser = .ok () ∧ validateMiddleware middleware = .ok () ∧
        ∀ coordinator, replica = some coordinator → other = coordinator := by
  rw [instantiate_eq_ok, WebIngressConfig.decode_encode_iff typed]
  constructor
  · rintro ⟨⟨back, same⟩, valid, holds⟩
    exact ⟨back, same, same ▸ valid, holds⟩
  · rintro ⟨back, same, valid, holds⟩
    exact ⟨⟨back, same⟩, same ▸ valid, holds⟩

/-- The configuration in the plan, for every factory of Ingress. One that is written comes up
exactly if it is valid, the middleware has names, and what comes up is what a replica's
coordinator has: itself, but for the address, which is what its text is read as. Whatever comes
up is valid and was read from known fields, and comes up again when it is written. -/
theorem instantiate_faithful [FieldOrder] (format : AddressFormat) [DecidableEq format.Address]
    (parser : UriParser) (middleware : List String)
    (replica : Option (format.Address × WebIngressConfig)) :
    (∀ config : format.Address × WebIngressConfig, config.2.Typed → ∀ other,
      instantiate format parser middleware replica
          ((WebIngressConfig.codec format).encode config) = .ok other ↔
        format.decode (format.encode config.1) = .ok other.1 ∧ other.2 = config.2 ∧
          config.2.validate parser = .ok () ∧ validateMiddleware middleware = .ok () ∧
          ∀ coordinator, replica = some coordinator → other = coordinator) ∧
    ∀ configuration config,
      instantiate format parser middleware replica configuration = .ok config →
      config.2.validate parser = .ok () ∧ format.ReadsBack config.1 ∧ config.2.Typed ∧
        instantiate format parser middleware replica
          ((WebIngressConfig.codec format).encode config) = .ok config ∧
        ∀ object, configuration = .object object → WebIngressConfig.KnownOnly format object := by
  refine ⟨fun config typed other => instantiate_encode typed, ?_⟩
  intro configuration config came
  obtain ⟨read, holds⟩ := instantiate_eq_ok.mp came
  obtain ⟨back, typed⟩ := (WebIngressConfig.codec format).fits_of_decode _ _ read
  refine ⟨holds.1, back, typed, (instantiate_encode typed).mpr ⟨back, rfl, holds⟩, ?_⟩
  rintro object rfl
  exact WebIngressConfig.knownOnly_of_decode read

/-- In a replicated start every lane but the main one has an Ingress instance. Its replica's
factory accepts it exactly if the address is read back and the middleware has names, and it
comes up with the configuration of the listener. -/
theorem replicas_instantiate [FieldOrder] (format : AddressFormat) [DecidableEq format.Address]
    (middleware : List String) {roots : Host.PluginRoots} {library : Host.PlanLibrary roots}
    {host : Host.ReplicatedHost roots library} {listening : Except String Unit}
    {start : Host.ReplicatedStart roots library} (display : library.Address → format.Address)
    (written : ∀ address config, library.toValue address config =
      .ok ((WebIngressConfig.codec format).encode (display address, config)))
    (typed : host.ingressConfig.Typed) (unique : (roots.ids host.root).Nodup)
    (started : host.startReplicated parser listening = .ok start) :
    ∃ address, host.address parser = .ok address ∧
      ∀ lane ∈ Host.executionLanes roots host.root, lane ≠ Host.mainLane →
        ∃ one, roots.find (Host.replicaId lane) (roots.instances start.root) = some one ∧
          roots.executionLane one = some lane ∧ ∀ config,
            instantiate format parser middleware (some (display address, host.ingressConfig))
              (roots.configuration one) = .ok config ↔
            format.ReadsBack (display address) ∧ validateMiddleware middleware = .ok () ∧
              config = (display address, host.ingressConfig) := by
  have laid := Host.startReplicated_laidOut unique started
  obtain ⟨address, configuration, listens, serialized, replicas, -⟩ := laid.replicas
  refine ⟨address, listens, fun lane declared other => ?_⟩
  obtain ⟨one, held, same, onLane⟩ := replicas lane declared other
  rw [written, Except.ok.injEq] at serialized
  refine ⟨one, held, onLane, fun config => ?_⟩
  have valid := (ListenerCoordinator.of_bind laid.listener).1
  rw [same, ← serialized, instantiate_encode typed]
  constructor
  · rintro ⟨back, -, -, named, agreed⟩
    obtain rfl := agreed _ rfl
    exact ⟨back, named, rfl⟩
  · rintro ⟨back, named, rfl⟩
    refine ⟨back, rfl, valid, named, fun coordinator agreed => ?_⟩
    cases agreed
    rfl

/-! ### A written configuration -/

/-- Addresses that are all the loopback address. -/
def loopbackOnly : AddressFormat where
  Address := Unit
  encode _ := .string (lit "127.0.0.1:0")
  decode
    | .string text => if text = lit "127.0.0.1:0" then .ok () else .error .invalidValue
    | _ => .error .invalidType
  loopback := ()
  decode_encode _ _ _ := rfl
  decode_loopback := rfl

instance : DecidableEq loopbackOnly.Address := inferInstanceAs (DecidableEq Unit)

/-- Two addresses by their texts, each with a flow label that is not written. -/
def flowLabelled : AddressFormat where
  Address := Bool × Nat
  encode address := .string (if address.1 then lit "[::1]:8080" else lit "127.0.0.1:0")
  decode
    | .string text =>
        if text = lit "[::1]:8080" then .ok (true, 0)
        else if text = lit "127.0.0.1:0" then .ok (false, 0)
        else .error .invalidValue
    | _ => .error .invalidType
  loopback := (false, 0)
  decode_encode json address read := by
    have labelled : address = (true, 0) ∨ address = (false, 0) := by
      split at read
      · split at read
        · exact .inl (Except.ok.inj read).symm
        · split at read
          · exact .inr (Except.ok.inj read).symm
          · cases read
      · cases read
    obtain rfl | rfl := labelled <;> rfl
  decode_loopback := rfl

instance : DecidableEq flowLabelled.Address := inferInstanceAs (DecidableEq (Bool × Nat))

/-- The origin of a browser application. -/
def appOrigin : UriParser :=
  .withTarget (ascii "https://app.example")
    (.absoluteForm (ascii "https") (ascii "app.example") none none) (List.cons_ne_nil _ _) rfl

/-- A policy of each kind, and a limit that is not the default. -/
def policedConfig : WebIngressConfig :=
  { WebIngressConfig.default with
    maxConnections := 64
    sessionCookie := some
      ⟨ascii "__Host-session", ascii "__Host-csrf", ascii "x-csrf-token"⟩
    websocket := some ⟨[ascii "https://app.example"], 65536, 1048576⟩ }

attribute [local instance] FieldOrder.byInsertion

theorem typed_policedConfig : policedConfig.Typed := by
  have read : (WebIngressConfig.codec flowLabelled).decode
      ((WebIngressConfig.codec flowLabelled).encode ((true, 0), policedConfig)) =
        .ok ((true, 0), policedConfig) := by decide +kernel
  exact ((WebIngressConfig.codec flowLabelled).fits_of_decode _ _ read).2

/-- The written configuration of a replica. Its address comes up without the flow label, so it is
the coordinator's where that has none. -/
theorem instantiate_faithful_policed :
    instantiate flowLabelled appOrigin ["trace"] (some ((true, 0), policedConfig))
        ((WebIngressConfig.codec flowLabelled).encode ((true, 7), policedConfig)) =
          .ok ((true, 0), policedConfig) ∧
      (∀ other, instantiate flowLabelled appOrigin ["trace"] (some ((true, 7), policedConfig))
        ((WebIngressConfig.codec flowLabelled).encode ((true, 7), policedConfig)) ≠ .ok other) ∧
      policedConfig.validate appOrigin = .ok () ∧
      instantiate flowLabelled appOrigin ["trace"] (some ((true, 0), policedConfig))
        ((WebIngressConfig.codec flowLabelled).encode ((true, 0), policedConfig)) =
          .ok ((true, 0), policedConfig) := by
  have valid : policedConfig.validate appOrigin = .ok () := by decide +kernel
  have named : validateMiddleware ["trace"] = .ok () := by decide +kernel
  obtain ⟨writes, back⟩ :=
    instantiate_faithful flowLabelled appOrigin ["trace"] (some ((true, 0), policedConfig))
  obtain ⟨insists, -⟩ :=
    instantiate_faithful flowLabelled appOrigin ["trace"] (some ((true, 7), policedConfig))
  have came :=
    (writes ((true, 7), policedConfig) typed_policedConfig ((true, 0), policedConfig)).mpr
      ⟨rfl, rfl, valid, named, fun coordinator same => Option.some.inj same⟩
  obtain ⟨-, -, -, again, -⟩ := back _ _ came
  refine ⟨came, fun other refused => ?_, valid, again⟩
  obtain ⟨read, -, -, -, agreed⟩ :=
    (insists ((true, 7), policedConfig) typed_policedConfig other).mp refused
  rw [agreed _ rfl] at read
  cases read

/-- Plans with the lanes of their catalog and configurations as they are written. -/
def writtenPlans : Host.PlanLibrary Host.PluginRoots.stored :=
  { Host.lanePlans with
    Address := Nat
    toValue := fun label config =>
      .ok ((WebIngressConfig.codec flowLabelled).encode ((true, label), config)) }

/-- The Endpoint runs on a lane of its own, and the listener has an address with a flow label
or without one. -/
def writtenHost (label : Nat) : Host.ReplicatedHost Host.PluginRoots.stored writtenPlans where
  toNativeWebHost := Host.ordersOnLane.toNativeWebHost
  bindAddress := some label
  ingressConfig := policedConfig
  ingressAddress := label
  extraDefaults := []
  extraBindings := []
  extraReleases := []
  middleware := []
  diagnostics := false
  extraAdapters := []
  replicatedLane _ := .ok ()

/-- The replica comes up where the address has no flow label, and not where it has one. -/
theorem replicas_instantiate_writtenHost :
    (∃ start one, (writtenHost 0).startReplicated appOrigin (.ok ()) = .ok start ∧
      Host.PluginRoots.stored.find (Host.replicaId (lit "web"))
        (Host.PluginRoots.stored.instances start.root) = some one ∧
      instantiate flowLabelled appOrigin ["trace"] (some ((true, 0), policedConfig))
        (Host.PluginRoots.stored.configuration one) = .ok ((true, 0), policedConfig)) ∧
    ∃ start one, (writtenHost 7).startReplicated appOrigin (.ok ()) = .ok start ∧
      Host.PluginRoots.stored.find (Host.replicaId (lit "web"))
        (Host.PluginRoots.stored.instances start.root) = some one ∧
      ∀ config, instantiate flowLabelled appOrigin ["trace"] (some ((true, 7), policedConfig))
        (Host.PluginRoots.stored.configuration one) ≠ .ok config := by
  have replica : ∀ label, ∃ start one,
      (writtenHost label).startReplicated appOrigin (.ok ()) = .ok start ∧
      Host.PluginRoots.stored.find (Host.replicaId (lit "web"))
        (Host.PluginRoots.stored.instances start.root) = some one ∧
      ∀ config, instantiate flowLabelled appOrigin ["trace"] (some ((true, label), policedConfig))
          (Host.PluginRoots.stored.configuration one) = .ok config ↔
        flowLabelled.ReadsBack (true, label) ∧ validateMiddleware ["trace"] = .ok () ∧
          config = ((true, label), policedConfig) := by
    intro label
    obtain ⟨start, started⟩ : ∃ start,
        (writtenHost label).startReplicated appOrigin (.ok ()) = .ok start := ⟨_, rfl⟩
    have unique : (Host.PluginRoots.stored.ids (writtenHost label).root).Nodup :=
      List.nodup_singleton _
    obtain ⟨address, listens, replicas⟩ := replicas_instantiate flowLabelled ["trace"]
      (fun label : Nat => (true, label)) (fun _ _ => rfl) typed_policedConfig unique started
    cases listens
    have declared : lit "web" ∈
        Host.executionLanes Host.PluginRoots.stored (writtenHost label).root := by
      rw [Host.mem_executionLanes]
      exact .inr ⟨_, List.mem_singleton_self _, rfl⟩
    obtain ⟨one, held, -, came⟩ := replicas (lit "web") declared (by decide +kernel)
    exact ⟨start, one, started, held, came⟩
  obtain ⟨plain, one, started, held, came⟩ := replica 0
  obtain ⟨labelled, other, startedToo, heldToo, refused⟩ := replica 7
  refine ⟨⟨plain, one, started, held, (came _).mpr ⟨rfl, by decide +kernel, rfl⟩⟩,
    labelled, other, startedToo, heldToo, fun config comes => ?_⟩
  obtain ⟨back, -⟩ := (refused config).mp comes
  cases back

end Ingress
