import LensoWeb.Foundation.Base64
import LensoWeb.Foundation.Result
import LensoWeb.Ingress.Routing

/-!
# The handshake grammar

Which header maps `Handshake::parse` accepts, field by field, and why the response of
an accepted session can always be written: its protocol was offered in the handshake,
and an offered protocol is a token.
-/

namespace Ingress

open Foundation Http Kernel

/-- What is relied on of the Base64 engine: it decodes what it encodes, to text. -/
structure HandshakeCodec.Correct (codec : HandshakeCodec) : Prop where
  decode_encode : ∀ bytes, codec.decode (codec.encode bytes) = some bytes
  encode_text : ∀ bytes, (codec.encode bytes).all isVisibleAscii = true

namespace Handshake

/-! ### Grammar -/

/-- Protocols that a client may offer. -/
structure Offerable (protocols : List Bytes) : Prop where
  some : 1 ≤ protocols.length
  bound : protocols.length ≤ 16
  distinct : protocols.Nodup
  tokens : ∀ protocol ∈ protocols,
    protocol ≠ [] ∧ protocol.all isTokenByte = true ∧ protocol.length ≤ 128

/-- The fields of a WebSocket handshake. -/
structure Fields (codec : HandshakeCodec) (headers : HeaderMap) (allowedOrigins : List Bytes) :
    Prop where
  upgrade : ∃ field, headers.getAll .upgrade = [field] ∧
    Text.eqIgnoreCase field.bytes (ascii "websocket") = true
  version : ∃ field, headers.getAll versionHeader = [field] ∧ field.bytes = ascii "13"
  connection : ∀ field ∈ headers.getAll .connection, field.bytes.all isVisibleAscii = true
  upgrading : ∃ field ∈ headers.getAll .connection, ∃ part ∈ Text.split 44 field.bytes,
    Text.eqIgnoreCase (Text.trim part) (ascii "upgrade") = true
  origin : headers.getAll originHeader = [] ∨
    ∃ field, headers.getAll originHeader = [field] ∧ field.bytes ∈ allowedOrigins
  key : ∃ field bytes, headers.getAll keyHeader = [field] ∧ bytes.length = 16 ∧
    field.bytes = codec.encode bytes
  protocol : headers.getAll protocolHeader = [] ∨ ∃ field,
    headers.getAll protocolHeader = [field] ∧
      Offerable ((Text.split 44 field.bytes).map Text.trim)

/-- The header maps of a WebSocket handshake. The origin is compared as text, so a field
with opaque bytes equals no listed origin. -/
structure Grammar (codec : HandshakeCodec) (headers : HeaderMap) (allowedOrigins : List Bytes) :
    Prop extends Fields codec headers allowedOrigins where
  readable : ∀ field ∈ headers.getAll originHeader, field.bytes.all isVisibleAscii = true

/-! ### Single fields -/

section Fields

variable {headers : HeaderMap} {name : HeaderName}

theorem single_some_iff {text : Bytes} : single headers name = .ok (some text) ↔
    ∃ field, headers.getAll name = [field] ∧ field.toStr = some text := by
  rw [single]
  rcases headers.getAll name with _ | ⟨field, _ | ⟨second, rest⟩⟩
  · simp
  · rcases visible : field.toStr with _ | found
    · simp [visible]
    · simp [visible]
  · rcases visible : field.toStr with _ | found
    · simp [visible]
    · simp [visible]

theorem single_none_iff : single headers name = .ok none ↔ headers.getAll name = [] := by
  rw [single]
  rcases headers.getAll name with _ | ⟨field, _ | ⟨second, rest⟩⟩
  · simp
  · rcases visible : field.toStr with _ | found
    · simp [visible]
    · simp [visible]
  · rcases visible : field.toStr with _ | found
    · simp [visible]
    · simp [visible]

/-- A single field with the given bytes, if these are text. -/
theorem single_bytes_iff {P : Bytes → Prop}
    (text : ∀ field, headers.getAll name = [field] → P field.bytes →
      field.bytes.all isVisibleAscii = true) :
    (∃ bytes, single headers name = .ok (some bytes) ∧ P bytes) ↔
      ∃ field, headers.getAll name = [field] ∧ P field.bytes := by
  constructor
  · rintro ⟨bytes, read, holds⟩
    obtain ⟨field, only, visible⟩ := single_some_iff.mp read
    obtain ⟨rfl, -⟩ := HeaderValue.toStr_eq_some_iff.mp visible
    exact ⟨field, only, holds⟩
  · rintro ⟨field, only, holds⟩
    exact ⟨field.bytes, single_some_iff.mpr ⟨field, only,
      HeaderValue.toStr_eq_some_iff.mpr ⟨rfl, text field only holds⟩⟩, holds⟩

end Fields

/-! ### The steps of the parser -/

section Parse

variable {codec : HandshakeCodec} {headers : HeaderMap} {allowedOrigins : List Bytes}

/-- The protocols that a field offers; a missing field offers none. -/
def offered (field : Option Bytes) : List Bytes :=
  (field.map fun value => (Text.split 44 value).map Text.trim).getD []

/-- The check of the offered protocols. -/
def acceptable (protocols : List Bytes) : Bool :=
  !(decide (16 < protocols.length) || protocols.any (fun value => !token value) ||
    protocols.zipIdx.any (fun entry => (protocols.take entry.2).contains entry.1))

/-- A check that ends the parse with an error. -/
theorem check_ok_iff {α : Type} {failed : Prop} [Decidable failed] {rest : Except Unit α}
    {result : α} :
    (if failed then Except.error () else rest) = .ok result ↔ ¬ failed ∧ rest = .ok result := by
  split
  · next holds => exact iff_of_false nofun fun passed => passed.1 holds
  · next holds => exact ⟨fun passed => ⟨holds, passed⟩, And.right⟩

theorem error_bind {α β : Type} {rest : α → Except Unit β} :
    (Except.error () >>= rest) = Except.error () := rfl

/-- The parser, check by check. -/
theorem parse_ok_iff {handshake : Handshake} :
    parse codec headers allowedOrigins = .ok handshake ↔
      (∃ upgrade, single headers .upgrade = .ok (some upgrade) ∧
        Text.eqIgnoreCase upgrade (ascii "websocket") = true) ∧
      single headers versionHeader = .ok (some (ascii "13")) ∧
      (∃ connection, (headers.getAll .connection).mapM visibleText = .ok connection ∧
        ∃ value ∈ connection, ∃ part ∈ Text.split 44 value,
          Text.eqIgnoreCase (Text.trim part) (ascii "upgrade") = true) ∧
      (∃ origin, single headers originHeader = .ok origin ∧ ∀ text ∈ origin, text ∈ allowedOrigins) ∧
      ∃ key decoded protocol, single headers keyHeader = .ok (some key) ∧
        codec.decode key = some decoded ∧ decoded.length = 16 ∧ codec.encode decoded = key ∧
        single headers protocolHeader = .ok protocol ∧ acceptable (offered protocol) = true ∧
        handshake = ⟨codec.encode (codec.sha1 (key ++
          ascii "258EAFA5-E914-47DA-95CA-C5AB0DC85B11")), offered protocol⟩ := by
  unfold parse
  simp only [error_bind, Result.bind_eq_ok, throw, throwThe, MonadExceptOf.throw, pure, Except.pure,
    check_ok_iff]
  constructor
  · rintro ⟨upgrade, readUpgrade, websocket, version, readVersion, current, connection, readFields,
      upgrading, origin, readOrigin, listed, key, readKey, rest⟩
    simp only [Bool.not_eq_true', Bool.not_eq_false, List.any_eq_true] at upgrading
    rw [not_not] at current
    subst current
    have origins : ∀ text ∈ origin, text ∈ allowedOrigins := by
      rintro text rfl
      simpa using listed
    obtain ⟨text, rfl, named⟩ : ∃ text, upgrade = some text ∧
        Text.eqIgnoreCase text (ascii "websocket") = true := by
      cases upgrade with
      | none => exact absurd rfl websocket
      | some text => exact ⟨text, rfl, by simpa using websocket⟩
    refine ⟨⟨text, readUpgrade, named⟩, readVersion, ⟨connection, readFields, upgrading⟩,
      ⟨origin, readOrigin, origins⟩, ?_⟩
    rcases key with _ | key
    · cases rest
    · dsimp only at rest
      rcases decodes : codec.decode key with _ | decoded
      · rw [decodes] at rest
        cases rest
      · simp only [decodes, check_ok_iff, Result.bind_eq_ok] at rest
        obtain ⟨canonical, protocol, readProtocol, accepted, built⟩ := rest
        simp only [Bool.or_eq_true, decide_eq_true_eq, not_or, not_not] at canonical
        cases built
        refine ⟨key, decoded, protocol, readKey, decodes, canonical.1, canonical.2, readProtocol,
          ?_, rfl⟩
        rw [acceptable, Bool.not_eq_true', ← Bool.not_eq_true]
        exact accepted
  · rintro ⟨⟨upgrade, readUpgrade, websocket⟩, readVersion, ⟨connection, readFields, upgrading⟩,
      ⟨origin, readOrigin, origins⟩, key, decoded, protocol, readKey, decodes, length, canonical,
      readProtocol, accepted, rfl⟩
    refine ⟨some upgrade, readUpgrade, by simpa using websocket, _, readVersion, not_not.mpr rfl,
      connection, readFields, ?_, origin, readOrigin, ?_, some key, readKey, ?_⟩
    · simpa only [Bool.not_eq_true', Bool.not_eq_false, List.any_eq_true] using upgrading
    · rcases origin with _ | text
      · simp
      · simpa using origins text rfl
    · simp only [decodes, check_ok_iff, Result.bind_eq_ok]
      refine ⟨by simp [length, canonical], protocol, readProtocol, ?_, rfl⟩
      rw [acceptable, Bool.not_eq_true', ← Bool.not_eq_true] at accepted
      exact accepted

/-! ### Field by field -/

/-- A name stands behind itself exactly where the list repeats it. -/
theorem repeats_iff {protocols : List Bytes} :
    protocols.zipIdx.any (fun entry => (protocols.take entry.2).contains entry.1) = false ↔
      protocols.Nodup := by
  rw [List.nodup_iff_getElem?_ne_getElem?, List.any_eq_false]
  constructor
  · intro unrepeated i j below inside same
    refine unrepeated (protocols[j], j) (List.mem_zipIdx_iff_getElem?.mpr ?_) ?_
    · rw [List.getElem?_eq_getElem inside]
    · rw [List.contains_iff_mem, List.mem_take_iff_getElem]
      rw [List.getElem?_eq_getElem inside, List.getElem?_eq_getElem (below.trans inside),
        Option.some.injEq] at same
      exact ⟨i, lt_min below (below.trans inside), same⟩
  · rintro distinct ⟨protocol, j⟩ member again
    have here := List.mem_zipIdx_iff_getElem?.mp member
    rw [List.contains_iff_mem, List.mem_take_iff_getElem] at again
    obtain ⟨i, earlier, same⟩ := again
    obtain ⟨below, inside⟩ := lt_min_iff.mp earlier
    refine distinct i j below (List.getElem?_eq_some_iff.mp here).1 ?_
    rw [here, List.getElem?_eq_getElem inside, same]

theorem token_iff {protocol : Bytes} : token protocol = true ↔
    protocol ≠ [] ∧ protocol.all isTokenByte = true ∧ protocol.length ≤ 128 := by
  simp only [token, Bool.and_eq_true, Bool.not_eq_true', List.isEmpty_eq_false_iff,
    decide_eq_true_eq]
  exact ⟨fun ⟨⟨nonempty, short⟩, valid⟩ => ⟨nonempty, valid, short⟩,
    fun ⟨nonempty, valid, short⟩ => ⟨⟨nonempty, short⟩, valid⟩⟩

theorem acceptable_iff {protocols : List Bytes} : acceptable protocols = true ↔
    protocols = [] ∨ Offerable protocols := by
  rw [acceptable, Bool.not_eq_true', Bool.or_eq_false_iff, Bool.or_eq_false_iff, repeats_iff,
    decide_eq_false_iff_not, not_lt, List.any_eq_false]
  simp only [Bool.not_eq_true', Bool.not_eq_false, token_iff]
  constructor
  · rintro ⟨⟨bound, tokens⟩, distinct⟩
    rcases protocols with _ | ⟨first, rest⟩
    · exact .inl rfl
    · exact .inr ⟨by simp, bound, distinct, tokens⟩
  · rintro (rfl | ⟨-, bound, distinct, tokens⟩)
    · simp
    · exact ⟨⟨bound, tokens⟩, distinct⟩

theorem isVisibleAscii_of_isTokenByte (byte : UInt8) :
    isTokenByte byte = true → isVisibleAscii byte = true :=
  Text.forall_byte (P := fun b => isTokenByte b = true → isVisibleAscii b = true)
    (by decide +kernel) byte

theorem isVisibleAscii_of_toLower (byte : UInt8) :
    isVisibleAscii (Text.toLower byte) = true → isVisibleAscii byte = true :=
  Text.forall_byte (P := fun b => isVisibleAscii (Text.toLower b) = true → isVisibleAscii b = true)
    (by decide +kernel) byte

/-- What equals visible text up to case is visible itself. -/
theorem visible_of_eqIgnoreCase {text known : Bytes}
    (same : Text.eqIgnoreCase text known = true)
    (visible : (Text.lowercase known).all isVisibleAscii = true) :
    text.all isVisibleAscii = true := by
  rw [Text.eqIgnoreCase_iff] at same
  rw [← same, Text.lowercase, List.all_map] at visible
  rw [List.all_eq_true] at visible ⊢
  exact fun byte member => isVisibleAscii_of_toLower byte (visible byte member)

/-- Fields read as text are their own bytes. -/
theorem visibleText_iff {field : HeaderValue} {text : Bytes} :
    visibleText field = .ok text ↔ field.bytes.all isVisibleAscii = true ∧ text = field.bytes := by
  unfold visibleText
  rcases visible : field.toStr with _ | found
  · simp only [reduceCtorEq, false_iff, not_and]
    intro all
    rw [HeaderValue.toStr_eq_some_iff.mpr ⟨rfl, all⟩] at visible
    cases visible
  · obtain ⟨rfl, all⟩ := HeaderValue.toStr_eq_some_iff.mp visible
    simp only [Except.ok.injEq, all, true_and]
    exact eq_comm

theorem visibleTexts_iff {fields : List HeaderValue} {texts : List Bytes} :
    fields.mapM visibleText = .ok texts ↔
      (∀ field ∈ fields, field.bytes.all isVisibleAscii = true) ∧
        texts = fields.map HeaderValue.bytes := by
  rw [Result.mapM_eq_ok]
  simp only [visibleText_iff]
  constructor
  · intro all
    induction all with
    | nil => simp
    | cons first _ ih =>
        obtain ⟨visible, rfl⟩ := first
        obtain ⟨others, rfl⟩ := ih
        exact ⟨List.forall_mem_cons.mpr ⟨visible, others⟩, rfl⟩
  · rintro ⟨all, rfl⟩
    rw [List.forall₂_map_right_iff, List.forall₂_same]
    exact fun field member => ⟨all field member, rfl⟩

theorem connection_iff :
    (∃ connection, (headers.getAll .connection).mapM visibleText = .ok connection ∧
      ∃ value ∈ connection, ∃ part ∈ Text.split 44 value,
        Text.eqIgnoreCase (Text.trim part) (ascii "upgrade") = true) ↔
    (∀ field ∈ headers.getAll .connection, field.bytes.all isVisibleAscii = true) ∧
      ∃ field ∈ headers.getAll .connection, ∃ part ∈ Text.split 44 field.bytes,
        Text.eqIgnoreCase (Text.trim part) (ascii "upgrade") = true := by
  simp only [visibleTexts_iff]
  constructor
  · rintro ⟨texts, ⟨visible, rfl⟩, value, member, part, split, upgrade⟩
    obtain ⟨field, present, rfl⟩ := List.mem_map.mp member
    exact ⟨visible, field, present, part, split, upgrade⟩
  · rintro ⟨visible, field, present, part, split, upgrade⟩
    exact ⟨_, ⟨visible, rfl⟩, field.bytes, List.mem_map.mpr ⟨field, present, rfl⟩, part, split,
      upgrade⟩

/-- An offer of tokens is text. -/
theorem visible_of_offerable {field : HeaderValue}
    (offer : Offerable ((Text.split 44 field.bytes).map Text.trim)) :
    field.bytes.all isVisibleAscii = true := by
  have comma : isVisibleAscii 44 = true := by decide
  refine (HeaderValue.visible_iff_pieces field comma).mpr fun piece split => ?_
  have valid := (offer.tokens _ (List.mem_map.mpr ⟨piece, split, rfl⟩)).2.1
  rw [List.all_eq_true] at valid ⊢
  exact fun byte member => isVisibleAscii_of_isTokenByte byte (valid byte member)

theorem protocol_iff :
    (∃ protocol, single headers protocolHeader = .ok protocol ∧
      acceptable (offered protocol) = true) ↔
    (headers.getAll protocolHeader = [] ∨ ∃ field, headers.getAll protocolHeader = [field] ∧
      Offerable ((Text.split 44 field.bytes).map Text.trim)) := by
  have offers := @single_bytes_iff headers protocolHeader
    (fun bytes => Offerable ((Text.split 44 bytes).map Text.trim))
    fun field _ offer => visible_of_offerable offer
  rw [← single_none_iff, ← offers]
  constructor
  · rintro ⟨_ | text, read, accepted⟩
    · exact .inl read
    · obtain nothing | offer := acceptable_iff.mp accepted
      · exact absurd (List.map_eq_nil_iff.mp nothing) (List.splitOn_ne_nil 44 text)
      · exact .inr ⟨text, read, offer⟩
  · rintro (read | ⟨text, read, offer⟩)
    · exact ⟨none, read, by decide⟩
    · exact ⟨some text, read, acceptable_iff.mpr (.inr offer)⟩

theorem origin_iff :
    (∃ origin, single headers originHeader = .ok origin ∧ ∀ text ∈ origin, text ∈ allowedOrigins) ↔
    (headers.getAll originHeader = [] ∨ ∃ field,
      headers.getAll originHeader = [field] ∧ field.bytes ∈ allowedOrigins) ∧
      ∀ field ∈ headers.getAll originHeader, field.bytes.all isVisibleAscii = true := by
  constructor
  · rintro ⟨_ | text, read, listed⟩
    · have absent := single_none_iff.mp read
      refine ⟨.inl absent, ?_⟩
      rw [absent]
      nofun
    · obtain ⟨field, only, visible⟩ := single_some_iff.mp read
      obtain ⟨rfl, all⟩ := HeaderValue.toStr_eq_some_iff.mp visible
      refine ⟨.inr ⟨field, only, listed _ rfl⟩, ?_⟩
      rw [only, List.forall_mem_singleton]
      exact all
  · rintro ⟨absent | ⟨field, only, listed⟩, readable⟩
    · exact ⟨none, single_none_iff.mpr absent, nofun⟩
    · rw [only, List.forall_mem_singleton] at readable
      refine ⟨some field.bytes, single_some_iff.mpr ⟨field, only, ?_⟩, ?_⟩
      · exact HeaderValue.toStr_eq_some_iff.mpr ⟨rfl, readable⟩
      · rintro _ ⟨⟩
        exact listed

theorem key_iff (correct : codec.Correct) :
    (∃ key decoded, single headers keyHeader = .ok (some key) ∧
      codec.decode key = some decoded ∧ decoded.length = 16 ∧ codec.encode decoded = key) ↔
    ∃ field bytes, headers.getAll keyHeader = [field] ∧ bytes.length = 16 ∧
      field.bytes = codec.encode bytes := by
  constructor
  · rintro ⟨key, decoded, read, -, length, rfl⟩
    obtain ⟨field, only, visible⟩ := single_some_iff.mp read
    exact ⟨field, decoded, only, length, (HeaderValue.toStr_eq_some_iff.mp visible).1⟩
  · rintro ⟨field, bytes, only, length, same⟩
    refine ⟨codec.encode bytes, bytes, single_some_iff.mpr ⟨field, only, ?_⟩,
      correct.decode_encode bytes, length, rfl⟩
    exact HeaderValue.toStr_eq_some_iff.mpr ⟨same, correct.encode_text bytes⟩

theorem upgrade_iff :
    (∃ upgrade, single headers .upgrade = .ok (some upgrade) ∧
      Text.eqIgnoreCase upgrade (ascii "websocket") = true) ↔
    ∃ field, headers.getAll .upgrade = [field] ∧
      Text.eqIgnoreCase field.bytes (ascii "websocket") = true :=
  single_bytes_iff (P := fun bytes => Text.eqIgnoreCase bytes (ascii "websocket") = true)
    fun _ _ same => visible_of_eqIgnoreCase same (by decide)

theorem version_iff : single headers versionHeader = .ok (some (ascii "13")) ↔
    ∃ field, headers.getAll versionHeader = [field] ∧ field.bytes = ascii "13" := by
  rw [← single_bytes_iff (P := fun bytes => bytes = ascii "13")]
  · simp
  · intro field _ same
    rw [same]
    decide

/-- The header maps that the parser accepts. -/
theorem parse_accepts_iff (correct : codec.Correct) :
    (∃ handshake, parse codec headers allowedOrigins = .ok handshake) ↔
      Grammar codec headers allowedOrigins := by
  simp only [parse_ok_iff]
  rw [upgrade_iff, version_iff, connection_iff, origin_iff]
  constructor
  · rintro ⟨handshake, upgrade, version, ⟨visible, upgrading⟩, ⟨origin, readable⟩, key, decoded,
      protocol, readKey, decodes, length, canonical, readProtocol, accepted, -⟩
    exact ⟨⟨upgrade, version, visible, upgrading, origin,
      (key_iff correct).mp ⟨key, decoded, readKey, decodes, length, canonical⟩,
      protocol_iff.mp ⟨protocol, readProtocol, accepted⟩⟩, readable⟩
  · rintro ⟨⟨upgrade, version, visible, upgrading, origin, keyed, offer⟩, readable⟩
    obtain ⟨key, decoded, readKey, decodes, length, canonical⟩ := (key_iff correct).mpr keyed
    obtain ⟨protocol, readProtocol, accepted⟩ := protocol_iff.mpr offer
    exact ⟨_, upgrade, version, ⟨visible, upgrading⟩, ⟨origin, readable⟩, key, decoded, protocol,
      readKey, decodes, length, canonical, readProtocol, accepted, rfl⟩

/-- A parsed handshake offers tokens only, and its answer is text. -/
theorem parse_writable (correct : codec.Correct) {handshake : Handshake}
    (parsed : parse codec headers allowedOrigins = .ok handshake) :
    handshake.accept.all isVisibleAscii = true ∧
      ∀ protocol ∈ handshake.protocols, protocol.all isVisibleAscii = true := by
  obtain ⟨-, -, -, -, key, decoded, protocol, -, -, -, -, -, accepted, rfl⟩ :=
    parse_ok_iff.mp parsed
  refine ⟨correct.encode_text _, ?_⟩
  obtain nothing | offer := acceptable_iff.mp accepted
  · dsimp only
    rw [nothing]
    nofun
  · intro name member
    obtain ⟨-, valid, -⟩ := offer.tokens name member
    rw [List.all_eq_true] at valid ⊢
    exact fun byte inside => isVisibleAscii_of_isTokenByte byte (valid byte inside)

end Parse

/-! ### Accepted sessions -/

section Session

variable {η : Type} {codec : HandshakeCodec} {stream : StreamId} {offers : List Bytes}
  {policy : WebSocketConfig} {events : List SocketEvent} {world after : World η}

/-- The protocol of an accepted session was offered. -/
theorem acceptSession_offered {session : WebSocketSession}
    (accepted : RouteTable.acceptSession stream offers policy events world =
      (.ready (.ok session), after)) {protocol : Bytes} (chosen : session.protocol = some protocol) :
    protocol ∈ offers := by
  unfold RouteTable.acceptSession at accepted
  split at accepted
  · cases accepted
  · split at accepted
    · next frame _ opens =>
      cases accepted
      have frameProtocol : frame.protocol = some protocol := chosen
      simp only [RouteTable.acceptsSession, Bool.and_eq_true, frameProtocol, Option.all_some] at opens
      exact List.contains_iff_mem.mp opens.2
    · cases accepted
  · cases accepted

/-- Text can be written as a field value. -/
theorem fromBytes_of_visible {text : Bytes} (visible : text.all isVisibleAscii = true) :
    ∃ value, HeaderValue.fromBytes text = some value := by
  have valid : text.all isValueByte = true := by
    rw [List.all_eq_true] at visible ⊢
    exact fun byte member => HeaderValue.isValueByte_of_visible byte (visible byte member)
  exact ⟨⟨text, valid⟩, dif_pos valid⟩

/-- A response is written on when its map has room for one field and for what follows. -/
theorem expect_insert_ready {headers : HeaderMap} {room : Nat}
    (free : headers.keys.length + (room + 1) ≤ HeaderMap.capacity) {name : HeaderName}
    {value : HeaderValue} {rest : HeaderMap → Task (World η) IngressResponse} {world : World η}
    (goesOn : ∀ next : HeaderMap, next.keys.length + room ≤ HeaderMap.capacity →
      ∃ result after, rest next world = (.ready result, after)) :
    ∃ result after, (Task.expect (headers.insert? name value) >>= rest) world =
      (.ready result, after) := by
  have inserted : headers.insert? name value = some (headers.insert name value) :=
    HeaderMap.insert?_eq_some_iff.mpr ⟨by rw [HeaderMap.HasRoom]; omega, rfl⟩
  rw [inserted]
  refine goesOn _ ?_
  have grown := headers.length_keys_insert_le name value
  omega

/-- The response of a session is written when its key and its protocol are text, and its map
has room for the four fields of a handshake. -/
theorem withSession_ready {upgrade : WebSocketUpgrade}
    (accept : upgrade.acceptKey.all isVisibleAscii = true)
    (protocol : ∀ name, upgrade.session.protocol = some name → name.all isVisibleAscii = true)
    (response : IngressResponse) (free : response.headers.keys.length + 4 ≤ HeaderMap.capacity)
    (world : World η) :
    ∃ result after, response.withSession (.webSocket upgrade) world = (.ready result, after) := by
  obtain ⟨value, written⟩ := fromBytes_of_visible accept
  rw [IngressResponse.withSession]
  split
  · exact ⟨_, _, rfl⟩
  · refine expect_insert_ready free fun headers free => ?_
    refine expect_insert_ready free fun headers free => ?_
    rw [written]
    refine expect_insert_ready free fun headers free => ?_
    rcases chosen : upgrade.session.protocol with _ | name
    · exact ⟨_, _, rfl⟩
    · obtain ⟨field, named⟩ := fromBytes_of_visible (protocol name chosen)
      simp only [named]
      exact expect_insert_ready free fun headers _ => ⟨_, _, rfl⟩

/-- The parser accepts exactly the grammar; and whatever the provider of an accepted
handshake sends first, its session has no protocol or an offered one, so that the fields
of the response can be written, where the map of the response has room for them. -/
theorem parse_accepts_grammar (correct : codec.Correct) (headers : HeaderMap)
    (allowedOrigins : List Bytes) :
    ((∃ handshake, parse codec headers allowedOrigins = .ok handshake) ↔
      Grammar codec headers allowedOrigins) ∧
    ∀ handshake, parse codec headers allowedOrigins = .ok handshake →
      ∀ (stream : StreamId) (policy : WebSocketConfig) (events : List SocketEvent)
        (world after : World η) (session : WebSocketSession),
        RouteTable.acceptSession stream handshake.protocols policy events world =
          (.ready (.ok session), after) →
        (∀ protocol, session.protocol = some protocol → protocol ∈ handshake.protocols) ∧
        (∃ value, HeaderValue.fromBytes handshake.accept = some value) ∧
        (∀ protocol, session.protocol = some protocol →
          ∃ value, HeaderValue.fromBytes protocol = some value) ∧
        ∀ (response : IngressResponse) (world : World η),
          response.headers.keys.length + 4 ≤ HeaderMap.capacity → ∃ result after,
          response.withSession (.webSocket ⟨session, handshake.accept⟩) world =
            (.ready result, after) := by
  refine ⟨parse_accepts_iff correct, ?_⟩
  intro handshake parsed stream policy events world after session accepted
  obtain ⟨accept, protocols⟩ := parse_writable correct parsed
  have offer : ∀ protocol, session.protocol = some protocol → protocol ∈ handshake.protocols :=
    fun protocol chosen => acceptSession_offered accepted chosen
  have text : ∀ protocol, session.protocol = some protocol →
      protocol.all isVisibleAscii = true :=
    fun protocol chosen => protocols protocol (offer protocol chosen)
  refine ⟨offer, fromBytes_of_visible accept, ?_, ?_⟩
  · exact fun protocol chosen => fromBytes_of_visible (text protocol chosen)
  · exact fun response world free => withSession_ready accept text response free world

/-- Base64, with the digest of the sample key of the handshake tests. -/
def sampleCodec : HandshakeCodec where
  decode := Base64.decode
  encode := Base64.encode
  sha1 _ := [0xb3, 0x7a, 0x4f, 0x2c, 0xc0, 0x62, 0x4f, 0x16, 0x90, 0xf6, 0x46, 0x06, 0xcf, 0x38,
    0x59, 0x45, 0xb2, 0xbe, 0xc4, 0xea]

theorem sampleCodec_correct : sampleCodec.Correct where
  decode_encode := Base64.decode_encode
  encode_text bytes := by
    rw [List.all_eq_true]
    intro byte member
    obtain letter | rfl := Base64.mem_encode member
    · exact (by decide +kernel : ∀ byte ∈ Base64.alphabet, isVisibleAscii byte = true) byte letter
    · decide

/-- The headers of the handshake tests, with an offer of two protocols. -/
def sampleHeaders : HeaderMap :=
  ((((((∅ : HeaderMap).insert .upgrade ⟨ascii "websocket", rfl⟩).insert .connection
    ⟨ascii "keep-alive, Upgrade", by decide⟩).insert versionHeader ⟨ascii "13", by decide⟩).insert
    keyHeader ⟨ascii "dGhlIHNhbXBsZSBub25jZQ==", by decide⟩).insert protocolHeader
    ⟨ascii "chat, superchat", by decide⟩)

def sampleHandshake : Handshake :=
  ⟨ascii "s3pPLMBiTxaQ9kYGzzhZRbK+xOo=", [ascii "chat", ascii "superchat"]⟩

theorem parse_sample : parse sampleCodec sampleHeaders [] = .ok sampleHandshake := by
  decide +kernel

theorem parse_accepts_sample :
    Grammar sampleCodec sampleHeaders [] ∧
      ∀ (stream : StreamId) (policy : WebSocketConfig) (world : World Unit)
        (response : IngressResponse), response.headers.keys.length + 4 ≤ HeaderMap.capacity →
        ∃ result after, response.withSession (.webSocket ⟨.accepted stream (some (ascii "chat"))
          policy.maxMessageBytes policy.maxSessionBytes, sampleHandshake.accept⟩) world =
            (.ready result, after) := by
  obtain ⟨grammar, writable⟩ :=
    @parse_accepts_grammar Unit sampleCodec sampleCodec_correct sampleHeaders []
  refine ⟨grammar.mp ⟨_, parse_sample⟩, fun stream policy world response free => ?_⟩
  let frame : Frame := ⟨.accept, some (ascii "chat"), none, none, none, none⟩
  have opened : RouteTable.acceptSession stream sampleHandshake.protocols policy
      [.ok (.message frame)] world = (.ready (.ok (.accepted stream (some (ascii "chat"))
        policy.maxMessageBytes policy.maxSessionBytes)), world) := rfl
  obtain ⟨-, -, -, written⟩ := writable _ parse_sample stream policy _ world world _ opened
  exact written response world free

/-- An origin with opaque bytes, listed with the same bytes. -/
def rawOrigin : HeaderValue := ⟨ascii "https://" ++ [0xc3, 0xa9], by decide⟩

/-- A listed origin is refused where its field is not visible text. -/
theorem parse_raw_origin :
    Fields sampleCodec (sampleHeaders.insert originHeader rawOrigin) [rawOrigin.bytes] ∧
      parse sampleCodec (sampleHeaders.insert originHeader rawOrigin) [rawOrigin.bytes] =
        .error () := by
  refine ⟨⟨⟨⟨ascii "websocket", by decide⟩, rfl, by decide⟩, ⟨⟨ascii "13", by decide⟩, rfl, rfl⟩,
    ?_, ⟨⟨ascii "keep-alive, Upgrade", by decide⟩, ?_, ascii " Upgrade", ?_, by decide⟩,
    .inr ⟨rawOrigin, rfl, List.mem_singleton_self _⟩, ?_, .inr ⟨⟨ascii "chat, superchat",
      by decide⟩, rfl, ⟨by decide, by decide, by decide, by decide⟩⟩⟩, by decide +kernel⟩
  · decide +kernel
  · decide +kernel
  · decide +kernel
  · exact ⟨⟨ascii "dGhlIHNhbXBsZSBub25jZQ==", by decide⟩, ascii "the sample nonce", by decide +kernel,
      by decide, by decide +kernel⟩

end Session

end Handshake

end Ingress
