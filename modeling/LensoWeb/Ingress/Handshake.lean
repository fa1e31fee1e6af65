import LensoWeb.Http.Message

/-!
# WebSocket handshakes

Validation of an HTTP/1.1 upgrade request. Base64 and SHA-1 come from outside;
`HandshakeCodec` stands for them.
-/

namespace Ingress

open Foundation Http

/-- The standard Base64 engine and the SHA-1 digest. -/
structure HandshakeCodec where
  decode : Bytes → Option Bytes
  encode : Bytes → Bytes
  sha1 : Bytes → Bytes

/-- A validated handshake. -/
structure Handshake where
  accept : Bytes
  protocols : List Bytes
deriving DecidableEq

namespace Handshake

def versionHeader : HeaderName :=
  ⟨ascii "sec-websocket-version", by decide, by decide, by decide, by decide⟩
def keyHeader : HeaderName :=
  ⟨ascii "sec-websocket-key", by decide, by decide, by decide, by decide⟩
def protocolHeader : HeaderName :=
  ⟨ascii "sec-websocket-protocol", by decide, by decide, by decide, by decide⟩
def acceptHeader : HeaderName :=
  ⟨ascii "sec-websocket-accept", by decide, by decide, by decide, by decide⟩
def originHeader : HeaderName := ⟨ascii "origin", by decide, by decide, by decide, by decide⟩

/-- `single`: absent, or one visible field; a second field is refused unread. -/
def single (headers : HeaderMap) (name : HeaderName) : Except Unit (Option Bytes) :=
  match headers.getAll name with
  | [] => .ok none
  | value :: rest =>
      match value.toStr with
      | none => .error ()
      | some text => if rest.isEmpty then .ok (some text) else .error ()

/-- `token`. -/
def token (value : Bytes) : Bool :=
  !value.isEmpty && decide (value.length ≤ 128) && value.all isTokenByte

/-- A `Connection` field as text. -/
def visibleText (value : HeaderValue) : Except Unit Bytes :=
  match value.toStr with
  | some text => .ok text
  | none => .error ()

/-- `Handshake::parse`. -/
def parse (codec : HandshakeCodec) (headers : HeaderMap) (allowedOrigins : List Bytes) :
    Except Unit Handshake := do
  let upgrade ← single headers .upgrade
  if !upgrade.any (Text.eqIgnoreCase · (ascii "websocket")) then throw ()
  let version ← single headers versionHeader
  if version ≠ some (ascii "13") then throw ()
  let connection ← (headers.getAll .connection).mapM visibleText
  if !connection.any (fun value =>
      (Text.split 44 value).any fun token => Text.eqIgnoreCase (Text.trim token) (ascii "upgrade")) then
    throw ()
  let origin ← single headers originHeader
  if origin.any fun origin => !allowedOrigins.contains origin then throw ()
  let some key ← single headers keyHeader | throw ()
  let some decoded := codec.decode key | throw ()
  if decoded.length ≠ 16 || codec.encode decoded ≠ key then throw ()
  let protocols := ((← single headers protocolHeader).map fun value =>
    (Text.split 44 value).map Text.trim).getD []
  if decide (16 < protocols.length) || protocols.any (fun value => !token value) ||
      protocols.zipIdx.any (fun entry => (protocols.take entry.2).contains entry.1) then throw ()
  return {
    accept := codec.encode (codec.sha1 (key ++ ascii "258EAFA5-E914-47DA-95CA-C5AB0DC85B11"))
    protocols }

end Handshake

end Ingress
