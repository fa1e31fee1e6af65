import LensoWeb.Ingress.Response

/-!
# What the transports share

Request identifiers, the size of a request head, the declared body length and
concurrency permits. The state of a semaphore and of a cancellation token at the
moment it is asked is part of a call's surroundings, which the transports take as
an argument.
-/

namespace Ingress

open Foundation Http Kernel

variable {η : Type}

/-- `RequestIdSequence::next` on the counter of this lane. -/
def World.drawRequestId : Task (World η) UInt64 := fun world =>
  (.ready (nextRequestId world.requestIds).1,
    { world with requestIds := (nextRequestId world.requestIds).2 })

/-- `replace_request_id`: the headers with the new identifier, and the identifier. A
request that a transport hands over has fewer fields than a map can hold. -/
def replaceRequestId (headers : HeaderMap) : Task (World η) (HeaderMap × HeaderValue) := do
  let requestId ← Task.expect (requestIdHeaderValue (← World.drawRequestId))
  return (headers.insert requestIdHeader requestId, requestId)

/-- `version_len`. -/
def versionLen (_version : Version) : Nat := 8

/-- `serialized_uri_len`. -/
def serializedUriLen (uri : Uri) : Nat :=
  uri.pathAndQuery.elim 0 List.length + uri.scheme.elim 0 (fun scheme => scheme.length + 3) +
    uri.authority.elim 0 List.length

/-- `canonical_request_head_len`. -/
def canonicalRequestHeadLen {β : Type} (request : Request β) : Nat :=
  request.method.token.length + 1 + serializedUriLen request.uri + 1 +
    versionLen request.version + 2 +
    (request.headers.toList.map fun field =>
      field.1.text.length + 2 + field.2.bytes.length + 2).sum + 2

/-! ### Declared lengths -/

/-- One digit of `usize::from_str`, which refuses a value beyond 64 bits. -/
def usizeDigit (value : Nat) (byte : UInt8) : Option Nat :=
  if 48 ≤ byte ∧ byte ≤ 57 then
    let next := value * 10 + (byte.toNat - 48)
    if next < 2 ^ 64 then some next else none
  else none

/-- `usize::from_str`: decimal digits behind an optional plus sign. -/
def parseUsize (text : Bytes) : Option Nat :=
  let digits := if text.head? = some 43 then text.tail else text
  if digits.isEmpty then none else digits.foldlM usizeDigit 0

/-- The `Content-Length` that both transports read. -/
def contentLength (headers : HeaderMap) : Option Nat := do
  let value ← headers.get? .contentLength
  let text ← value.toStr
  parseUsize text

/-- Whether the declared length is beyond the limit. -/
def declaresTooMuch (headers : HeaderMap) (limit : Nat) : Bool :=
  (contentLength headers).any fun length => decide (limit < length)

/-- A buffered body is beyond the limit, or is declared to be. -/
def oversized (request : Request Bytes) (limit : Nat) : Bool :=
  decide (limit < request.body.length) || declaresTooMuch request.headers limit

/-! ### Permits -/

/-- What ends the wait for a permit. -/
inductive PermitAnswer where
  | granted
  | cancelled
  | never
deriving DecidableEq

/-- A semaphore at the moment it is asked. -/
inductive Semaphore where
  | available
  | contended (answer : PermitAnswer)
  | closed
deriving DecidableEq

variable {σ : Type}

/-- The wait for a permit beside a cancellation token: whether one was granted. -/
def awaitPermit : PermitAnswer → Task σ Bool
  | .granted => return true
  | .cancelled => return false
  | .never => .never

/-- `acquire_request_permit`. -/
def acquireRequestPermit (semaphore : Semaphore) (cancelled : Bool) : Task σ Bool :=
  if cancelled then return false
  else
    match semaphore with
    | .available => return true
    | .contended answer => awaitPermit answer
    | .closed => .panic

/-- `acquire_owned` beside the cancellation token. A closed semaphore grants nothing. -/
def acquireOwned : Semaphore → Task σ Bool
  | .available => return true
  | .contended answer => awaitPermit answer
  | .closed => return false

/-- The semaphore grants a permit, at once or after a wait. -/
def Semaphore.grants : Semaphore → Bool
  | .available => true
  | .contended answer => answer == .granted
  | .closed => false

theorem awaitPermit_ready {answer : PermitAnswer} {granted : Bool} {s t : σ}
    (returned : awaitPermit answer s = (.ready granted, t)) :
    granted = (answer == .granted) ∧ t = s := by
  cases answer <;> cases returned <;> exact ⟨rfl, rfl⟩

theorem acquireRequestPermit_ready {semaphore : Semaphore} {cancelled granted : Bool} {s t : σ}
    (returned : acquireRequestPermit semaphore cancelled s = (.ready granted, t)) :
    granted = (!cancelled && semaphore.grants) ∧ t = s := by
  unfold acquireRequestPermit at returned
  cases cancelled with
  | true => cases returned; exact ⟨rfl, rfl⟩
  | false =>
      cases semaphore with
      | contended answer => exact awaitPermit_ready returned
      | available => cases returned; exact ⟨rfl, rfl⟩
      | closed => cases returned

end Ingress
