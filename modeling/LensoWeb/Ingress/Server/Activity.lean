import LensoWeb.Foundation.Census
import LensoWeb.Ingress.ResponseStream.Reading
import LensoWeb.Ingress.Server

/-!
# Activity of a native connection

A connection counts the calls of its service and remembers when the last of them
returned. A watchdog sleeps until the connection has been idle for its timeout,
and its return starts the forced close. Hyper polls the body of a response after
the call has returned; a buffered body is there by then, a streaming body is
produced chunk by chunk.

Instants are milliseconds. HTTP/2 refuses streams beyond the configured number of
concurrent requests, so no more exchanges than that are unfinished at a time.
-/

namespace Ingress

open Foundation Http Kernel

/-! ### The counter -/

/-- `ConnectionActivityState`. -/
structure ConnectionActivity where
  activeRequests : Nat
  idleSince : Nat
deriving DecidableEq

namespace ConnectionActivity

/-- `ConnectionActivity::begin`. -/
def begin (self : ConnectionActivity) : ConnectionActivity :=
  { self with activeRequests := min (self.activeRequests + 1) (2 ^ 64 - 1) }

/-- The drop of an `ActiveRequest`. -/
def release (self : ConnectionActivity) (now : Nat) : ConnectionActivity :=
  let remaining := self.activeRequests - 1
  ⟨remaining, if remaining = 0 then now else self.idleSince⟩

/-- The next deadline of `wait_for_connection_idle`. -/
def deadline (self : ConnectionActivity) (timeout now : Nat) : Nat :=
  if self.activeRequests = 0 then self.idleSince + timeout else now + timeout

/-- The check of `wait_for_connection_idle` behind its sleep. -/
def expired (self : ConnectionActivity) (timeout now : Nat) : Bool :=
  self.activeRequests == 0 && decide (timeout ≤ now - self.idleSince)

end ConnectionActivity

/-! ### Streaming bodies -/

/-- `StreamingBody`. `receiving` says whether a `receive` is under way. -/
structure StreamingBody where
  stream : WebIngressResponseStream
  receiving : Bool
  done : Bool

namespace StreamingBody

/-- `StreamingBody::new`. -/
def new (stream : WebIngressResponseStream) : StreamingBody := ⟨stream, false, false⟩

/-- The first segment of a poll: the `receive` under way, or a new one. -/
def entry (self : StreamingBody) : ReceiveEntry × WebIngressResponseStream :=
  if self.receiving then (.awaiting, self.stream) else self.stream.enter

/-- `StreamingBody::poll_frame`, with the event that has arrived, if any. -/
def pollFrame (self : StreamingBody) (event : Option ResponseEvent) : StreamingBody :=
  if self.done then self
  else
    match self.entry, event with
    | (.refused, stream), _ => ⟨stream, false, true⟩
    | (.finished, stream), _ => ⟨stream, false, true⟩
    | (.awaiting, stream), none => ⟨stream, true, false⟩
    | (.awaiting, stream), some event =>
        match stream.received event with
        | (.again, stream) => ⟨stream, true, false⟩
        | (.chunk _, stream) => ⟨stream, false, false⟩
        | (.finished, stream) => ⟨stream, false, true⟩
        | (.failed _, stream) => ⟨stream, false, true⟩

end StreamingBody

/-! ### One connection -/

/-- A request of the connection: its call is in progress, or Hyper holds its streaming
body, or there is nothing left to produce. -/
inductive Exchange where
  | calling
  | streaming (body : StreamingBody)
  | produced

namespace Exchange

/-- The service call has not returned. -/
def isCalling : Exchange → Nat
  | calling => 1
  | _ => 0

/-- A streaming body still waits for chunks or produces them. -/
def isStreaming : Exchange → Nat
  | streaming body => (!body.done).toNat
  | _ => 0

/-- The response body has not been fully produced. -/
def unfinished (exchange : Exchange) : Nat := exchange.isCalling + exchange.isStreaming

/-- What is left to produce of a returned response. -/
def ofBody : ResponseBody → Exchange
  | .buffered _ => produced
  | .streaming stream => streaming (.new stream)

end Exchange

/-- Where `wait_for_connection_idle` has got. -/
inductive Watchdog where
  | sleeping (deadline : Nat)
  | returned
deriving DecidableEq

structure ConnectionState where
  clock : Nat
  activity : ConnectionActivity
  watchdog : Watchdog
  exchanges : List Exchange

inductive ConnectionAction (η : Type) where
  | arrive
  | returns (index : Nat) (method : Method) (response : IngressResponse) (world : World η)
  | poll (index : Nat) (event : Option ResponseEvent)
  | drop (index : Nat)
  | tick (millis : Nat)
  | wake

namespace ConnectionState

variable {η : Type}

/-- The requests whose response body has not been fully produced. -/
def unfinished (s : ConnectionState) : Nat := census Exchange.unfinished s.exchanges

/-- The streaming bodies that still wait for chunks or produce them. -/
def streamingBodies (s : ConnectionState) : Nat := census Exchange.isStreaming s.exchanges

/-- The service calls in progress. -/
def calls (s : ConnectionState) : Nat := census Exchange.isCalling s.exchanges

/-- A call begins, with its guard. -/
def beginCall (s : ConnectionState) : ConnectionState :=
  { s with activity := s.activity.begin, exchanges := s.exchanges ++ [.calling] }

/-- A call ends, with its guard. -/
def endCall (s : ConnectionState) (index : Nat) (exchange : Exchange) : ConnectionState :=
  { s with
    activity := s.activity.release s.clock
    exchanges := s.exchanges.set index exchange }

/-- The end of `call`: the response as Hyper gets it. -/
def handOver (method : Method) (response : IngressResponse) (world : World η) : Exchange :=
  match ((response.normalizeBody method >>= IngressResponse.intoResponse) world).1 with
  | .ready reply => .ofBody reply.body
  | _ => .produced

/-- One round of `wait_for_connection_idle` behind its sleep. -/
def wake (s : ConnectionState) (timeout : Nat) : ConnectionState :=
  if s.activity.expired timeout s.clock then { s with watchdog := .returned }
  else { s with watchdog := .sleeping (s.activity.deadline timeout s.clock) }

def step (config : WebIngressConfig) (s : ConnectionState) :
    ConnectionAction η → Option ConnectionState
  | .arrive =>
      if s.watchdog = .returned ∨ config.maxConcurrentRequests ≤ s.unfinished then none
      else some s.beginCall
  | .returns index method response world =>
      match s.exchanges[index]? with
      | some .calling => some (s.endCall index (handOver method response world))
      | _ => none
  | .poll index event =>
      match s.exchanges[index]? with
      | some (.streaming body) =>
          some { s with exchanges := s.exchanges.set index (.streaming (body.pollFrame event)) }
      | _ => none
  | .drop index =>
      match s.exchanges[index]? with
      | some .calling => some (s.endCall index .produced)
      | some (.streaming _) => some { s with exchanges := s.exchanges.set index .produced }
      | _ => none
  | .tick millis => some { s with clock := s.clock + millis }
  | .wake =>
      match s.watchdog with
      | .sleeping deadline =>
          if deadline ≤ s.clock then some (s.wake config.connectionIdleTimeoutMillis) else none
      | .returned => none

/-- A new connection at some instant. -/
def start (config : WebIngressConfig) (clock : Nat) : ConnectionState where
  clock := clock
  activity := ⟨0, clock⟩
  watchdog := .sleeping (ConnectionActivity.deadline ⟨0, clock⟩
    config.connectionIdleTimeoutMillis clock)
  exchanges := []

def machine (η : Type) (config : WebIngressConfig) :
    Machine ConnectionState (ConnectionAction η) where
  initial s := ∃ clock, s = start config clock
  step := step config

end ConnectionState

end Ingress
