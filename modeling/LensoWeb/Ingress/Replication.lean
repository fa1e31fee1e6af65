import LensoWeb.Foundation.Channel
import LensoWeb.Foundation.Transition
import LensoWeb.Ingress.Config
import LensoWeb.Ingress.Manifest

/-!
# The listener coordinator

One listener is shared by a fixed number of lane replicas. Replicas allocate a
slot, register a manifest and a connection queue in it, and then receive sockets
from one acceptor that hands them out round-robin under one connection budget.

An action is one atomic segment: what happens under one hold of the state lock,
one atomic counter, one channel operation. The scan of the acceptor holds the
lock over several channel operations, so lanes keep receiving during a scan but
nobody allocates or registers. Awaited reservations hold no lock.

The coordinator outlives every action of a run. A socket is named by the order
in which it was accepted, and its connection permit travels with it.
-/

namespace Ingress

open Foundation Http

abbrev Socket := Nat
abbrev ChannelId := Nat

/-- `WebIngressReplicaManifest`. -/
structure WebIngressReplicaManifest where
  middleware : List String
  routes : WebIngressRouteManifest
deriving DecidableEq

structure ReplicaSlot where
  allocated : Bool
  manifest : Option WebIngressReplicaManifest
  connections : Option ChannelId
deriving DecidableEq

/-- What the state lock protects. -/
structure CoordinatorState where
  slots : List ReplicaSlot
  canonicalManifest : Option WebIngressReplicaManifest
deriving DecidableEq

namespace CoordinatorState

/-- `CoordinatorState::ready`. -/
def ready (state : CoordinatorState) : Bool := state.slots.all (·.manifest.isSome)

/-- The registered senders of all slots, in slot order. -/
def senders (state : CoordinatorState) : List (Option ChannelId) :=
  state.slots.map (·.connections)

/-- The locked part of `allocate_replica_at`. -/
def allocateReplicaAt (state : CoordinatorState) (slot : Nat) :
    Except String Unit × CoordinatorState :=
  let slotCount := state.slots.length
  match state.slots[slot]? with
  | none => (.error s!"Web Ingress listener coordinator expected {slotCount} replicas", state)
  | some replica =>
      if replica.allocated then
        (.error s!"Web Ingress listener coordinator replica slot {slot} is already allocated",
          state)
      else
        (.ok (), { state with slots := state.slots.set slot { replica with allocated := true } })

/-- The two slot writes of `register` and the readiness they result in. -/
def publish (state : CoordinatorState) (slot : Nat) (manifest : WebIngressReplicaManifest)
    (connections : ChannelId) : Bool × CoordinatorState :=
  let written : CoordinatorState :=
    { state with
      slots := state.slots.modify slot fun replica =>
        { replica with manifest := some manifest, connections := some connections } }
  (written.ready, written)

/-- The locked part of `register`. The first manifest becomes the canonical one. -/
def register (state : CoordinatorState) (slot : Nat) (manifest : WebIngressReplicaManifest)
    (connections : ChannelId) : Except String Bool × CoordinatorState :=
  match state.canonicalManifest with
  | some canonical =>
      if canonical ≠ manifest then
        (.error "same-port Web Ingress replicas have different route or middleware manifests",
          state)
      else
        let (ready, written) := state.publish slot manifest connections
        (.ok ready, written)
  | none =>
      let (ready, written) :=
        { state with canonicalManifest := some manifest }.publish slot manifest connections
      (.ok ready, written)

end CoordinatorState

/-- What the acceptor saw in a slot: nothing registered, or a channel. -/
abbrev SlotView := Option (ChannelId × Channel Socket)

/-- The loop of `distribute_connection`. `seen` records the slots already tried
and what was in them. -/
structure Scan where
  socket : Socket
  start : Nat
  offset : Nat
  waiting : List ChannelId
  seen : List (Nat × SlotView)

/-- Where the acceptor stands. `admitted` holds a permit, `trying` the state lock;
`reserving` recalls the senders that were registered during its scan. -/
inductive Acceptor where
  | idle
  | admitted (socket : Socket)
  | trying (scan : Scan)
  | reserving (scan : Scan) (registered : List (Option ChannelId))

/-- The socket in the acceptor's hand. -/
def Acceptor.hand : Acceptor → Option Socket
  | .idle => none
  | .admitted socket => some socket
  | .trying scan => some scan.socket
  | .reserving scan _ => some scan.socket

/-- The scan holds the state lock. -/
def Acceptor.locked : Acceptor → Bool
  | .trying _ => true
  | _ => false

/-- How `distribute_connection` ended for a socket. -/
inductive Disposition where
  | refused (socket : Socket) (available : Nat)
  | abandoned (socket : Socket) (registered : List (Option ChannelId))
  | placed (socket : Socket) (start slot : Nat) (seen : List (Nat × SlotView))
      (target : SlotView)
  | reserved (socket : Socket) (start : Nat) (seen : List (Nat × SlotView))
      (channel : ChannelId)

/-- The socket of a disposition that put it into a queue. -/
def Disposition.enqueued : Disposition → Option Socket
  | .placed socket _ _ _ _ => some socket
  | .reserved socket _ _ _ => some socket
  | _ => none

/-- The socket of a disposition that dropped it. -/
def Disposition.discarded : Disposition → Option Socket
  | .refused socket _ => some socket
  | .abandoned socket _ => some socket
  | _ => none

/-- The shared coordinator, the calls in progress on it, and where the accepted
sockets are. `allocating` holds indices drawn from `nextSlot` whose slot has not
been tried yet, `replicas` the slots handed out, `publishing` the registrations
that are still to raise the ready signal. -/
structure ListenerCoordinator where
  state : CoordinatorState
  nextSlot : Nat
  nextConnection : Nat
  connectionConcurrency : Nat
  ready : Bool
  allocating : List Nat
  replicas : List Nat
  publishing : Nat
  channels : List (Channel Socket)
  acceptor : Acceptor
  accepted : Nat
  serving : List Socket
  finished : List Socket
  history : List Disposition

inductive CoordinatorAction where
  | drawSlot
  | allocateDrawn (slot : Nat)
  | allocateReplicaAt (slot : Nat)
  | register (slot : Nat) (routes : WebIngressRouteManifest) (middleware : List String)
  | signalReady
  | accept
  | lock
  | trySend
  | unlock
  | reserve (channel : ChannelId)
  | reservationFails (channel : ChannelId)
  | abandon
  | receive (channel : ChannelId)
  | complete (socket : Socket)
  | dropReceiver (channel : ChannelId)
deriving DecidableEq

namespace ListenerCoordinator

/-- Wrap-around of `AtomicUsize::fetch_add`. -/
def fetchAdd (counter : Nat) : Nat := (counter + 1) % 2 ^ 64

/-- A coordinator none of whose slots is allocated. -/
def unallocated (config : WebIngressConfig) (replicaCount : Nat) : ListenerCoordinator where
  state :=
    { slots := List.replicate replicaCount ⟨false, none, none⟩
      canonicalManifest := none }
  nextSlot := 0
  nextConnection := 0
  connectionConcurrency := config.maxConnections
  ready := false
  allocating := []
  replicas := []
  publishing := 0
  channels := []
  acceptor := .idle
  accepted := 0
  serving := []
  finished := []
  history := []

/-- `WebIngressListenerCoordinator::bind`, without the operating system's part. -/
def bind (parser : UriParser) (config : WebIngressConfig) (replicaCount : Nat) :
    Except String ListenerCoordinator :=
  match config.validate parser with
  | .error message => .error message
  | .ok () =>
      if replicaCount = 0 then
        .error "Web Ingress listener coordinator requires at least one replica"
      else .ok (unallocated config replicaCount)

/-- The capacity of every connection queue. -/
def queueCapacity (config : WebIngressConfig) (slotCount : Nat) : Nat :=
  max (config.maxConnections ⌈/⌉ slotCount) 1

/-- `fetch_add` of `allocate_replica`. -/
def drawSlot (s : ListenerCoordinator) : ListenerCoordinator :=
  { s with nextSlot := fetchAdd s.nextSlot, allocating := s.allocating ++ [s.nextSlot] }

/-- `WebIngressListenerCoordinator::allocate_replica_at`. -/
def allocateReplicaAt (s : ListenerCoordinator) (slot : Nat) :
    Except String Nat × ListenerCoordinator :=
  match s.state.allocateReplicaAt slot with
  | (.ok (), state) => (.ok slot, { s with state, replicas := s.replicas ++ [slot] })
  | (.error message, state) => (.error message, { s with state })

/-- `WebIngressReplica::register` up to the release of the state lock. The
channel is created first and is lost with a refused registration. -/
def register (config : WebIngressConfig) (s : ListenerCoordinator) (slot : Nat)
    (routes : WebIngressRouteManifest) (middleware : List String) :
    Except String ChannelId × ListenerCoordinator :=
  let connections := s.channels.length
  let channel := Channel.create (queueCapacity config s.state.slots.length)
  match s.state.register slot ⟨middleware, routes⟩ connections with
  | (.ok ready, state) =>
      (.ok connections,
        { s with
          state
          channels := s.channels ++ [channel]
          publishing := s.publishing + cond ready 1 0 })
  | (.error message, state) => (.error message, { s with state })

/-- The slot as the acceptor finds it. -/
def view (s : ListenerCoordinator) (slot : Nat) : SlotView := do
  let replica ← s.state.slots[slot]?
  let id ← replica.connections
  let channel ← s.channels[id]?
  some (id, channel)

/-- Admission: a socket that finds no permit is dropped. -/
def accept (s : ListenerCoordinator) : ListenerCoordinator :=
  if s.connectionConcurrency = 0 then
    { s with
      accepted := s.accepted + 1
      history := s.history ++ [.refused s.accepted s.connectionConcurrency] }
  else
    { s with
      accepted := s.accepted + 1
      connectionConcurrency := s.connectionConcurrency - 1
      acceptor := .admitted s.accepted }

/-- Take the state lock and draw the round-robin start. -/
def lock (s : ListenerCoordinator) (socket : Socket) : ListenerCoordinator :=
  { s with
    nextConnection := fetchAdd s.nextConnection
    acceptor := .trying
      { socket, start := s.nextConnection % s.state.slots.length, offset := 0
        waiting := [], seen := [] } }

/-- The slot that the next iteration of the slot loop tries. -/
def target (s : ListenerCoordinator) (scan : Scan) : Nat :=
  (scan.start + scan.offset) % s.state.slots.length

/-- The scan after one more slot that did not take the socket. -/
def advance (s : ListenerCoordinator) (scan : Scan) (waiting : List ChannelId) : Scan :=
  { scan with
    offset := scan.offset + 1
    waiting
    seen := scan.seen ++ [(s.target scan, s.view (s.target scan))] }

/-- One iteration of the slot loop. -/
def trySend (s : ListenerCoordinator) (scan : Scan) : ListenerCoordinator :=
  match s.view (s.target scan) with
  | none => { s with acceptor := .trying (s.advance scan scan.waiting) }
  | some (id, channel) =>
      match channel.trySend scan.socket with
      | .ok sent =>
          { s with
            channels := s.channels.set id sent
            acceptor := .idle
            history := s.history ++
              [.placed scan.socket scan.start (s.target scan) scan.seen (some (id, channel))] }
      | .error .full =>
          { s with acceptor := .trying (s.advance scan (scan.waiting ++ [id])) }
      | .error .closed => { s with acceptor := .trying (s.advance scan scan.waiting) }

/-- The loop is over: release the lock and await a reservation on every full queue. -/
def unlock (s : ListenerCoordinator) (scan : Scan) : ListenerCoordinator :=
  { s with acceptor := .reserving scan s.state.senders }

/-- A reservation succeeds and the socket is sent through it. -/
def reserve (s : ListenerCoordinator) (scan : Scan) (id : ChannelId) :
    Option ListenerCoordinator := do
  let channel ← s.channels[id]?
  match channel.trySend scan.socket with
  | .ok sent =>
      some
        { s with
          channels := s.channels.set id sent
          acceptor := .idle
          history := s.history ++ [.reserved scan.socket scan.start scan.seen id] }
  | .error _ => none

/-- A reservation on a closed channel ends with an error. -/
def reservationFails (s : ListenerCoordinator) (scan : Scan)
    (registered : List (Option ChannelId)) (id : ChannelId) : Option ListenerCoordinator := do
  let channel ← s.channels[id]?
  if channel.isOpen then none
  else
    some
      { s with
        acceptor := .reserving { scan with waiting := scan.waiting.erase id } registered }

/-- No reservation is left: the socket is dropped with its permit. -/
def abandon (s : ListenerCoordinator) (scan : Scan) (registered : List (Option ChannelId)) :
    ListenerCoordinator :=
  { s with
    connectionConcurrency := s.connectionConcurrency + 1
    acceptor := .idle
    history := s.history ++ [.abandoned scan.socket registered] }

/-- `ReplicaConnectionSource::receive` yields a connection to the lane. -/
def receive (s : ListenerCoordinator) (id : ChannelId) : Option ListenerCoordinator := do
  let channel ← s.channels[id]?
  let (socket, rest) ← channel.recv
  some { s with channels := s.channels.set id rest, serving := s.serving ++ [socket] }

/-- A served connection ends. -/
def complete (s : ListenerCoordinator) (socket : Socket) : Option ListenerCoordinator :=
  if socket ∈ s.serving then
    some
      { s with
        connectionConcurrency := s.connectionConcurrency + 1
        serving := s.serving.erase socket
        finished := s.finished ++ [socket] }
  else none

/-- A lane drops its receiver, and with it the connections still queued. -/
def dropReceiver (s : ListenerCoordinator) (id : ChannelId) : Option ListenerCoordinator := do
  let channel ← s.channels[id]?
  some
    { s with
      channels := s.channels.set id channel.close
      connectionConcurrency := s.connectionConcurrency + channel.queue.length
      finished := s.finished ++ channel.queue }

/-- One action. Allocation and registration need the state lock; a replica handle
may be registered any number of times. -/
def step (config : WebIngressConfig) (s : ListenerCoordinator) :
    CoordinatorAction → Option ListenerCoordinator
  | .drawSlot => some s.drawSlot
  | .allocateDrawn slot =>
      if slot ∈ s.allocating ∧ s.acceptor.locked = false then
        some { (s.allocateReplicaAt slot).2 with allocating := s.allocating.erase slot }
      else none
  | .allocateReplicaAt slot =>
      if s.acceptor.locked then none else some (s.allocateReplicaAt slot).2
  | .register slot routes middleware =>
      if slot ∈ s.replicas ∧ s.acceptor.locked = false then
        some (s.register config slot routes middleware).2
      else none
  | .signalReady =>
      if s.publishing = 0 then none
      else some { s with publishing := s.publishing - 1, ready := true }
  | .accept =>
      match s.acceptor with
      | .idle => some s.accept
      | _ => none
  | .lock =>
      match s.acceptor with
      | .admitted socket => some (s.lock socket)
      | _ => none
  | .trySend =>
      match s.acceptor with
      | .trying scan =>
          if scan.offset < s.state.slots.length then some (s.trySend scan) else none
      | _ => none
  | .unlock =>
      match s.acceptor with
      | .trying scan =>
          if scan.offset < s.state.slots.length then none
          else some (s.unlock scan)
      | _ => none
  | .reserve id =>
      match s.acceptor with
      | .reserving scan _ => if id ∈ scan.waiting then s.reserve scan id else none
      | _ => none
  | .reservationFails id =>
      match s.acceptor with
      | .reserving scan registered =>
          if id ∈ scan.waiting then s.reservationFails scan registered id else none
      | _ => none
  | .abandon =>
      match s.acceptor with
      | .reserving scan registered =>
          if scan.waiting = [] then some (s.abandon scan registered) else none
      | _ => none
  | .receive id => s.receive id
  | .complete socket => s.complete socket
  | .dropReceiver id => s.dropReceiver id

end ListenerCoordinator

/-- All interleavings of one listener and its lanes. -/
def coordinator (parser : UriParser) (config : WebIngressConfig) (replicaCount : Nat) :
    Machine ListenerCoordinator CoordinatorAction where
  initial s := ListenerCoordinator.bind parser config replicaCount = .ok s
  step := ListenerCoordinator.step config

end Ingress
