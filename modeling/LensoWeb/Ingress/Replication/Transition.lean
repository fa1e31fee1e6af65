import LensoWeb.Ingress.Replication

/-!
# What one coordinator action can do

`CoordinatorStep` lists the transitions of the coordinator with their guards.
Every later argument goes by cases on it and never unfolds the step function.
-/

namespace Ingress

open Foundation Http

namespace ListenerCoordinator

variable {config : WebIngressConfig} {s t : ListenerCoordinator} {action : CoordinatorAction}

/-- A bound coordinator has a valid configuration and at least one slot. -/
theorem of_bind {parser : UriParser} {replicaCount : Nat}
    (bound : ListenerCoordinator.bind parser config replicaCount = .ok s) :
    config.validate parser = .ok () ∧ 0 < replicaCount ∧ s = unallocated config replicaCount := by
  unfold ListenerCoordinator.bind at bound
  split at bound
  · cases bound
  · next valid =>
    split at bound
    · cases bound
    · next positive =>
      cases bound
      exact ⟨valid, Nat.pos_of_ne_zero positive, rfl⟩

/-- The transitions, one constructor for each outcome of an action. -/
inductive CoordinatorStep (config : WebIngressConfig) (s : ListenerCoordinator) :
    CoordinatorAction → ListenerCoordinator → Prop
  | drawSlot : CoordinatorStep config s .drawSlot s.drawSlot
  | allocateDrawn {slot : Nat} (drawn : slot ∈ s.allocating) (free : s.acceptor.locked = false) :
      CoordinatorStep config s (.allocateDrawn slot)
        { (s.allocateReplicaAt slot).2 with allocating := s.allocating.erase slot }
  | allocateReplicaAt {slot : Nat} (free : s.acceptor.locked = false) :
      CoordinatorStep config s (.allocateReplicaAt slot) (s.allocateReplicaAt slot).2
  | register {slot : Nat} {routes : WebIngressRouteManifest} {middleware : List String}
      (handle : slot ∈ s.replicas) (free : s.acceptor.locked = false) :
      CoordinatorStep config s (.register slot routes middleware)
        (s.register config slot routes middleware).2
  | signalReady (pending : s.publishing ≠ 0) :
      CoordinatorStep config s .signalReady
        { s with publishing := s.publishing - 1, ready := true }
  | refuse (idle : s.acceptor = .idle) (exhausted : s.connectionConcurrency = 0) :
      CoordinatorStep config s .accept
        { s with
          accepted := s.accepted + 1
          history := s.history ++ [.refused s.accepted s.connectionConcurrency] }
  | grantPermit (idle : s.acceptor = .idle) (available : s.connectionConcurrency ≠ 0) :
      CoordinatorStep config s .accept
        { s with
          accepted := s.accepted + 1
          connectionConcurrency := s.connectionConcurrency - 1
          acceptor := .admitted s.accepted }
  | lock {socket : Socket} (admitted : s.acceptor = .admitted socket) :
      CoordinatorStep config s .lock (s.lock socket)
  | skipAbsent {scan : Scan} (trying : s.acceptor = .trying scan)
      (remaining : scan.offset < s.state.slots.length) (absent : s.view (s.target scan) = none) :
      CoordinatorStep config s .trySend
        { s with acceptor := .trying (s.advance scan scan.waiting) }
  | skipFull {scan : Scan} {id : ChannelId} {channel : Channel Socket}
      (trying : s.acceptor = .trying scan) (remaining : scan.offset < s.state.slots.length)
      (found : s.view (s.target scan) = some (id, channel)) (isOpen : channel.isOpen = true)
      (full : channel.queue.length = channel.capacity) :
      CoordinatorStep config s .trySend
        { s with acceptor := .trying (s.advance scan (scan.waiting ++ [id])) }
  | skipClosed {scan : Scan} {id : ChannelId} {channel : Channel Socket}
      (trying : s.acceptor = .trying scan) (remaining : scan.offset < s.state.slots.length)
      (found : s.view (s.target scan) = some (id, channel)) (closed : channel.isOpen = false) :
      CoordinatorStep config s .trySend
        { s with acceptor := .trying (s.advance scan scan.waiting) }
  | place {scan : Scan} {id : ChannelId} {channel : Channel Socket}
      (trying : s.acceptor = .trying scan) (remaining : scan.offset < s.state.slots.length)
      (found : s.view (s.target scan) = some (id, channel)) (room : channel.HasRoom) :
      CoordinatorStep config s .trySend
        { s with
          channels := s.channels.set id (channel.push scan.socket room)
          acceptor := .idle
          history := s.history ++
            [.placed scan.socket scan.start (s.target scan) scan.seen (some (id, channel))] }
  | unlock {scan : Scan} (trying : s.acceptor = .trying scan)
      (exhausted : ¬ scan.offset < s.state.slots.length) :
      CoordinatorStep config s .unlock (s.unlock scan)
  | reserve {scan : Scan} {registered : List (Option ChannelId)} {id : ChannelId}
      {channel : Channel Socket} (reserving : s.acceptor = .reserving scan registered)
      (awaited : id ∈ scan.waiting) (present : s.channels[id]? = some channel)
      (room : channel.HasRoom) :
      CoordinatorStep config s (.reserve id)
        { s with
          channels := s.channels.set id (channel.push scan.socket room)
          acceptor := .idle
          history := s.history ++ [.reserved scan.socket scan.start scan.seen id] }
  | reservationFails {scan : Scan} {registered : List (Option ChannelId)} {id : ChannelId}
      {channel : Channel Socket} (reserving : s.acceptor = .reserving scan registered)
      (awaited : id ∈ scan.waiting) (present : s.channels[id]? = some channel)
      (closed : channel.isOpen = false) :
      CoordinatorStep config s (.reservationFails id)
        { s with
          acceptor := .reserving { scan with waiting := scan.waiting.erase id } registered }
  | abandon {scan : Scan} {registered : List (Option ChannelId)}
      (reserving : s.acceptor = .reserving scan registered) (none : scan.waiting = []) :
      CoordinatorStep config s .abandon (s.abandon scan registered)
  | receive {id : ChannelId} {channel rest : Channel Socket} {socket : Socket}
      (present : s.channels[id]? = some channel) (received : channel.recv = some (socket, rest)) :
      CoordinatorStep config s (.receive id)
        { s with channels := s.channels.set id rest, serving := s.serving ++ [socket] }
  | complete {socket : Socket} (served : socket ∈ s.serving) :
      CoordinatorStep config s (.complete socket)
        { s with
          connectionConcurrency := s.connectionConcurrency + 1
          serving := s.serving.erase socket
          finished := s.finished ++ [socket] }
  | dropReceiver {id : ChannelId} {channel : Channel Socket}
      (present : s.channels[id]? = some channel) :
      CoordinatorStep config s (.dropReceiver id)
        { s with
          channels := s.channels.set id channel.close
          connectionConcurrency := s.connectionConcurrency + channel.queue.length
          finished := s.finished ++ channel.queue }

/-- One iteration of the scan ends in one of four ways. -/
theorem CoordinatorStep.of_trySend {scan : Scan} (trying : s.acceptor = .trying scan)
    (remaining : scan.offset < s.state.slots.length) :
    CoordinatorStep config s .trySend (s.trySend scan) := by
  unfold ListenerCoordinator.trySend
  cases found : s.view (s.target scan) with
  | none => exact .skipAbsent trying remaining found
  | some entry =>
      obtain ⟨id, channel⟩ := entry
      rcases channel.trySend_cases scan.socket with
        ⟨room, sent⟩ | ⟨isOpen, full, sent⟩ | ⟨closed, sent⟩
      · simp only [sent]
        exact .place trying remaining found room
      · simp only [sent]
        exact .skipFull trying remaining found isOpen full
      · simp only [sent]
        exact .skipClosed trying remaining found closed

theorem CoordinatorStep.of_reserve {scan : Scan} {registered : List (Option ChannelId)}
    {id : ChannelId} (reserving : s.acceptor = .reserving scan registered)
    (awaited : id ∈ scan.waiting) (reserved : s.reserve scan id = some t) :
    CoordinatorStep config s (.reserve id) t := by
  unfold ListenerCoordinator.reserve at reserved
  cases present : s.channels[id]? with
  | none =>
      rw [present] at reserved
      cases reserved
  | some channel =>
      simp only [present, Option.bind_eq_bind, Option.bind_some] at reserved
      obtain ⟨room, sent⟩ | ⟨-, -, sent⟩ | ⟨-, sent⟩ := channel.trySend_cases scan.socket
      · rw [sent] at reserved
        cases reserved
        exact .reserve reserving awaited present room
      all_goals
        rw [sent] at reserved
        cases reserved

theorem CoordinatorStep.of_reservationFails {scan : Scan}
    {registered : List (Option ChannelId)} {id : ChannelId}
    (reserving : s.acceptor = .reserving scan registered) (awaited : id ∈ scan.waiting)
    (failed : s.reservationFails scan registered id = some t) :
    CoordinatorStep config s (.reservationFails id) t := by
  unfold ListenerCoordinator.reservationFails at failed
  cases present : s.channels[id]? with
  | none =>
      rw [present] at failed
      cases failed
  | some channel =>
      simp only [present, Option.bind_eq_bind, Option.bind_some] at failed
      cases status : channel.isOpen with
      | true =>
          rw [status] at failed
          cases failed
      | false =>
          rw [status] at failed
          cases failed
          exact .reservationFails reserving awaited present status

theorem CoordinatorStep.of_receive {id : ChannelId} (received : s.receive id = some t) :
    CoordinatorStep config s (.receive id) t := by
  unfold ListenerCoordinator.receive at received
  cases present : s.channels[id]? with
  | none =>
      rw [present] at received
      cases received
  | some channel =>
      cases taken : channel.recv with
      | none =>
          simp only [present, Option.bind_eq_bind, Option.bind_some, taken] at received
          cases received
      | some entry =>
          simp only [present, Option.bind_eq_bind, Option.bind_some, taken] at received
          cases received
          exact .receive present taken

theorem CoordinatorStep.of_dropReceiver {id : ChannelId} (dropped : s.dropReceiver id = some t) :
    CoordinatorStep config s (.dropReceiver id) t := by
  unfold ListenerCoordinator.dropReceiver at dropped
  cases present : s.channels[id]? with
  | none =>
      rw [present] at dropped
      cases dropped
  | some channel =>
      simp only [present, Option.bind_eq_bind, Option.bind_some] at dropped
      cases dropped
      exact .dropReceiver present

/-- The step function takes no other transition than the listed ones. -/
theorem CoordinatorStep.of_step (transition : step config s action = some t) :
    CoordinatorStep config s action t := by
  cases action with
  | drawSlot =>
      cases transition
      exact .drawSlot
  | allocateDrawn slot =>
      simp only [step] at transition
      split at transition
      · next guards =>
        cases transition
        exact .allocateDrawn guards.1 guards.2
      · cases transition
  | allocateReplicaAt slot =>
      simp only [step] at transition
      split at transition
      · cases transition
      · next free =>
        cases transition
        exact .allocateReplicaAt (Bool.eq_false_of_not_eq_true free)
  | register slot routes middleware =>
      simp only [step] at transition
      split at transition
      · next guards =>
        cases transition
        exact .register guards.1 guards.2
      · cases transition
  | signalReady =>
      simp only [step] at transition
      split at transition
      · cases transition
      · next pending =>
        cases transition
        exact .signalReady pending
  | accept =>
      simp only [step] at transition
      split at transition
      · next idle =>
        cases transition
        unfold ListenerCoordinator.accept
        split
        · next exhausted => exact .refuse idle exhausted
        · next available => exact .grantPermit idle available
      · cases transition
  | lock =>
      simp only [step] at transition
      split at transition
      · next admitted =>
        cases transition
        exact .lock admitted
      · cases transition
  | trySend =>
      simp only [step] at transition
      split at transition
      · next trying =>
        split at transition
        · next remaining =>
          cases transition
          exact .of_trySend trying remaining
        · cases transition
      · cases transition
  | unlock =>
      simp only [step] at transition
      split at transition
      · next trying =>
        split at transition
        · cases transition
        · next exhausted =>
          cases transition
          exact .unlock trying exhausted
      · cases transition
  | reserve id =>
      simp only [step] at transition
      split at transition
      · next reserving =>
        split at transition
        · next awaited => exact .of_reserve reserving awaited transition
        · cases transition
      · cases transition
  | reservationFails id =>
      simp only [step] at transition
      split at transition
      · next reserving =>
        split at transition
        · next awaited => exact .of_reservationFails reserving awaited transition
        · cases transition
      · cases transition
  | abandon =>
      simp only [step] at transition
      split at transition
      · next reserving =>
        split at transition
        · next none =>
          cases transition
          exact .abandon reserving none
        · cases transition
      · cases transition
  | receive id => exact .of_receive transition
  | complete socket =>
      simp only [step, ListenerCoordinator.complete] at transition
      split at transition
      · next served =>
        cases transition
        exact .complete served
      · cases transition
  | dropReceiver id => exact .of_dropReceiver transition

end ListenerCoordinator

end Ingress
