import LensoWeb.Ingress.Replication.Agreement

/-!
# Exactly-once connection hand-off

Three invariants of the coordinator: how slots are wired to channels, what the
acceptor knows about the slots it has tried, and in whose custody every accepted
socket and every connection permit is.

The scan sends a socket to the first slot, in cyclic order, that has room when
its turn comes. If none has, the socket goes to whichever full queue frees room
first, so the cyclic order no longer decides.
-/

namespace Ingress

open Foundation Http

namespace ListenerCoordinator

variable {parser : UriParser} {config : WebIngressConfig} {replicaCount : Nat}
  {s t : ListenerCoordinator} {action : CoordinatorAction}

/-- The receiving end of the channel has been dropped. -/
def Closed (s : ListenerCoordinator) (id : ChannelId) : Prop :=
  ∃ channel, s.channels[id]? = some channel ∧ channel.isOpen = false

/-! ### Channels and senders -/

/-- Channels are never removed, resized or reopened. -/
def Evolves (before after : List (Channel Socket)) : Prop :=
  ∀ (id : ChannelId) (channel : Channel Socket), before[id]? = some channel →
    ∃ channel' : Channel Socket, after[id]? = some channel' ∧ channel'.capacity = channel.capacity ∧
      (channel.isOpen = false → channel'.isOpen = false)

theorem Evolves.refl (channels : List (Channel Socket)) : Evolves channels channels :=
  fun _ channel present => ⟨channel, present, rfl, fun unchanged => unchanged⟩

theorem Evolves.set {channels : List (Channel Socket)} {id : ChannelId}
    {channel channel' : Channel Socket} (present : channels[id]? = some channel)
    (capacity : channel'.capacity = channel.capacity)
    (closed : channel.isOpen = false → channel'.isOpen = false) :
    Evolves channels (channels.set id channel') := by
  intro other found inside
  by_cases same : id = other
  · subst same
    cases present.symm.trans inside
    obtain ⟨inRange, -⟩ := List.getElem?_eq_some_iff.mp present
    exact ⟨channel', List.getElem?_set_self inRange, capacity, closed⟩
  · exact ⟨found, (List.getElem?_set_ne same).trans inside, rfl, fun unchanged => unchanged⟩

theorem Evolves.concat (channels : List (Channel Socket)) (fresh : Channel Socket) :
    Evolves channels (channels ++ [fresh]) := by
  intro id channel present
  obtain ⟨inRange, -⟩ := List.getElem?_eq_some_iff.mp present
  exact ⟨channel, (List.getElem?_append_left inRange).trans present, rfl, fun unchanged => unchanged⟩

theorem view_eq_some {slot : Nat} {id : ChannelId} {channel : Channel Socket} :
    s.view slot = some (id, channel) ↔
      s.state.senders[slot]? = some (some id) ∧ s.channels[id]? = some channel := by
  simp only [view, CoordinatorState.senders, List.getElem?_map, Option.bind_eq_bind,
    Option.bind_eq_some_iff, Option.map_eq_some_iff]
  constructor
  · rintro ⟨replica, inside, id', sender, channel', present, same⟩
    cases same
    exact ⟨⟨replica, inside, sender⟩, present⟩
  · rintro ⟨⟨replica, inside, sender⟩, present⟩
    exact ⟨replica, inside, id, sender, channel, present, rfl⟩

theorem CoordinatorStep.evolves (taken : CoordinatorStep config s action t) :
    Evolves s.channels t.channels := by
  cases taken with
  | allocateDrawn drawn free =>
      obtain ⟨state, replicas, same⟩ := s.allocateReplicaAt_frame _
      rw [same]
      exact .refl _
  | allocateReplicaAt free =>
      obtain ⟨state, replicas, same⟩ := s.allocateReplicaAt_frame _
      rw [same]
      exact .refl _
  | register handle free =>
      obtain ⟨_, _, _, _, refused⟩ | ⟨_, accepted⟩ := s.register_cases config _ _ _
      · rw [refused]
        exact .refl _
      · rw [accepted]
        exact .concat _ _
  | place trying remaining found room =>
      exact .set (view_eq_some.mp found).2 rfl fun closed => closed
  | reserve reserving awaited present room => exact .set present rfl fun closed => closed
  | receive present received =>
      obtain ⟨-, capacity, status⟩ := Channel.recv_eq_some received
      exact .set present capacity fun closed => status.trans closed
  | dropReceiver present => exact .set present rfl fun _ => rfl
  | _ => exact .refl _

theorem Closed.step {id : ChannelId} (closed : s.Closed id)
    (taken : CoordinatorStep config s action t) : t.Closed id := by
  obtain ⟨channel, present, status⟩ := closed
  obtain ⟨channel', present', -, status'⟩ := taken.evolves id channel present
  exact ⟨channel', present', status' status⟩

/-- Senders change only by a registration, which needs the lock and brings a
channel of its own. -/
theorem CoordinatorStep.senders (taken : CoordinatorStep config s action t) :
    t.state.senders = s.state.senders ∨
    ∃ slot, s.acceptor.locked = false ∧
      t.state.senders = s.state.senders.set slot (some s.channels.length) ∧
      t.channels =
        s.channels ++ [Channel.create (queueCapacity config s.state.slots.length)] := by
  cases taken with
  | allocateDrawn drawn free =>
      obtain ⟨_, refused⟩ | ⟨_, allocated, _, _, _, same, _⟩ := s.allocateReplicaAt_cases _
      · rw [refused]
        exact .inl rfl
      · rw [allocated]
        exact .inl same
  | allocateReplicaAt free =>
      obtain ⟨_, refused⟩ | ⟨_, allocated, _, _, _, same, _⟩ := s.allocateReplicaAt_cases _
      · rw [refused]
        exact .inl rfl
      · rw [allocated]
        exact .inl same
  | register handle free =>
      obtain ⟨_, _, _, _, refused⟩ | ⟨_, accepted⟩ := s.register_cases config _ _ _
      · rw [refused]
        exact .inl rfl
      · rw [accepted]
        exact .inr ⟨_, free, CoordinatorState.registered_senders, rfl⟩
  | _ => exact .inl rfl

/-- Registered senders lead to channels of the common capacity, and no two slots
share one. -/
structure Wiring (config : WebIngressConfig) (replicaCount : Nat) (s : ListenerCoordinator) :
    Prop where
  registered : ∀ (slot : Nat) (id : ChannelId), s.state.senders[slot]? = some (some id) →
    ∃ channel : Channel Socket, s.channels[id]? = some channel ∧
      channel.capacity = queueCapacity config replicaCount
  distinct : ∀ (slot slot' : Nat) (id : ChannelId), s.state.senders[slot]? = some (some id) →
    s.state.senders[slot']? = some (some id) → slot = slot'

theorem Wiring.step (prior : Wiring config replicaCount s)
    (slots : s.state.slots.length = replicaCount) (taken : CoordinatorStep config s action t) :
    Wiring config replicaCount t := by
  have present : ∀ (slot : Nat) (id : ChannelId), s.state.senders[slot]? = some (some id) →
      ∃ channel : Channel Socket, t.channels[id]? = some channel ∧
        channel.capacity = queueCapacity config replicaCount := by
    intro slot id sender
    obtain ⟨channel, present, capacity⟩ := prior.registered slot id sender
    obtain ⟨channel', present', capacity', -⟩ := taken.evolves id channel present
    exact ⟨channel', present', capacity'.trans capacity⟩
  have known : ∀ (slot : Nat) (id : ChannelId), s.state.senders[slot]? = some (some id) →
      id < s.channels.length := by
    intro slot id sender
    obtain ⟨channel, present, -⟩ := prior.registered slot id sender
    exact (List.getElem?_eq_some_iff.mp present).1
  obtain same | ⟨written, -, senders, channels⟩ := taken.senders
  · refine ⟨?_, ?_⟩
    · rw [same]
      exact present
    · rw [same]
      exact prior.distinct
  · refine ⟨?_, ?_⟩
    · intro slot id sender
      rw [senders, List.getElem?_set] at sender
      split at sender
      · split at sender
        · cases sender
          refine ⟨Channel.create (queueCapacity config s.state.slots.length), ?_, ?_⟩
          · rw [channels]
            exact List.getElem?_concat_length
          · rw [slots]
            rfl
        · cases sender
      · exact present slot id sender
    · intro slot slot' id sender sender'
      rw [senders, List.getElem?_set] at sender sender'
      split at sender <;> split at sender'
      · next first second => exact first.symm.trans second
      · split at sender
        · cases sender
          exact absurd (known slot' _ sender') (Nat.lt_irrefl _)
        · cases sender
      · split at sender'
        · cases sender'
          exact absurd (known slot _ sender) (Nat.lt_irrefl _)
        · cases sender'
      · exact prior.distinct slot slot' id sender sender'

theorem wiring_of_reachable (reached : (coordinator parser config replicaCount).Reachable s) :
    Wiring config replicaCount s := by
  refine reached.invariant (P := Wiring config replicaCount) ?_ ?_
  · intro s bound
    obtain ⟨-, -, rfl⟩ := of_bind bound
    have empty : ∀ (slot : Nat) (id : ChannelId),
        (unallocated config replicaCount).state.senders[slot]? ≠ some (some id) := by
      intro slot id sender
      have member := List.mem_of_getElem? sender
      simp [unallocated, CoordinatorState.senders] at member
    exact ⟨fun slot id sender => absurd sender (empty slot id),
      fun slot _ id sender => absurd sender (empty slot id)⟩
  · intro u action v reached prior transition
    exact prior.step (agreement_of_reachable reached).slotCount (.of_step transition)

/-! ### What the acceptor knows -/

/-- A full or closed queue, or an empty slot. -/
def Unavailable (view : SlotView) : Prop := ∀ entry, view = some entry → ¬ entry.2.HasRoom

/-- The channel was tried, open and full. -/
def WasFull (seen : List (Nat × SlotView)) (id : ChannelId) : Prop :=
  ∃ (slot : Nat) (channel : Channel Socket), (slot, some (id, channel)) ∈ seen ∧
    channel.isOpen = true ∧ channel.queue.length = channel.capacity

/-- The slots tried so far, in cyclic order from the start, had no room; a sender
is waited on only if its queue was full. -/
structure ScanSound (replicaCount : Nat) (scan : Scan) : Prop where
  start : scan.start < replicaCount
  order : scan.seen.map Prod.fst =
    (List.range scan.offset).map fun index => (scan.start + index) % replicaCount
  unavailable : ∀ tried ∈ scan.seen, Unavailable tried.2
  waiting : ∀ id ∈ scan.waiting, WasFull scan.seen id

/-- Every tried sender is waited on or closed. -/
def Covers (s : ListenerCoordinator) (scan : Scan) : Prop :=
  ∀ index < scan.offset, ∀ id,
    s.state.senders[(scan.start + index) % s.state.slots.length]? = some (some id) →
      id ∈ scan.waiting ∨ s.Closed id

def AcceptorSound (replicaCount : Nat) (s : ListenerCoordinator) : Acceptor → Prop
  | .idle => True
  | .admitted _ => True
  | .trying scan => ScanSound replicaCount scan ∧ scan.offset ≤ replicaCount ∧ s.Covers scan
  | .reserving scan registered => ScanSound replicaCount scan ∧ scan.offset = replicaCount ∧
      ∀ id, some id ∈ registered → id ∈ scan.waiting ∨ s.Closed id

/-- What a disposition promises. A refused socket found no permit. An abandoned
one had every channel that was registered during its scan closed. A placed one
went to the first slot from the start that had room at its turn. One sent through
a reservation found no room anywhere and went to a queue that had been full. -/
def Justified (replicaCount : Nat) (s : ListenerCoordinator) : Disposition → Prop
  | .refused _ available => available = 0
  | .abandoned _ registered => ∀ id, some id ∈ registered → s.Closed id
  | .placed _ start slot seen target => start < replicaCount ∧ seen.length < replicaCount ∧
      seen.map Prod.fst =
        (List.range seen.length).map (fun index => (start + index) % replicaCount) ∧
      (∀ tried ∈ seen, Unavailable tried.2) ∧
      slot = (start + seen.length) % replicaCount ∧ ∃ entry, target = some entry ∧ entry.2.HasRoom
  | .reserved _ start seen id => start < replicaCount ∧
      seen.map Prod.fst =
        (List.range replicaCount).map (fun index => (start + index) % replicaCount) ∧
      (∀ tried ∈ seen, Unavailable tried.2) ∧ WasFull seen id

structure Knowledge (replicaCount : Nat) (s : ListenerCoordinator) : Prop where
  acceptor : s.AcceptorSound replicaCount s.acceptor
  history : ∀ disposition ∈ s.history, s.Justified replicaCount disposition

theorem Justified.step {disposition : Disposition}
    (justified : s.Justified replicaCount disposition)
    (taken : CoordinatorStep config s action t) : t.Justified replicaCount disposition := by
  cases disposition with
  | abandoned socket registered => exact fun id member => (justified id member).step taken
  | _ => exact justified

/-- The scan's knowledge survives what others do: channels stay closed, and the
lock keeps the senders while the scan relies on them. -/
theorem AcceptorSound.step {acceptor : Acceptor} (sound : s.AcceptorSound replicaCount acceptor)
    (held : s.acceptor = acceptor) (slots : t.state.slots.length = s.state.slots.length)
    (taken : CoordinatorStep config s action t) : t.AcceptorSound replicaCount acceptor := by
  cases acceptor with
  | idle => trivial
  | admitted socket => trivial
  | trying scan =>
      obtain ⟨tried, offset, covers⟩ := sound
      refine ⟨tried, offset, ?_⟩
      intro index inside id sender
      obtain same | ⟨slot, free, _⟩ := taken.senders
      · rw [slots, same] at sender
        exact (covers index inside id sender).imp_right fun closed => closed.step taken
      · rw [held] at free
        cases free
  | reserving scan registered =>
      obtain ⟨tried, offset, covers⟩ := sound
      refine ⟨tried, offset, fun id member => ?_⟩
      exact (covers id member).imp_right fun closed => closed.step taken

theorem ScanSound.length {scan : Scan} (sound : ScanSound replicaCount scan) :
    scan.seen.length = scan.offset := by
  simpa only [List.length_map, List.length_range] using congrArg List.length sound.order

/-- One more unavailable slot. -/
theorem ScanSound.advance {scan : Scan} (sound : ScanSound replicaCount scan)
    (slots : s.state.slots.length = replicaCount) {waiting : List ChannelId}
    (unavailable : Unavailable (s.view (s.target scan)))
    (full : ∀ id ∈ waiting, id ∈ scan.waiting ∨
      ∃ channel : Channel Socket, s.view (s.target scan) = some (id, channel) ∧
        channel.isOpen = true ∧ channel.queue.length = channel.capacity) :
    ScanSound replicaCount (s.advance scan waiting) := by
  refine ⟨sound.start, ?_, ?_, ?_⟩
  · simp only [ListenerCoordinator.advance, List.map_append, sound.order, List.range_succ,
      target, slots, List.map_singleton]
  · intro tried member
    obtain old | new := List.mem_append.mp member
    · exact sound.unavailable tried old
    · rw [List.mem_singleton.mp new]
      exact unavailable
  · intro id member
    obtain old | ⟨channel, found, status⟩ := full id member
    · obtain ⟨slot, channel, seen, status⟩ := sound.waiting id old
      exact ⟨slot, channel, List.mem_append_left _ seen, status⟩
    · refine ⟨s.target scan, channel, List.mem_append_right _ ?_, status⟩
      rw [List.mem_singleton, found]

/-- Covering one more slot needs to say only what became of that slot's sender. -/
theorem Covers.advance {scan : Scan} (covers : s.Covers scan) {waiting : List ChannelId}
    (kept : ∀ id ∈ scan.waiting, id ∈ waiting)
    (tried : ∀ id, s.state.senders[s.target scan]? = some (some id) → id ∈ waiting ∨ s.Closed id) :
    s.Covers (s.advance scan waiting) := by
  intro index inside id sender
  obtain earlier | rfl := Nat.lt_succ_iff_lt_or_eq.mp inside
  · exact (covers index earlier id sender).imp_left (kept id)
  · exact tried id sender

/-- A full turn from any start visits every slot. -/
theorem exists_rotation {start slot count : Nat} (inside : slot < count) (begin : start < count) :
    ∃ index < count, (start + index) % count = slot := by
  refine ⟨(slot + (count - start)) % count, Nat.mod_lt _ (by omega), ?_⟩
  rw [Nat.add_mod_mod, show start + (slot + (count - start)) = slot + count by omega,
    Nat.add_mod_right, Nat.mod_eq_of_lt inside]

/-- After a full turn every registered sender is waited on or closed. -/
theorem Covers.all {scan : Scan} (covers : s.Covers scan)
    (begin : scan.start < s.state.slots.length) (turned : scan.offset = s.state.slots.length)
    {id : ChannelId} (registered : some id ∈ s.state.senders) :
    id ∈ scan.waiting ∨ s.Closed id := by
  obtain ⟨slot, inside, sender⟩ := List.mem_iff_getElem.mp registered
  have bounded : slot < s.state.slots.length := by
    rw [CoordinatorState.senders, List.length_map] at inside
    exact inside
  obtain ⟨index, before, rfl⟩ := exists_rotation bounded begin
  apply covers index (turned ▸ before) id
  rw [List.getElem?_eq_getElem inside, sender]

theorem CoordinatorStep.slotCount (taken : CoordinatorStep config s action t) :
    t.state.slots.length = s.state.slots.length := by
  have lengths : ∀ state : CoordinatorState, state.senders.length = state.slots.length :=
    fun state => List.length_map _
  rw [← lengths, ← lengths]
  obtain same | ⟨slot, -, written, -⟩ := taken.senders
  · rw [same]
  · rw [written, List.length_set]

namespace Knowledge

/-- An action that leaves the acceptor and its decisions alone. -/
theorem frame (prior : Knowledge replicaCount s) (taken : CoordinatorStep config s action t)
    (acceptor : t.acceptor = s.acceptor) (history : t.history = s.history) :
    Knowledge replicaCount t where
  acceptor := acceptor ▸ prior.acceptor.step rfl taken.slotCount taken
  history := by
    rw [history]
    exact fun disposition member => (prior.history disposition member).step taken

/-- An action that only moves the acceptor. -/
theorem move (prior : Knowledge replicaCount s) (taken : CoordinatorStep config s action t)
    (acceptor : t.AcceptorSound replicaCount t.acceptor) (history : t.history = s.history) :
    Knowledge replicaCount t where
  acceptor := acceptor
  history := by
    rw [history]
    exact fun disposition member => (prior.history disposition member).step taken

/-- An action that ends a call. -/
theorem decide (prior : Knowledge replicaCount s) (taken : CoordinatorStep config s action t)
    {disposition : Disposition} (justified : t.Justified replicaCount disposition)
    (idle : t.acceptor = .idle) (history : t.history = s.history ++ [disposition]) :
    Knowledge replicaCount t where
  acceptor := by
    rw [idle]
    trivial
  history := by
    intro recorded member
    rw [history] at member
    obtain old | new := List.mem_append.mp member
    · exact (prior.history recorded old).step taken
    · rw [List.mem_singleton.mp new]
      exact justified

theorem step (prior : Knowledge replicaCount s) (wired : Wiring config replicaCount s)
    (positive : 0 < replicaCount) (slots : s.state.slots.length = replicaCount)
    (taken : CoordinatorStep config s action t) : Knowledge replicaCount t := by
  have sound := prior.acceptor
  have moved := taken
  cases taken with
  | allocateDrawn drawn free =>
      obtain ⟨state, replicas, same⟩ := s.allocateReplicaAt_frame _
      refine prior.frame moved ?_ ?_ <;> rw [same]
  | allocateReplicaAt free =>
      obtain ⟨state, replicas, same⟩ := s.allocateReplicaAt_frame _
      refine prior.frame moved ?_ ?_ <;> rw [same]
  | register handle free =>
      obtain ⟨state, channels, publishing, same⟩ := s.register_frame config _ _ _
      refine prior.frame moved ?_ ?_ <;> rw [same]
  | refuse idle exhausted =>
      refine prior.decide moved ?_ idle rfl
      exact exhausted
  | grantPermit idle available => exact prior.move moved trivial rfl
  | lock admitted =>
      refine prior.move moved ⟨⟨?_, rfl, ?_, ?_⟩, Nat.zero_le _, ?_⟩ rfl
      · rw [← slots] at positive ⊢
        exact Nat.mod_lt _ positive
      · intro view member
        cases member
      · intro id member
        cases member
      · intro index inside
        exact absurd inside (Nat.not_lt_zero _)
  | skipAbsent trying remaining absent =>
      rw [trying] at sound
      obtain ⟨tried, -, covers⟩ := sound
      refine prior.move moved ⟨?_, slots ▸ remaining, ?_⟩ rfl
      · refine tried.advance slots ?_ fun id member => .inl member
        rw [absent]
        intro entry found
        cases found
      · refine covers.advance (fun id member => member) ?_
        intro id sender
        -- a registered sender always has a channel, so an empty view is an empty slot
        obtain ⟨channel, present, -⟩ := wired.registered _ id sender
        rw [view_eq_some.mpr ⟨sender, present⟩] at absent
        cases absent
  | skipFull trying remaining found isOpen full =>
      rw [trying] at sound
      obtain ⟨tried, -, covers⟩ := sound
      refine prior.move moved ⟨?_, slots ▸ remaining, ?_⟩ rfl
      · refine tried.advance slots ?_ fun id member => ?_
        · intro entry same
          cases found.symm.trans same
          exact Channel.not_hasRoom_of_full full
        · obtain old | new := List.mem_append.mp member
          · exact .inl old
          · rw [List.mem_singleton.mp new]
            exact .inr ⟨_, found, isOpen, full⟩
      · refine covers.advance (fun id member => List.mem_append_left _ member) ?_
        intro id sender
        cases (view_eq_some.mp found).1.symm.trans sender
        exact .inl (List.mem_append_right _ (List.mem_singleton.mpr rfl))
  | skipClosed trying remaining found closed =>
      rw [trying] at sound
      obtain ⟨tried, -, covers⟩ := sound
      refine prior.move moved ⟨?_, slots ▸ remaining, ?_⟩ rfl
      · refine tried.advance slots ?_ fun id member => .inl member
        intro entry same
        cases found.symm.trans same
        exact Channel.not_hasRoom_of_closed closed
      · refine covers.advance (fun id member => member) ?_
        intro id sender
        cases (view_eq_some.mp found).1.symm.trans sender
        exact .inr ⟨_, (view_eq_some.mp found).2, closed⟩
  | place trying remaining found room =>
      rw [trying] at sound
      obtain ⟨tried, -, covers⟩ := sound
      refine prior.decide moved ?_ rfl rfl
      refine ⟨tried.start, ?_, ?_, tried.unavailable, ?_, _, rfl, room⟩
      · rw [tried.length, ← slots]
        exact remaining
      · rw [tried.length]
        exact tried.order
      · rw [tried.length, ← slots]
        rfl
  | unlock trying exhausted =>
      rw [trying] at sound
      obtain ⟨tried, bounded, covers⟩ := sound
      have turned := Nat.le_antisymm (slots ▸ bounded) (Nat.le_of_not_lt exhausted)
      refine prior.move moved ⟨tried, turned.trans slots, ?_⟩ rfl
      exact fun id member => covers.all (slots ▸ tried.start) turned member
  | reserve reserving awaited present room =>
      rw [reserving] at sound
      obtain ⟨tried, turned, -⟩ := sound
      refine prior.decide moved ?_ rfl rfl
      exact ⟨tried.start, turned ▸ tried.order, tried.unavailable, tried.waiting _ awaited⟩
  | @reservationFails scan registered failed channel reserving awaited present closed =>
      rw [reserving] at sound
      obtain ⟨tried, turned, covers⟩ := sound
      refine prior.move moved ⟨?_, turned, ?_⟩ rfl
      · exact ⟨tried.start, tried.order, tried.unavailable,
          fun id member => tried.waiting id (List.mem_of_mem_erase member)⟩
      · intro id member
        obtain waited | gone := covers id member
        · by_cases same : id = failed
          · exact .inr ⟨channel, same ▸ present, closed⟩
          · exact .inl ((List.mem_erase_of_ne same).mpr waited)
        · exact .inr gone
  | abandon reserving none =>
      rw [reserving] at sound
      obtain ⟨-, -, covers⟩ := sound
      refine prior.decide moved ?_ rfl rfl
      intro id member
      obtain waited | closed := covers id member
      · rw [none] at waited
        cases waited
      · exact closed
  | _ => exact prior.frame moved rfl rfl

end Knowledge

theorem positive_of_reachable (reached : (coordinator parser config replicaCount).Reachable s) :
    config.validate parser = .ok () ∧ 0 < replicaCount := by
  obtain ⟨origin, actions, bound, execution⟩ := reached
  obtain ⟨valid, positive, -⟩ := of_bind bound
  exact ⟨valid, positive⟩

theorem knowledge_of_reachable (reached : (coordinator parser config replicaCount).Reachable s) :
    Knowledge replicaCount s := by
  refine reached.invariant (P := Knowledge replicaCount) ?_ ?_
  · intro s bound
    obtain ⟨-, -, rfl⟩ := of_bind bound
    refine ⟨trivial, fun disposition member => ?_⟩
    cases member
  · intro u action v reached prior transition
    exact prior.step (wiring_of_reachable reached) (positive_of_reachable reached).2
      (agreement_of_reachable reached).slotCount (.of_step transition)

/-! ### Custody of sockets and permits -/

/-- The socket in the acceptor's hand. -/
def inHand (s : ListenerCoordinator) : Multiset Socket := (s.acceptor.hand.toList : List Socket)

/-- The sockets in replica queues. -/
def queued (s : ListenerCoordinator) : Multiset Socket :=
  (s.channels.map fun channel => (channel.queue : Multiset Socket)).sum

/-- The sockets that hold a connection permit. -/
def held (s : ListenerCoordinator) : Multiset Socket := s.inHand + s.queued + s.serving

/-- The sockets that `distribute_connection` dropped. -/
def discarded (s : ListenerCoordinator) : Multiset Socket :=
  (s.history.filterMap Disposition.discarded : List Socket)

/-- The sockets that `distribute_connection` put into a queue. -/
def enqueued (s : ListenerCoordinator) : Multiset Socket :=
  (s.history.filterMap Disposition.enqueued : List Socket)

/-- Every accepted socket is in exactly one place, every permit is free or held,
and the sockets that entered a queue are those queued, served or done with. -/
structure Custody (config : WebIngressConfig) (s : ListenerCoordinator) : Prop where
  located : s.held + s.discarded + s.finished = Multiset.range s.accepted
  budget : s.connectionConcurrency + s.held.card = config.maxConnections
  entered : s.enqueued = s.queued + s.serving + s.finished

/-- Replacing one channel moves the difference of its queues. -/
theorem queued_set {id : ChannelId} {channel : Channel Socket}
    (present : s.channels[id]? = some channel) (channel' : Channel Socket) :
    ((s.channels.set id channel').map fun channel => (channel.queue : Multiset Socket)).sum +
      channel.queue = s.queued + channel'.queue :=
  sum_map_set (fun channel : Channel Socket => (channel.queue : Multiset Socket)) channel' present

/-- Sending puts one socket into the queues. -/
theorem queued_push {id : ChannelId} {channel : Channel Socket} {socket : Socket}
    (present : s.channels[id]? = some channel) (room : channel.HasRoom) :
    ((s.channels.set id (channel.push socket room)).map
      fun channel => (channel.queue : Multiset Socket)).sum = s.queued + {socket} := by
  have moved := queued_set present (channel.push socket room)
  have queue : ((channel.push socket room).queue : Multiset Socket) = channel.queue + {socket} :=
    (Multiset.coe_add _ _).symm
  rw [queue, ← add_assoc, add_right_comm] at moved
  exact add_right_cancel moved

/-- Receiving takes one socket out of the queues. -/
theorem queued_recv {id : ChannelId} {channel rest : Channel Socket} {socket : Socket}
    (present : s.channels[id]? = some channel) (received : channel.recv = some (socket, rest)) :
    ((s.channels.set id rest).map fun channel => (channel.queue : Multiset Socket)).sum +
      {socket} = s.queued := by
  have moved := queued_set present rest
  have queue : (channel.queue : Multiset Socket) = {socket} + rest.queue := by
    rw [(Channel.recv_eq_some received).1]
    rfl
  rw [queue, ← add_assoc] at moved
  exact add_right_cancel moved

/-- Dropping a receiver empties its queue. -/
theorem queued_close {id : ChannelId} {channel : Channel Socket}
    (present : s.channels[id]? = some channel) :
    ((s.channels.set id channel.close).map
      fun channel => (channel.queue : Multiset Socket)).sum + channel.queue = s.queued :=
  (queued_set present channel.close).trans (add_zero _)

namespace Custody

/-- An action that moves no socket. -/
theorem frame (prior : Custody config s) (hand : t.inHand = s.inHand)
    (queued : t.queued = s.queued) (serving : t.serving = s.serving)
    (finished : t.finished = s.finished) (history : t.history = s.history)
    (accepted : t.accepted = s.accepted)
    (permits : t.connectionConcurrency = s.connectionConcurrency) : Custody config t where
  located := by
    simp only [held, discarded, hand, queued, serving, finished, history, accepted]
    exact prior.located
  budget := by
    simp only [held, hand, queued, serving, permits]
    exact prior.budget
  entered := by
    simp only [enqueued, queued, serving, finished, history]
    exact prior.entered

/-- The socket in hand enters a queue. -/
theorem send (prior : Custody config s) {socket : Socket} {disposition : Disposition}
    (hand : s.inHand = {socket}) (emptied : t.inHand = 0) (queued : t.queued = s.queued + {socket})
    (serving : t.serving = s.serving) (finished : t.finished = s.finished)
    (history : t.history = s.history ++ [disposition])
    (placed : disposition.enqueued = some socket) (kept : disposition.discarded = none)
    (accepted : t.accepted = s.accepted)
    (permits : t.connectionConcurrency = s.connectionConcurrency) : Custody config t := by
  have same : t.held = s.held := by
    simp only [held, emptied, queued, serving, hand, zero_add, add_comm s.queued]
  have discards : t.discarded = s.discarded := by
    simp [discarded, history, kept]
  have enqueues : t.enqueued = s.enqueued + {socket} := by
    simp [enqueued, history, placed, ← Multiset.coe_add]
  refine ⟨?_, ?_, ?_⟩
  · rw [same, discards, finished, accepted]
    exact prior.located
  · rw [same, permits]
    exact prior.budget
  · rw [enqueues, prior.entered, queued, serving, finished]
    abel

/-- A socket without a disposition is dropped. -/
theorem discard (prior : Custody config s) {disposition : Disposition}
    {socket : Socket} (history : t.history = s.history ++ [disposition])
    (dropped : disposition.discarded = some socket) (kept : disposition.enqueued = none)
    (moved : t.held + {socket} + Multiset.range s.accepted = s.held + Multiset.range t.accepted)
    (queued : t.queued = s.queued) (serving : t.serving = s.serving)
    (finished : t.finished = s.finished)
    (permits : t.connectionConcurrency + t.held.card = s.connectionConcurrency + s.held.card) :
    Custody config t := by
  have discards : t.discarded = s.discarded + {socket} := by
    simp [discarded, history, dropped, ← Multiset.coe_add]
  have enqueues : t.enqueued = s.enqueued := by
    simp [enqueued, history, kept]
  refine ⟨?_, permits.trans prior.budget, ?_⟩
  · apply add_right_cancel (b := s.held + Multiset.range s.accepted)
    calc t.held + t.discarded + t.finished + (s.held + Multiset.range s.accepted)
        = (t.held + {socket} + Multiset.range s.accepted) +
            (s.held + s.discarded + s.finished) := by
          rw [discards, finished]
          abel
      _ = Multiset.range t.accepted + (s.held + Multiset.range s.accepted) := by
          rw [moved, prior.located]
          abel
  · rw [enqueues, prior.entered, queued, serving, finished]

/-- Sockets end, in a queue or while they are served, and give their permits back. -/
theorem retire (prior : Custody config s) {ended : List Socket} (hand : t.inHand = s.inHand)
    (busy : t.queued + t.serving + ended = s.queued + s.serving)
    (finished : t.finished = s.finished ++ ended) (history : t.history = s.history)
    (accepted : t.accepted = s.accepted)
    (permits : t.connectionConcurrency = s.connectionConcurrency + ended.length) :
    Custody config t := by
  have released : t.held + ended = s.held := by
    rw [held, held, hand, add_assoc s.inHand s.queued, ← busy]
    abel
  have finishes : (t.finished : Multiset Socket) = s.finished + ended := by
    rw [finished, Multiset.coe_add]
  have discards : t.discarded = s.discarded := by rw [discarded, discarded, history]
  have enqueues : t.enqueued = s.enqueued := by rw [enqueued, enqueued, history]
  refine ⟨?_, ?_, ?_⟩
  · rw [discards, finishes, accepted, ← prior.located, ← released]
    abel
  · rw [permits, ← prior.budget, ← released, Multiset.card_add, Multiset.coe_card]
    omega
  · rw [enqueues, prior.entered, finishes, ← busy]
    abel

theorem step (prior : Custody config s) (taken : CoordinatorStep config s action t) :
    Custody config t := by
  cases taken with
  | allocateDrawn drawn free =>
      obtain ⟨state, replicas, same⟩ := s.allocateReplicaAt_frame _
      rw [same]
      exact prior.frame rfl rfl rfl rfl rfl rfl rfl
  | allocateReplicaAt free =>
      obtain ⟨state, replicas, same⟩ := s.allocateReplicaAt_frame _
      rw [same]
      exact prior.frame rfl rfl rfl rfl rfl rfl rfl
  | register handle free =>
      obtain ⟨_, _, _, _, refused⟩ | ⟨_, accepted⟩ := s.register_cases config _ _ _
      · rw [refused]
        exact prior
      · rw [accepted]
        refine prior.frame rfl ?_ rfl rfl rfl rfl rfl
        exact (sum_map_concat _ _ _).trans (add_zero _)
  | refuse idle exhausted =>
      have same : (s.accepted ::ₘ Multiset.range s.accepted) =
          Multiset.range (s.accepted + 1) := (Multiset.range_succ _).symm
      refine prior.discard rfl rfl rfl ?_ rfl rfl rfl rfl
      show s.held + {s.accepted} + _ = s.held + Multiset.range (s.accepted + 1)
      rw [← same, add_assoc, Multiset.singleton_add]
  | grantPermit idle available =>
      have empty : s.inHand = 0 := by
        rw [inHand, idle]
        rfl
      have located := prior.located
      have budget := prior.budget
      have entered := prior.entered
      simp only [held, empty, zero_add] at located budget
      refine ⟨?_, ?_, entered⟩
      · show {s.accepted} + s.queued + s.serving + s.discarded + s.finished =
          Multiset.range (s.accepted + 1)
        rw [Multiset.range_succ, ← located, ← Multiset.singleton_add]
        abel
      · show s.connectionConcurrency - 1 + ({s.accepted} + s.queued + s.serving).card = _
        rw [Multiset.card_add] at budget
        rw [Multiset.card_add, Multiset.card_add, Multiset.card_singleton]
        omega
  | lock admitted =>
      refine prior.frame ?_ rfl rfl rfl rfl rfl rfl
      rw [inHand, inHand, admitted]
      rfl
  | skipAbsent trying remaining absent =>
      refine prior.frame ?_ rfl rfl rfl rfl rfl rfl
      rw [inHand, inHand, trying]
      rfl
  | skipFull trying remaining found isOpen full =>
      refine prior.frame ?_ rfl rfl rfl rfl rfl rfl
      rw [inHand, inHand, trying]
      rfl
  | skipClosed trying remaining found closed =>
      refine prior.frame ?_ rfl rfl rfl rfl rfl rfl
      rw [inHand, inHand, trying]
      rfl
  | place trying remaining found room =>
      refine prior.send ?_ rfl (queued_push (view_eq_some.mp found).2 room) rfl rfl rfl rfl rfl
        rfl rfl
      rw [inHand, trying]
      rfl
  | unlock trying exhausted =>
      refine prior.frame ?_ rfl rfl rfl rfl rfl rfl
      rw [inHand, inHand, trying]
      rfl
  | reserve reserving awaited present room =>
      refine prior.send ?_ rfl (queued_push present room) rfl rfl rfl rfl rfl rfl rfl
      rw [inHand, reserving]
      rfl
  | reservationFails reserving awaited present closed =>
      refine prior.frame ?_ rfl rfl rfl rfl rfl rfl
      rw [inHand, inHand, reserving]
      rfl
  | @abandon scan registered reserving none =>
      have hand : s.held = s.queued + s.serving + {scan.socket} := by
        rw [held, inHand, reserving]
        show {scan.socket} + _ + _ = _
        abel
      have emptied : (s.abandon scan registered).held = s.queued + s.serving := by
        rw [held]
        show 0 + s.queued + s.serving = _
        rw [zero_add]
      refine prior.discard rfl rfl rfl ?_ rfl rfl rfl ?_
      · rw [emptied, hand]
        rfl
      · rw [emptied, hand, Multiset.card_add _ {scan.socket}, Multiset.card_singleton]
        show s.connectionConcurrency + 1 + _ = _
        omega
  | @receive id channel rest socket present received =>
      -- the socket keeps its permit: only the place it is held in changes
      have queue := queued_recv present received
      have serving : ((s.serving ++ [socket] : List Socket) : Multiset Socket) =
          s.serving + {socket} := (Multiset.coe_add _ _).symm
      have located := prior.located
      have budget := prior.budget
      have entered := prior.entered
      simp only [held, ← queue] at located budget
      rw [← queue] at entered
      refine ⟨?_, ?_, ?_⟩
      · rw [← located, held, serving]
        show s.inHand + _ + _ + s.discarded + _ = _
        rw [queued]
        abel
      · rw [← budget, held, serving]
        show s.connectionConcurrency + (s.inHand + _ + _).card = _
        rw [queued]
        congr 2
        abel
      · show s.enqueued = _
        rw [entered, serving, queued]
        abel
  | @complete socket served =>
      refine prior.retire rfl ?_ rfl rfl rfl rfl
      have back : ((s.serving.erase socket : List Socket) : Multiset Socket) + [socket] =
          s.serving :=
        (Multiset.coe_add _ _).trans (Multiset.coe_eq_coe.mpr
          ((List.perm_append_singleton _ _).trans (List.perm_cons_erase served).symm))
      rw [add_assoc, back]
      rfl
  | @dropReceiver id channel present =>
      refine prior.retire rfl ?_ rfl rfl rfl rfl
      rw [← queued_close present, add_right_comm]
      rfl
  | drawSlot => exact prior.frame rfl rfl rfl rfl rfl rfl rfl
  | signalReady pending => exact prior.frame rfl rfl rfl rfl rfl rfl rfl

end Custody

theorem custody_of_reachable (reached : (coordinator parser config replicaCount).Reachable s) :
    Custody config s := by
  refine reached.invariant (P := Custody config) ?_ ?_
  · intro s bound
    obtain ⟨-, -, rfl⟩ := of_bind bound
    exact ⟨rfl, rfl, rfl⟩
  · intro u action v reached prior transition
    exact prior.step (.of_step transition)

/-- The hand-off under one hard budget. In every reachable state permits are free
or held, one by each socket that is in hand, queued or served; every accepted
socket is in exactly one place and entered at most one queue; and every decision
of the acceptor was justified when it was taken. -/
theorem sockets_handed_off_once
    (reached : (coordinator parser config replicaCount).Reachable s) :
    s.connectionConcurrency + s.held.card = config.maxConnections ∧
    s.held + s.discarded + s.finished = Multiset.range s.accepted ∧
    s.enqueued.Nodup ∧ s.enqueued = s.queued + s.serving + s.finished ∧
    ∀ disposition ∈ s.history, s.Justified replicaCount disposition := by
  have custody := custody_of_reachable reached
  refine ⟨custody.budget, custody.located, ?_, custody.entered,
    (knowledge_of_reachable reached).history⟩
  have part : s.enqueued ≤ Multiset.range s.accepted := by
    rw [custody.entered, ← custody.located, held]
    refine ((Multiset.le_add_left _ (s.inHand + s.discarded)).trans_eq ?_)
    abel
  exact Multiset.nodup_of_le part (Multiset.nodup_range _)

/-- Three lanes with one place each, the last of which has gone. The third socket
finds both live queues full; then the lanes receive, the second one first. -/
def reservationRace : List CoordinatorAction :=
  let routes : WebIngressRouteManifest := ⟨[], .nil⟩
  [.allocateReplicaAt 0, .allocateReplicaAt 1, .allocateReplicaAt 2,
    .register 0 routes [], .register 1 routes [], .register 2 routes [], .signalReady,
    .dropReceiver 2,
    .accept, .lock, .trySend,
    .accept, .lock, .trySend,
    .accept, .lock, .trySend, .trySend, .trySend, .unlock,
    .receive 1, .receive 0]

/-- A budget of three connections. -/
def threeConnections : WebIngressConfig := { WebIngressConfig.default with maxConnections := 3 }

/-- In the race the scan started at slot 2, whose channel is closed, and slot 0
is next and has room, yet the socket can go to slot 1. -/
theorem reservation_passes_over_slot :
    ∃ s t, (coordinator UriParser.pathOnly threeConnections 3).Reachable s ∧
      (coordinator UriParser.pathOnly threeConnections 3).step s (.reserve 1) = some t ∧
      (∃ scan registered, s.acceptor = .reserving scan registered ∧ scan.socket = 2 ∧
        scan.start = 2) ∧
      (∃ channel, s.view 2 = some (2, channel) ∧ channel.isOpen = false) ∧
      (∃ channel, s.view 0 = some (0, channel) ∧ channel.HasRoom) ∧
      (∃ channel, t.view 1 = some (1, channel) ∧ channel.queue = [2]) :=
  ⟨_, _, ⟨_, reservationRace, rfl, rfl⟩, rfl, ⟨_, _, rfl, rfl, rfl⟩, ⟨_, rfl, rfl⟩,
    ⟨_, rfl, by decide⟩, ⟨_, rfl, rfl⟩⟩

theorem sockets_handed_off_once_race :
    ∃ s, (coordinator UriParser.pathOnly threeConnections 3).Reachable s ∧
      s.accepted = 3 ∧ s.connectionConcurrency + s.held.card = 3 := by
  have outcome : ∃ s, (coordinator UriParser.pathOnly threeConnections 3).Reachable s ∧
      s.accepted = 3 := ⟨_, ⟨_, reservationRace, rfl, rfl⟩, rfl⟩
  obtain ⟨s, reached, accepted⟩ := outcome
  exact ⟨s, reached, accepted, (sockets_handed_off_once reached).1⟩

end ListenerCoordinator

end Ingress
