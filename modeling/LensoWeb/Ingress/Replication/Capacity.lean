import LensoWeb.Ingress.Replication.HandOff

/-!
# The acceptor never waits while all lanes are alive

During a scan charge every slot already tried with a full queue, and every other
slot with what it holds now. Lanes only take sockets out while the scan holds the
only new one, so the charge never grows; it starts at no more than the sockets
queued, which is less than the budget. A scan that failed everywhere would be
charged all queues full, which is at least the budget.
-/

namespace Ingress

open Foundation Http

namespace ListenerCoordinator

variable {parser : UriParser} {config : WebIngressConfig} {replicaCount : Nat}
  {s t : ListenerCoordinator} {action : CoordinatorAction} {scan : Scan}

/-- All queues together hold the whole budget. -/
theorem budget_le_queues (config : WebIngressConfig) (positive : 0 < replicaCount) :
    config.maxConnections ≤ replicaCount * queueCapacity config replicaCount := by
  calc config.maxConnections
      ≤ replicaCount * (config.maxConnections ⌈/⌉ replicaCount) := le_smul_ceilDiv positive
    _ ≤ replicaCount * queueCapacity config replicaCount :=
        Nat.mul_le_mul_left _ (Nat.le_max_left _ _)

/-! ### Loads -/

/-- The sender registered in a slot. -/
def sender (s : ListenerCoordinator) (slot : Nat) : Option ChannelId :=
  s.state.senders[slot]?.join

def queueLength (s : ListenerCoordinator) (id : ChannelId) : Nat :=
  s.channels[id]?.elim 0 fun channel => channel.queue.length

/-- What the queue of a slot holds. -/
def load (s : ListenerCoordinator) (slot : Nat) : Nat := (s.sender slot).elim 0 s.queueLength

/-- What a slot is charged with during a scan, by its position in the scan. -/
def charge (config : WebIngressConfig) (replicaCount : Nat) (s : ListenerCoordinator)
    (scan : Scan) (index : Nat) : Nat :=
  if index < scan.offset then queueCapacity config replicaCount
  else s.load ((scan.start + index) % replicaCount)

theorem sender_eq_some {slot : Nat} {id : ChannelId} :
    s.sender slot = some id ↔ s.state.senders[slot]? = some (some id) := by
  rw [sender, Option.join_eq_some_iff]

/-- No slot is empty and no receiver has been dropped. -/
structure AllAlive (s : ListenerCoordinator) : Prop where
  registered : none ∉ s.state.senders
  alive : ∀ channel ∈ s.channels, channel.isOpen = true

theorem AllAlive.sender (living : s.AllAlive) {slot : Nat} (inside : slot < s.state.slots.length) :
    ∃ id, s.sender slot = some id := by
  have bounded : slot < s.state.senders.length := by
    rw [CoordinatorState.senders, List.length_map]
    exact inside
  cases found : s.state.senders[slot] with
  | none => exact absurd (found ▸ List.getElem_mem bounded) living.registered
  | some id => exact ⟨id, sender_eq_some.mpr (List.getElem?_eq_some_iff.mpr ⟨bounded, found⟩)⟩

/-- Every slot that is tried has an open channel. -/
theorem AllAlive.view (living : s.AllAlive) (wired : Wiring config replicaCount s) {slot : Nat}
    (inside : slot < s.state.slots.length) :
    ∃ id channel, s.view slot = some (id, channel) ∧ channel.isOpen = true := by
  obtain ⟨id, found⟩ := living.sender inside
  obtain ⟨channel, present, -⟩ := wired.registered slot id (sender_eq_some.mp found)
  exact ⟨id, channel, view_eq_some.mpr ⟨sender_eq_some.mp found, present⟩,
    living.alive channel (List.mem_of_getElem? present)⟩

/-- Positions of a scan are different slots. -/
theorem rotation_injOn {start count : Nat} :
    Set.InjOn (fun index => (start + index) % count) (Set.Iio count) := by
  intro first inFirst second inSecond same
  have congruent : first % count = second % count := Nat.ModEq.add_left_cancel' start same
  rwa [Nat.mod_eq_of_lt inFirst, Nat.mod_eq_of_lt inSecond] at congruent

/-- The queues that a scan visits hold no more than all queues. -/
theorem load_le_queued (living : s.AllAlive) (wired : Wiring config replicaCount s)
    (slots : s.state.slots.length = replicaCount) (start : Nat) :
    ∑ index ∈ Finset.range replicaCount, s.load ((start + index) % replicaCount) ≤
      s.queued.card := by
  have visited : ∀ index < replicaCount,
      ∃ id, s.sender ((start + index) % replicaCount) = some id := by
    intro index inside
    apply living.sender
    rw [slots]
    exact Nat.mod_lt _ (Nat.zero_lt_of_lt inside)
  -- the channel behind each position
  let cell index := (s.sender ((start + index) % replicaCount)).getD 0
  have distinct : Set.InjOn cell (Set.Iio replicaCount) := by
    intro first inFirst second inSecond same
    obtain ⟨id, found⟩ := visited first inFirst
    obtain ⟨id', found'⟩ := visited second inSecond
    have equal : id = id' := by simpa only [cell, found, found', Option.getD_some] using same
    subst equal
    exact rotation_injOn inFirst inSecond
      (wired.distinct _ _ id (sender_eq_some.mp found) (sender_eq_some.mp found'))
  have present : ∀ index < replicaCount, cell index < s.channels.length := by
    intro index inside
    obtain ⟨id, found⟩ := visited index inside
    obtain ⟨channel, present, -⟩ := wired.registered _ id (sender_eq_some.mp found)
    simpa only [cell, found, Option.getD_some] using (List.getElem?_eq_some_iff.mp present).1
  have loads : ∀ index ∈ Finset.range replicaCount,
      s.load ((start + index) % replicaCount) =
        s.channels[cell index]?.elim 0 fun channel => channel.queue.length := by
    intro index inside
    obtain ⟨id, found⟩ := visited index (Finset.mem_range.mp inside)
    simp only [load, cell, found, Option.elim_some, Option.getD_some, queueLength]
  rw [Finset.sum_congr rfl loads]
  apply (sum_le_of_injOn _ s.channels replicaCount cell distinct present).trans_eq
  rw [queued, ← Multiset.cardHom_apply, map_list_sum, List.map_map]
  rfl

/-! ### One call of `distribute_connection` -/

/-- The action is one that the acceptor takes on its way through the slots. -/
def acceptorMove : CoordinatorAction → Bool
  | .lock => true
  | .trySend => true
  | _ => false

/-- A lane drops its receiver. -/
def dropsReceiver : CoordinatorAction → Bool
  | .dropReceiver _ => true
  | _ => false

/-- The call is still on its way after `moves` moves, with room ahead of it, or
one of its attempts has placed the socket. -/
inductive CallProgress (config : WebIngressConfig) (replicaCount : Nat) (socket : Socket)
    (moves : Nat) (s : ListenerCoordinator) : Prop
  | admitted (admitted : s.acceptor = .admitted socket) (none : moves = 0)
  | trying (scan : Scan) (trying : s.acceptor = .trying scan) (same : scan.socket = socket)
      (remaining : scan.offset < replicaCount) (counted : moves = scan.offset + 1)
      (bounded : ∑ index ∈ Finset.range replicaCount, s.charge config replicaCount scan index <
        config.maxConnections)
  | placed (start slot : Nat) (seen : List (Nat × SlotView)) (target : SlotView)
      (recorded : .placed socket start slot seen target ∈ s.history)

theorem CoordinatorStep.history_mono (taken : CoordinatorStep config s action t)
    {disposition : Disposition} (recorded : disposition ∈ s.history) :
    disposition ∈ t.history := by
  cases taken with
  | allocateDrawn drawn free =>
      obtain ⟨state, replicas, same⟩ := s.allocateReplicaAt_frame _
      rw [same]
      exact recorded
  | allocateReplicaAt free =>
      obtain ⟨state, replicas, same⟩ := s.allocateReplicaAt_frame _
      rw [same]
      exact recorded
  | register handle free =>
      obtain ⟨state, channels, publishing, same⟩ := s.register_frame config _ _ _
      rw [same]
      exact recorded
  | refuse idle exhausted => exact List.mem_append_left _ recorded
  | place trying remaining found room => exact List.mem_append_left _ recorded
  | reserve reserving awaited present room => exact List.mem_append_left _ recorded
  | abandon reserving none => exact List.mem_append_left _ recorded
  | _ => exact recorded

theorem AllAlive.step (living : s.AllAlive) (taken : CoordinatorStep config s action t)
    (kept : dropsReceiver action = false) : t.AllAlive := by
  have channels : ∀ channel ∈ t.channels, channel.isOpen = true := by
    intro channel member
    cases taken with
    | allocateDrawn drawn free =>
        obtain ⟨state, replicas, same⟩ := s.allocateReplicaAt_frame _
        rw [same] at member
        exact living.alive channel member
    | allocateReplicaAt free =>
        obtain ⟨state, replicas, same⟩ := s.allocateReplicaAt_frame _
        rw [same] at member
        exact living.alive channel member
    | register handle free =>
        obtain ⟨_, _, _, _, refused⟩ | ⟨_, accepted⟩ := s.register_cases config _ _ _
        · rw [refused] at member
          exact living.alive channel member
        · rw [accepted] at member
          obtain old | new := List.mem_append.mp member
          · exact living.alive channel old
          · rw [List.mem_singleton.mp new]
            rfl
    | place trying remaining found room =>
        obtain old | rfl := List.mem_or_eq_of_mem_set member
        · exact living.alive channel old
        · exact room.1
    | reserve reserving awaited present room =>
        obtain old | rfl := List.mem_or_eq_of_mem_set member
        · exact living.alive channel old
        · exact room.1
    | receive present received =>
        obtain old | rfl := List.mem_or_eq_of_mem_set member
        · exact living.alive channel old
        · exact (Channel.recv_eq_some received).2.2.trans
            (living.alive _ (List.mem_of_getElem? present))
    | dropReceiver present => cases kept
    | _ => exact living.alive channel member
  refine ⟨?_, channels⟩
  obtain same | ⟨slot, -, written, -⟩ := taken.senders
  · rw [same]
    exact living.registered
  · rw [written]
    intro missing
    obtain old | new := List.mem_or_eq_of_mem_set missing
    · exact living.registered old
    · cases new

/-- Lanes that take sockets out only lower the charge. -/
theorem charge_le {scan : Scan} (senders : t.state.senders = s.state.senders)
    (shorter : ∀ id, t.queueLength id ≤ s.queueLength id) (index : Nat) :
    t.charge config replicaCount scan index ≤ s.charge config replicaCount scan index := by
  unfold charge
  split
  · exact Nat.le_refl _
  · unfold load sender
    rw [senders]
    cases s.state.senders[(scan.start + index) % replicaCount]?.join with
    | none => exact Nat.le_refl _
    | some id => exact shorter id

theorem queueLength_receive {id : ChannelId} {channel rest : Channel Socket} {socket : Socket}
    (present : s.channels[id]? = some channel) (received : channel.recv = some (socket, rest))
    (serving : List Socket) (other : ChannelId) :
    { s with channels := s.channels.set id rest, serving }.queueLength other ≤
      s.queueLength other := by
  unfold queueLength
  rw [List.getElem?_set]
  by_cases same : id = other
  · subst same
    obtain ⟨inRange, -⟩ := List.getElem?_eq_some_iff.mp present
    rw [if_pos rfl, if_pos inRange, present, Option.elim_some, Option.elim_some,
      (Channel.recv_eq_some received).1, List.length_cons]
    exact Nat.le_succ _
  · rw [if_neg same]

/-- A slot found full was charged with its whole queue before it was tried. -/
theorem charge_advance {id : ChannelId} {channel : Channel Socket}
    (wired : Wiring config replicaCount s) (slots : s.state.slots.length = replicaCount)
    (found : s.view (s.target scan) = some (id, channel))
    (full : channel.queue.length = channel.capacity) (waiting : List ChannelId) (index : Nat) :
    s.charge config replicaCount (s.advance scan waiting) index =
      s.charge config replicaCount scan index := by
  obtain ⟨registered, present⟩ := view_eq_some.mp found
  obtain ⟨channel', present', capacity⟩ := wired.registered _ id registered
  cases present.symm.trans present'
  show (if index < scan.offset + 1 then queueCapacity config replicaCount
    else s.load ((scan.start + index) % replicaCount)) =
      if index < scan.offset then queueCapacity config replicaCount
      else s.load ((scan.start + index) % replicaCount)
  by_cases before : index < scan.offset
  · rw [if_pos before, if_pos (Nat.lt_succ_of_lt before)]
  · rw [if_neg before]
    by_cases current : index = scan.offset
    · subst current
      rw [if_pos (Nat.lt_succ_self _), load, ← slots]
      show _ = (s.sender (s.target scan)).elim 0 s.queueLength
      rw [sender_eq_some.mpr registered, Option.elim_some, queueLength, present,
        Option.elim_some, full, capacity, slots]
    · rw [if_neg (by omega)]

/-- The scan starts with less than the whole budget in the queues. -/
theorem charge_lock (living : s.AllAlive) (wired : Wiring config replicaCount s)
    (slots : s.state.slots.length = replicaCount) (custody : Custody config s) {socket : Socket}
    (admitted : s.acceptor = .admitted socket) (start : Nat) :
    ∑ index ∈ Finset.range replicaCount, (s.lock socket).charge config replicaCount
      { socket, start, offset := 0, waiting := [], seen := [] } index <
      config.maxConnections := by
  have loads := load_le_queued living wired slots start
  have budget := custody.budget
  have hand : s.inHand.card = 1 := by
    rw [inHand, admitted]
    rfl
  rw [held, Multiset.card_add, Multiset.card_add, hand] at budget
  refine Nat.lt_of_le_of_lt ?_ (show s.queued.card < config.maxConnections by omega)
  refine Nat.le_trans (Finset.sum_le_sum fun index _ => ?_) loads
  rw [charge, if_neg (Nat.not_lt_zero _)]
  rfl

/-- A scan with less than the budget charged does not fail at its last slot. -/
theorem remaining_of_charge (positive : 0 < replicaCount)
    (bounded : ∑ index ∈ Finset.range replicaCount, s.charge config replicaCount scan index <
      config.maxConnections) : scan.offset < replicaCount := by
  refine Nat.lt_of_not_le fun turned => Nat.not_le_of_lt bounded ?_
  have all : ∀ index ∈ Finset.range replicaCount,
      s.charge config replicaCount scan index = queueCapacity config replicaCount := by
    intro index inside
    exact if_pos (Nat.lt_of_lt_of_le (Finset.mem_range.mp inside) turned)
  rw [Finset.sum_congr rfl all, Finset.sum_const, Finset.card_range]
  exact budget_le_queues config positive

/-- What one action does to a call on its way. -/
theorem CallProgress.step {socket : Socket} {moves : Nat}
    (progress : CallProgress config replicaCount socket moves s)
    (reached : (coordinator parser config replicaCount).Reachable s) (living : s.AllAlive)
    (taken : CoordinatorStep config s action t) (kept : dropsReceiver action = false) :
    CallProgress config replicaCount socket (moves + cond (acceptorMove action) 1 0) t := by
  have slots := (agreement_of_reachable reached).slotCount
  have wired := wiring_of_reachable reached
  have custody := custody_of_reachable reached
  cases progress with
  | placed start slot seen target recorded =>
      exact .placed start slot seen target (taken.history_mono recorded)
  | admitted admitted none =>
      subst none
      cases taken with
      | allocateDrawn drawn free =>
          obtain ⟨state, replicas, same⟩ := s.allocateReplicaAt_frame _
          exact .admitted (by rw [same]; exact admitted) rfl
      | allocateReplicaAt free =>
          obtain ⟨state, replicas, same⟩ := s.allocateReplicaAt_frame _
          exact .admitted (by rw [same]; exact admitted) rfl
      | register handle free =>
          obtain ⟨state, channels, publishing, same⟩ := s.register_frame config _ _ _
          exact .admitted (by rw [same]; exact admitted) rfl
      | lock admitted' =>
          cases admitted.symm.trans admitted'
          exact .trying _ rfl rfl (positive_of_reachable reached).2 rfl
            (charge_lock living wired slots custody admitted _)
      | dropReceiver present => cases kept
      | drawSlot => exact .admitted admitted rfl
      | signalReady pending => exact .admitted admitted rfl
      | receive present received => exact .admitted admitted rfl
      | complete served => exact .admitted admitted rfl
      | _ => simp_all
  | trying scan trying same remaining counted bounded =>
      have locked : s.acceptor.locked = true := by
        rw [trying]
        rfl
      have inside : s.target scan < s.state.slots.length :=
        Nat.mod_lt _ (slots ▸ (positive_of_reachable reached).2)
      cases taken with
      | allocateDrawn drawn free => cases locked.symm.trans free
      | allocateReplicaAt free => cases locked.symm.trans free
      | register handle free => cases locked.symm.trans free
      | skipAbsent trying' remaining' absent =>
          cases trying.symm.trans trying'
          obtain ⟨id, channel, found, -⟩ := living.view wired inside
          cases absent.symm.trans found
      | @skipFull _ id channel trying' remaining' found isOpen full =>
          cases trying.symm.trans trying'
          have lowered : ∑ index ∈ Finset.range replicaCount,
              s.charge config replicaCount (s.advance scan (scan.waiting ++ [id])) index <
                config.maxConnections := by
            rw [Finset.sum_congr rfl fun index _ =>
              charge_advance wired slots found full (scan.waiting ++ [id]) index]
            exact bounded
          refine .trying _ rfl same (remaining_of_charge (positive_of_reachable reached).2 lowered)
            ?_ lowered
          rw [counted]
          rfl
      | skipClosed trying' remaining' found closed =>
          cases trying.symm.trans trying'
          obtain ⟨id, channel, found', isOpen⟩ := living.view wired inside
          cases found.symm.trans found'
          cases closed.symm.trans isOpen
      | place trying' remaining' found room =>
          cases trying.symm.trans trying'
          subst same
          exact .placed _ _ _ _ (List.mem_append_right _ (List.mem_singleton.mpr rfl))
      | unlock trying' exhausted =>
          cases trying.symm.trans trying'
          exact absurd (slots ▸ remaining) exhausted
      | receive present received =>
          refine .trying scan trying same remaining counted (Nat.lt_of_le_of_lt ?_ bounded)
          refine Finset.sum_le_sum fun index _ => charge_le ?_ ?_ index
          · rfl
          · exact queueLength_receive present received _
      | dropReceiver present => cases kept
      | drawSlot => exact .trying scan trying same remaining counted bounded
      | signalReady pending => exact .trying scan trying same remaining counted bounded
      | complete served => exact .trying scan trying same remaining counted bounded
      | _ => simp_all

/-- A whole run in which no lane goes away. -/
theorem CallProgress.run {socket : Socket} {moves : Nat} {actions : List CoordinatorAction}
    (progress : CallProgress config replicaCount socket moves s)
    (reached : (coordinator parser config replicaCount).Reachable s) (living : s.AllAlive)
    (kept : ∀ action ∈ actions, dropsReceiver action = false)
    (execution : (coordinator parser config replicaCount).run actions s = some t) :
    CallProgress config replicaCount socket (moves + actions.countP acceptorMove) t := by
  induction actions generalizing s moves with
  | nil =>
      cases execution
      exact progress
  | cons action rest ih =>
      obtain ⟨u, transition, remaining⟩ := Machine.run_cons_iff.mp execution
      have alive := kept action List.mem_cons_self
      have taken := CoordinatorStep.of_step transition
      have later := ih (progress.step reached living taken alive) (reached.step transition)
        (living.step taken alive) (fun other member => kept other (List.mem_cons_of_mem _ member))
        remaining
      have count : moves + (action :: rest).countP acceptorMove =
          moves + cond (acceptorMove action) 1 0 + rest.countP acceptorMove := by
        rw [List.countP_cons, Nat.add_comm (rest.countP acceptorMove), ← Nat.add_assoc]
        cases acceptorMove action <;> rfl
      rw [count]
      exact later

/-- A placed socket is not in the acceptor's hand any more. -/
theorem not_inHand_of_placed (custody : Custody config s) {socket : Socket}
    {start slot : Nat} {seen : List (Nat × SlotView)} {target : SlotView}
    (recorded : .placed socket start slot seen target ∈ s.history) : socket ∉ s.inHand := by
  intro hand
  have entered : socket ∈ s.queued + s.serving + s.finished := by
    rw [← custody.entered]
    exact Multiset.mem_coe.mpr (List.mem_filterMap.mpr ⟨_, recorded, rfl⟩)
  have located : s.inHand + (s.queued + s.serving + s.finished) + s.discarded =
      Multiset.range s.accepted := by
    rw [← custody.located, held]
    abel
  have distinct : (s.inHand + (s.queued + s.serving + s.finished)).Nodup := by
    apply Multiset.nodup_of_le (Multiset.le_add_right _ s.discarded)
    rw [located]
    exact Multiset.nodup_range _
  exact Multiset.disjoint_left.mp (Multiset.nodup_add.mp distinct).2.2 hand entered

/-- While all lanes are alive, a call that obtained a permit never waits: in every
continuation without a dropped receiver it is not in the reservation wait, it can
always make its next move until the socket is placed, and after the lock and as
many attempts as there are slots one of these attempts has placed the socket. -/
theorem acceptor_never_waits (reached : (coordinator parser config replicaCount).Reachable s)
    (living : s.AllAlive) {socket : Socket} (admitted : s.acceptor = .admitted socket)
    {actions : List CoordinatorAction} (kept : ∀ action ∈ actions, dropsReceiver action = false)
    (execution : (coordinator parser config replicaCount).run actions s = some t) :
    (∀ scan registered, t.acceptor = .reserving scan registered → scan.socket ≠ socket) ∧
    ((∃ start slot seen target, .placed socket start slot seen target ∈ t.history) ∨
      ∃ action u, acceptorMove action = true ∧
        (coordinator parser config replicaCount).step t action = some u) ∧
    (replicaCount < actions.countP acceptorMove →
      ∃ start slot seen target, .placed socket start slot seen target ∈ t.history) := by
  have start : CallProgress config replicaCount socket 0 s := .admitted admitted rfl
  have progress := start.run reached living kept execution
  have slots := (agreement_of_reachable (reached.run execution)).slotCount
  rw [Nat.zero_add] at progress
  cases progress with
  | admitted admitted none =>
      refine ⟨?_, .inr ⟨.lock, t.lock socket, rfl, ?_⟩, ?_⟩
      · intro scan registered reserving
        cases admitted.symm.trans reserving
      · simp only [coordinator, step, admitted]
      · intro many
        omega
  | trying scan trying same remaining counted bounded =>
      refine ⟨?_, .inr ⟨.trySend, t.trySend scan, rfl, ?_⟩, ?_⟩
      · intro scan registered reserving
        cases trying.symm.trans reserving
      · simp only [coordinator, step, trying]
        exact if_pos (slots ▸ remaining)
      · intro many
        omega
  | placed start slot seen target recorded =>
      refine ⟨?_, .inl ⟨start, slot, seen, target, recorded⟩,
        fun _ => ⟨start, slot, seen, target, recorded⟩⟩
      rintro scan registered reserving rfl
      apply not_inHand_of_placed (custody_of_reachable (reached.run execution)) recorded
      rw [inHand, reserving]
      exact Multiset.mem_singleton_self _

/-- Two live lanes and a first socket that has just been admitted. -/
def twoLanesAdmitted : List CoordinatorAction := twoLanes ++ [.accept]

theorem acceptor_never_waits_twoLanes :
    ∃ s t, (coordinator UriParser.pathOnly .default 2).Reachable s ∧
      (coordinator UriParser.pathOnly .default 2).run [.lock, .trySend] s = some t ∧
      ∀ scan registered, t.acceptor = .reserving scan registered → scan.socket ≠ 0 := by
  have outcome : ∃ s t, (coordinator UriParser.pathOnly .default 2).Reachable s ∧ s.AllAlive ∧
      s.acceptor = .admitted 0 ∧
      (coordinator UriParser.pathOnly .default 2).run [.lock, .trySend] s = some t := by
    refine ⟨_, _, ⟨_, twoLanesAdmitted, rfl, rfl⟩, ⟨?_, ?_⟩, rfl, rfl⟩
    · decide
    · exact List.all_eq_true.mp rfl
  obtain ⟨s, t, reached, living, admitted, execution⟩ := outcome
  exact ⟨s, t, reached, execution,
    (acceptor_never_waits reached living admitted (by decide) execution).1⟩

end ListenerCoordinator

end Ingress
