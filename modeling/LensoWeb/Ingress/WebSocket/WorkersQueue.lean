import LensoWeb.Foundation.Census
import LensoWeb.Ingress.WebSocket.Workers

/-!
# The queue of a Workers transport

What holds between any two handlers of a transport. The order of frames and the
accounts are kept by every assignment of a handler on its own; that a running
drain has a send outstanding, and that no frame is left in the queue without one,
holds only where a handler has come to its end.
-/

namespace Ingress

open Foundation

namespace WorkersTransport

variable {limits : WebSocketLimits} {codec : BinaryCodec} {ahead : Nat} {s t : WorkersTransport}

/-- The frames that are still to be passed to `session.value.send`. -/
def pending (s : WorkersTransport) : List HostFrame :=
  (s.outstanding.filter fun sent => !sent.called).map fun sent => sent.queued.frame

/-- The bytes of the outstanding frames. -/
def outstandingBytes (s : WorkersTransport) : Nat :=
  census (fun sent => sent.queued.bytes) s.outstanding

/-- The payload bytes accepted from the peer. -/
def acceptedBytes (s : WorkersTransport) : Nat := census Queued.bytes s.accepted

/-- Order and accounts. `ahead` bytes have been counted for a frame on its way into
the queue. -/
structure Accounts (limits : WebSocketLimits) (ahead : Nat) (s : WorkersTransport) : Prop where
  order : s.taken ++ s.queue <+: s.accepted
  kept : s.active = true → s.taken ++ s.queue = s.accepted
  passing : s.passed ++ s.pending <+: s.taken.map Queued.frame
  complete : s.active = true → s.passed ++ s.pending = s.taken.map Queued.frame
  room : s.queue.length + s.outstanding.length ≤ limits.maxQueuedMessages
  bytes : s.active = true → s.queuedBytes = (census Queued.bytes s.queue + s.outstandingBytes : Nat)
  bounded : s.active = true → s.queuedBytes ≤ limits.maxQueuedBytes
  within : s.transferred ≤ limits.maxSessionBytes
  counted : s.acceptedBytes + s.sentBytes + ahead ≤ s.transferred
  exact : s.active = true → s.acceptedBytes + s.sentBytes + ahead = s.transferred
  cancels : s.cancels + s.active.toNat ≤ 1
  closes : s.closes.length = s.closing.toNat

/-- What holds between two handlers. -/
structure Sound (limits : WebSocketLimits) (ahead : Nat) (s : WorkersTransport) : Prop
    extends Accounts limits ahead s where
  single : s.outstanding.length ≤ 1
  draining : s.sending = !s.outstanding.isEmpty
  stranded : s.active = true → s.sending = false → s.queue = []

/-! ### Closing -/

theorem Accounts.close (accounts : Accounts limits ahead s) (code : Nat) (reason : JsString) :
    Accounts limits ahead (s.close code reason) := by
  rw [WorkersTransport.close]
  split
  · exact accounts
  · next notClosing =>
    refine { accounts with closes := ?_ }
    rw [Bool.not_eq_true] at notClosing
    have before := accounts.closes
    rw [notClosing] at before
    rw [List.length_append, before]
    rfl

theorem Sound.close (sound : Sound limits ahead s) (code : Nat) (reason : JsString) :
    Sound limits ahead (s.close code reason) := by
  refine ⟨sound.toAccounts.close code reason, ?_, ?_, ?_⟩
  · rw [WorkersTransport.close]
    split <;> exact sound.single
  · rw [WorkersTransport.close]
    split <;> exact sound.draining
  · rw [WorkersTransport.close]
    split <;> exact sound.stranded

/-- An inactive transport owes nothing but its order and bounds. -/
theorem Accounts.deactivate (accounts : Accounts limits ahead s) :
    Accounts limits 0 { s with active := false } where
  order := accounts.order
  kept := by rintro ⟨⟩
  passing := accounts.passing
  complete := by rintro ⟨⟩
  room := accounts.room
  bytes := by rintro ⟨⟩
  bounded := by rintro ⟨⟩
  within := accounts.within
  counted := le_trans (Nat.le_add_right _ _) accounts.counted
  exact := by rintro ⟨⟩
  cancels := le_trans (Nat.le_add_right _ _) accounts.cancels
  closes := accounts.closes

@[simp] theorem close_active (s : WorkersTransport) (code : Nat) (reason : JsString) :
    (s.close code reason).active = s.active := by
  rw [close]
  split <;> rfl

@[simp] theorem close_cancels (s : WorkersTransport) (code : Nat) (reason : JsString) :
    (s.close code reason).cancels = s.cancels := by
  rw [close]
  split <;> rfl

@[simp] theorem close_taken (s : WorkersTransport) (code : Nat) (reason : JsString) :
    (s.close code reason).taken = s.taken := by
  rw [close]
  split <;> rfl

theorem close_draining (s : WorkersTransport) (code : Nat) (reason : JsString) :
    (s.close code reason).sending = s.sending ∧
      (s.close code reason).outstanding = s.outstanding := by
  rw [close]
  split <;> exact ⟨rfl, rfl⟩

@[simp] theorem fail_active (s : WorkersTransport) (code : Nat) : (s.fail code).active = false := by
  rw [fail]
  split
  · next inactive => simpa using inactive
  · exact close_active _ code _

@[simp] theorem fail_taken (s : WorkersTransport) (code : Nat) : (s.fail code).taken = s.taken := by
  rw [fail]
  split
  · rfl
  · exact close_taken _ code _

theorem fail_draining (s : WorkersTransport) (code : Nat) :
    (s.fail code).sending = s.sending ∧ (s.fail code).outstanding = s.outstanding := by
  rw [fail]
  split
  · exact ⟨rfl, rfl⟩
  · exact close_draining _ code _

/-- A failure keeps the accounts of a transport that is inactive from now on. -/
theorem Accounts.fail_of_inactive (accounts : Accounts limits 0 { s with active := false })
    (cancels : s.cancels + s.active.toNat ≤ 1) (code : Nat) : Accounts limits 0 (s.fail code) := by
  rw [WorkersTransport.fail]
  split
  · next inactive =>
    rw [Bool.not_eq_true'] at inactive
    have same : { s with active := false } = s := by rw [← inactive]
    exact same ▸ accounts
  · next active =>
    have closed := accounts.close code sessionUnavailable
    refine { closed with cancels := ?_ }
    rw [Bool.not_eq_true', Bool.not_eq_false] at active
    rw [active, Bool.toNat_true] at cancels
    dsimp only
    rw [close_active, close_cancels]
    exact cancels

theorem Accounts.fail (accounts : Accounts limits ahead s) (code : Nat) :
    Accounts limits 0 (s.fail code) :=
  accounts.deactivate.fail_of_inactive accounts.cancels code

/-- An inactive transport is sound if its accounts are and its drain is on record. -/
theorem Accounts.sound_of_inactive (accounts : Accounts limits ahead s) (inactive : s.active = false)
    (single : s.outstanding.length ≤ 1) (draining : s.sending = !s.outstanding.isEmpty) :
    Sound limits ahead s where
  toAccounts := accounts
  single := single
  draining := draining
  stranded := fun active => by rw [inactive] at active; cases active

theorem Sound.fail (sound : Sound limits ahead s) (code : Nat) : Sound limits 0 (s.fail code) := by
  obtain ⟨sending, outstanding⟩ := fail_draining s code
  refine (sound.toAccounts.fail code).sound_of_inactive (fail_active s code) ?_ ?_
  · rw [outstanding]
    exact sound.single
  · rw [sending, outstanding]
    exact sound.draining

theorem Sound.cleanup (sound : Sound limits ahead s) : Sound limits 0 s.cleanup := by
  have inactive := sound.toAccounts.deactivate
  have accounts : Accounts limits 0 s.cleanup :=
    { inactive with
      order := List.IsPrefix.trans ⟨s.queue, by simp [WorkersTransport.cleanup]⟩ sound.order
      kept := by rintro ⟨⟩
      bytes := by rintro ⟨⟩
      room := le_trans (Nat.add_le_add_right (Nat.zero_le _) _) sound.room }
  exact accounts.sound_of_inactive rfl sound.single sound.draining

/-! ### Draining -/

/-- The loop comes to an end or takes the next frame. -/
theorem Accounts.drainLoop (accounts : Accounts limits ahead s) (idle : s.outstanding = [])
    (running : s.sending = true) : Sound limits ahead s.drainLoop := by
  have nothing : s.pending = [] := by
    rw [pending, idle]
    rfl
  rw [WorkersTransport.drainLoop]
  split
  · next active =>
    split
    · next empty =>
      refine ⟨{ accounts with }, ?_, ?_, fun _ _ => empty⟩
      · rw [idle]
        exact Nat.zero_le _
      · rw [idle]
        rfl
    · next next rest queued =>
      have order := accounts.order
      have kept := accounts.kept active
      have complete := accounts.complete active
      have room := accounts.room
      have bytes := accounts.bytes active
      rw [queued] at order kept room bytes
      rw [nothing, List.append_nil] at complete
      have passed : s.passed ++ [next.frame] = (s.taken ++ [next]).map Queued.frame := by
        rw [complete, List.map_append]
        rfl
      refine ⟨{ accounts with
        order := by simpa using order
        kept := fun _ => by simpa using kept
        passing := ?_
        complete := fun _ => ?_
        room := by simpa [idle] using room
        bytes := fun _ => ?_ }, ?_, ?_, ?_⟩
      · simp only [pending, idle]
        exact passed ▸ List.prefix_refl _
      · simp only [pending, idle]
        exact passed
      · rw [bytes]
        simp [outstandingBytes, idle, add_comm]
      · simp [idle]
      · simp [idle, running]
      · intro _ stopped
        rw [running] at stopped
        cases stopped
  · next inactive =>
    refine Accounts.sound_of_inactive { accounts with } (by simpa using inactive) ?_ ?_
    · rw [idle]
      exact Nat.zero_le _
    · rw [idle]
      rfl

theorem Accounts.drain (accounts : Accounts limits ahead s) (single : s.outstanding.length ≤ 1)
    (draining : s.sending = !s.outstanding.isEmpty) : Sound limits ahead s.drain := by
  rw [WorkersTransport.drain]
  split
  · next running =>
    refine ⟨accounts, single, draining, ?_⟩
    intro _ stopped
    rw [running] at stopped
    cases stopped
  · next stopped =>
    rw [draining, Bool.not_eq_true, Bool.not_eq_false', List.isEmpty_iff] at stopped
    exact Accounts.drainLoop { accounts with } stopped rfl

/-! ### Peer frames -/

/-- A frame within the limits is counted ahead of the queue. -/
theorem Sound.budget (sound : Sound limits 0 s) {bytes : Nat}
    (counted : s.budget limits bytes = some t) :
    Sound limits bytes t ∧ t.active = s.active ∧ t.scopeClosed = s.scopeClosed ∧
      t.taken = s.taken := by
  rw [WorkersTransport.budget] at counted
  split at counted
  · cases counted
  · next fits =>
    cases counted
    rw [not_or, Nat.not_lt, Nat.not_lt] at fits
    refine ⟨{ sound with within := fits.2, counted := ?_, exact := ?_ }, rfl, rfl, rfl⟩
    · have before := sound.counted
      simp only [acceptedBytes] at before ⊢
      omega
    · intro active
      have before := sound.exact active
      simp only [acceptedBytes] at before ⊢
      omega

theorem Sound.enqueue {bytes : Nat} (sound : Sound limits bytes s) (frame : HostFrame)
    (reached : s.scopeClosed = false ∨ bytes = 0) :
    Sound limits 0 (s.enqueue limits frame bytes) := by
  rw [WorkersTransport.enqueue]
  split
  · next refused =>
    -- Nothing is ahead of an inactive transport, nor of a close frame.
    cases active : s.active with
    | false =>
        refine { sound with counted := ?_, exact := ?_ }
        · exact le_trans (Nat.le_add_right _ _) sound.counted
        · intro impossible
          rw [active] at impossible
          cases impossible
    | true =>
        obtain scopeOpen | rfl := reached
        · rw [active, scopeOpen] at refused
          cases refused
        · exact sound
  · next admitted =>
    rw [Bool.not_eq_true, Bool.or_eq_false_iff, Bool.not_eq_false'] at admitted
    have active := admitted.1
    split
    · exact sound.fail 1009
    · next fits =>
      rw [Bool.not_eq_true, full, Bool.or_eq_false_iff, decide_eq_false_iff_not,
        decide_eq_false_iff_not, Nat.not_le, Int.not_lt] at fits
      obtain ⟨space, small⟩ := fits
      have outstanding : s.outstanding.length ≤ if s.sending then 1 else 0 := by
        rw [sound.draining]
        cases waiting : s.outstanding with
        | nil => exact Nat.zero_le _
        | cons sent rest =>
            have single := sound.single
            rw [waiting] at single
            exact single
      have bytesBefore := sound.bytes active
      have exact := sound.exact active
      have kept : s.taken ++ (s.queue ++ [⟨frame, bytes⟩]) = s.accepted ++ [⟨frame, bytes⟩] := by
        rw [← List.append_assoc, sound.kept active]
      refine Accounts.drain { sound.toAccounts with
        order := kept ▸ List.prefix_refl _, kept := fun _ => kept, room := ?_,
        bytes := fun _ => ?_, bounded := fun _ => ?_, counted := ?_, exact := fun _ => ?_ } sound.single sound.draining
      · rw [List.length_append, List.length_singleton]
        dsimp only
        omega
      · rw [bytesBefore]
        simp only [outstandingBytes, census_append, census_cons, census_nil]
        push_cast
        ring
      · dsimp only
        omega
      · simp only [acceptedBytes, census_append, census_cons, census_nil] at exact ⊢
        omega
      · simp only [acceptedBytes, census_append, census_cons, census_nil] at exact ⊢
        omega

theorem Sound.message (sound : Sound limits 0 s) (data : MessageData) :
    Sound limits 0 (s.message limits codec data) := by
  rw [WorkersTransport.message]
  split
  · exact sound
  · next admitted =>
    split
    · exact sound.fail 1009
    · split
      · exact sound.fail 1009
      · next counted =>
        obtain ⟨ahead, -, scope, -⟩ := sound.budget counted
        refine ahead.enqueue _ (.inl ?_)
        rw [scope]
        simp only [Bool.or_eq_true, not_or, Bool.not_eq_true] at admitted
        exact admitted.2

theorem Sound.closed (sound : Sound limits 0 s) (code : Nat) (reason : JsString) :
    Sound limits 0 (s.closed limits code reason) := by
  have noticed : Sound limits 0 { s with peerClosed := true } := { sound with }
  rw [WorkersTransport.closed]
  dsimp only
  split
  · exact noticed
  · split
    · exact noticed.fail 1011
    · exact noticed.enqueue _ (.inr rfl)

/-! ### Provider frames -/

theorem Sound.readFails (sound : Sound limits ahead s) : Sound limits 0 s.readFails := by
  have stopped : Sound limits ahead { s with reading := false } := { sound with }
  exact stopped.fail 1011

theorem Sound.readLoop (sound : Sound limits ahead s) : Sound limits ahead s.readLoop :=
  { sound with }

theorem Sound.sendToPeer (sound : Sound limits 0 s) (bytes : Nat) (throws : Bool) :
    Sound limits 0 (s.sendToPeer limits bytes throws) := by
  rw [WorkersTransport.sendToPeer]
  split
  · exact sound.readFails
  · next t counted =>
    obtain ⟨ahead, -, -, -⟩ := sound.budget counted
    split
    · exact ahead.readFails
    · have sent : Sound limits 0 { t with sentBytes := t.sentBytes + bytes } := by
        refine { ahead with counted := ?_, exact := fun active => ?_ }
        · have before := ahead.counted
          simp only [acceptedBytes] at before ⊢
          omega
        · have before := ahead.exact active
          simp only [acceptedBytes] at before ⊢
          omega
      exact sent.readLoop

theorem Sound.provided (sound : Sound limits 0 s) (frame : ProviderFrame) (throws : Bool) :
    Sound limits 0 (s.provided limits codec frame throws) := by
  unfold WorkersTransport.provided
  split
  · exact { sound with }
  · cases frame with
    | null =>
        have closed := sound.close 1000 []
        exact { closed with }
    | text text =>
        dsimp only
        split
        · exact sound.readFails
        · exact sound.sendToPeer _ throws
    | binary body =>
        dsimp only
        split
        · exact sound.readFails
        · exact sound.sendToPeer _ throws
    | close code reason => exact (sound.close code reason).readLoop
    | invalid => exact sound.readFails

/-! ### Sends -/

/-- An outstanding send is the only one. -/
theorem Sound.outstanding_eq (sound : Sound limits ahead s) {index : Nat} {sent : Sending}
    (present : s.outstanding[index]? = some sent) : index = 0 ∧ s.outstanding = [sent] := by
  have single := sound.single
  obtain ⟨inside, found⟩ := List.getElem?_eq_some_iff.mp present
  obtain rfl : index = 0 := by omega
  obtain ⟨only, alone⟩ := List.length_eq_one_iff.mp (by omega : s.outstanding.length = 1)
  rw [alone] at present ⊢
  cases present
  exact ⟨rfl, rfl⟩

/-- The function behind `invoke` is called. -/
theorem Sound.passes (sound : Sound limits 0 s) {queued : Queued}
    (waiting : s.outstanding = [⟨queued, false⟩]) :
    Sound limits 0 { s with
      outstanding := s.outstanding.set 0 ⟨queued, true⟩, passed := s.passed ++ [queued.frame] } := by
  have passing := sound.passing
  have complete := sound.complete
  have draining := sound.draining
  have room := sound.room
  have bytes := sound.bytes
  simp only [pending, waiting] at passing complete
  simp only [outstandingBytes, waiting] at bytes
  rw [waiting] at draining room
  rw [waiting]
  exact { sound with
    passing := by simpa [pending] using passing
    complete := fun active => by simpa [pending] using complete active
    room := room
    bytes := bytes
    single := le_rfl
    draining := draining }

/-- The send has ended, and its bytes are given back. -/
theorem Accounts.settle (accounts : Accounts limits 0 s) {sent : Sending}
    (waiting : s.outstanding = [sent]) (called : s.active = true → sent.called = true) :
    Accounts limits 0 (s.settle 0 sent) := by
  have erased : (s.settle 0 sent).outstanding = [] := by
    rw [WorkersTransport.settle, waiting]
    rfl
  have cleared : (s.settle 0 sent).pending = [] := by
    rw [pending, erased]
    rfl
  refine { accounts with
    passing := ?_, complete := fun active => ?_, room := ?_, bytes := fun active => ?_,
    bounded := fun active => ?_ }
  · rw [cleared]
    exact ((List.prefix_append_right_inj _).mpr List.nil_prefix).trans accounts.passing
  · have complete := accounts.complete active
    simp only [pending, waiting, List.filter_cons, called active] at complete
    rw [cleared]
    exact complete
  · rw [erased]
    exact le_trans (Nat.add_le_add_left (Nat.zero_le _) _) accounts.room
  · have before := accounts.bytes active
    simp only [outstandingBytes, waiting, census_cons, census_nil] at before
    rw [outstandingBytes, erased]
    show s.queuedBytes - (sent.queued.bytes : Int) = (census Queued.bytes s.queue + 0 : Nat)
    omega
  · have before := accounts.bounded active
    simp only [WorkersTransport.settle]
    omega

theorem Sound.resolves (sound : Sound limits 0 s) {queued : Queued}
    (waiting : s.outstanding = [⟨queued, true⟩]) :
    Sound limits 0 (s.settle 0 ⟨queued, true⟩).drainLoop := by
  have running : s.sending = true := by
    rw [sound.draining, waiting]
    rfl
  refine (sound.toAccounts.settle waiting fun _ => rfl).drainLoop ?_ running
  rw [WorkersTransport.settle, waiting]
  rfl

/-- The send failed. It may have been taken from the queue without being passed on. -/
theorem Sound.rejects (sound : Sound limits 0 s) {sent : Sending}
    (waiting : s.outstanding = [sent]) :
    Sound limits 0 { (s.settle 0 sent).fail 1011 with sending := false } := by
  have settled : Accounts limits 0 ({ s with active := false }.settle 0 sent) :=
    sound.toAccounts.deactivate.settle waiting (by rintro ⟨⟩)
  have failed := Accounts.fail_of_inactive (s := s.settle 0 sent) settled sound.cancels 1011
  have erased : ((s.settle 0 sent).fail 1011).outstanding = [] := by
    rw [(fail_draining _ 1011).2, WorkersTransport.settle, waiting]
    rfl
  refine Accounts.sound_of_inactive { failed with } (fail_active _ 1011) ?_ ?_
  · rw [erased]
    exact Nat.zero_le _
  · rw [erased]
    rfl

/-! ### All interleavings -/

theorem Sound.step (sound : Sound limits 0 s) {action : WorkersAction}
    (transition : step limits codec s action = some t) : Sound limits 0 t := by
  cases action with
  | message data =>
      rw [WorkersTransport.step] at transition
      split at transition <;> cases transition
      exact sound.message data
  | peerCloses code reason =>
      rw [WorkersTransport.step] at transition
      split at transition <;> cases transition
      exact sound.closed code reason
  | peerFails =>
      rw [WorkersTransport.step] at transition
      split at transition <;> cases transition
      exact sound.fail 1011
  | passes index =>
      rw [WorkersTransport.step] at transition
      split at transition
      · next present =>
        cases transition
        obtain ⟨rfl, waiting⟩ := sound.outstanding_eq present
        exact sound.passes waiting
      · cases transition
  | resolves index =>
      rw [WorkersTransport.step] at transition
      split at transition
      · next present =>
        cases transition
        obtain ⟨rfl, waiting⟩ := sound.outstanding_eq present
        exact sound.resolves waiting
      · cases transition
  | rejects index =>
      rw [WorkersTransport.step] at transition
      split at transition
      · next present =>
        cases transition
        obtain ⟨rfl, waiting⟩ := sound.outstanding_eq present
        exact sound.rejects waiting
      · cases transition
  | provides frame throws =>
      rw [WorkersTransport.step] at transition
      split at transition <;> cases transition
      exact sound.provided frame throws
  | readRejects =>
      rw [WorkersTransport.step] at transition
      split at transition <;> cases transition
      exact sound.readFails
  | sessionCloses =>
      cases transition
      exact sound.cleanup
  | sessionRejects =>
      cases transition
      exact (sound.close 1011 sessionUnavailable).cleanup
  | scopeCloses =>
      cases transition
      exact { sound with }
  | aborts invalidated =>
      cases transition
      cases invalidated with
      | true => exact sound.close 1011 sessionUnavailable
      | false => exact sound.close 1000 []

theorem sound_start (limits : WebSocketLimits) (scopeClosed : Bool) :
    Sound limits 0 (start scopeClosed) where
  order := List.prefix_refl _
  kept := fun _ => rfl
  passing := List.prefix_refl _
  complete := fun _ => rfl
  room := Nat.zero_le _
  bytes := fun _ => rfl
  bounded := fun _ => Int.natCast_nonneg _
  within := Nat.zero_le _
  counted := le_rfl
  exact := fun _ => rfl
  cancels := le_rfl
  closes := rfl
  single := Nat.zero_le _
  draining := rfl
  stranded := fun _ _ => rfl

theorem sound_of_reachable (reached : (machine limits codec).Reachable s) : Sound limits 0 s := by
  refine reached.invariant ?_ fun s action t _ sound transition => sound.step transition
  rintro s ⟨scopeClosed, rfl | rfl⟩
  · exact sound_start limits scopeClosed
  · exact ((sound_start limits scopeClosed).fail 1011).cleanup

/-! ### Inactive transports -/

theorem fail_of_inactive (inactive : s.active = false) (code : Nat) : s.fail code = s := by
  rw [fail, inactive]
  rfl

/-- An inactive transport stays inactive and takes nothing from its queue. -/
theorem step_of_inactive (inactive : s.active = false) {action : WorkersAction}
    (transition : step limits codec s action = some t) :
    t.active = false ∧ t.taken = s.taken := by
  cases action with
  | message data =>
      rw [step] at transition
      split at transition <;> cases transition
      rw [message, inactive]
      exact ⟨inactive, rfl⟩
  | peerCloses code reason =>
      rw [step] at transition
      split at transition <;> cases transition
      rw [closed]
      dsimp only
      rw [inactive]
      exact ⟨rfl, rfl⟩
  | peerFails =>
      rw [step, fail_of_inactive inactive] at transition
      split at transition <;> cases transition
      exact ⟨inactive, rfl⟩
  | passes index =>
      rw [step] at transition
      split at transition <;> cases transition
      exact ⟨inactive, rfl⟩
  | resolves index =>
      rw [step] at transition
      split at transition <;> cases transition
      rw [drainLoop, if_neg (by simp [settle, inactive])]
      exact ⟨inactive, rfl⟩
  | rejects index =>
      rw [step] at transition
      split at transition <;> cases transition
      exact ⟨fail_active _ 1011, fail_taken _ 1011⟩
  | provides frame throws =>
      rw [step] at transition
      split at transition <;> cases transition
      unfold provided
      rw [inactive]
      exact ⟨rfl, rfl⟩
  | readRejects =>
      rw [step] at transition
      split at transition <;> cases transition
      exact ⟨fail_active _ 1011, fail_taken _ 1011⟩
  | sessionCloses =>
      cases transition
      exact ⟨rfl, rfl⟩
  | sessionRejects =>
      cases transition
      exact ⟨rfl, close_taken s 1011 _⟩
  | scopeCloses =>
      cases transition
      exact ⟨inactive, rfl⟩
  | aborts invalidated =>
      cases transition
      cases invalidated with
      | true => exact ⟨(close_active s _ _).trans inactive, close_taken s _ _⟩
      | false => exact ⟨(close_active s _ _).trans inactive, close_taken s _ _⟩

theorem run_of_inactive (inactive : s.active = false) {actions : List WorkersAction}
    (execution : (machine limits codec).run actions s = some t) : t.taken = s.taken := by
  have kept : t.active = false ∧ t.taken = s.taken := by
    refine Machine.run_preserves (P := fun u => u.active = false ∧ u.taken = s.taken) ?_
      ⟨inactive, rfl⟩ execution
    intro u action v prior transition
    obtain ⟨still, same⟩ := step_of_inactive prior.1 transition
    exact ⟨still, same.trans prior.2⟩
  exact kept.2

/-- Between any two handlers of a transport, over every interleaving: frames are passed to
the session in the order in which they were accepted, one at a time and within both
queue limits; all bytes are accounted for; no frame waits without a drain, and none is
taken any more from the queue of an inactive transport; and the session is cancelled
and the socket closed at most once. -/
theorem workers_queue (limits : WebSocketLimits) (codec : BinaryCodec) {s : WorkersTransport}
    (reached : (machine limits codec).Reachable s) :
    s.passed <+: s.accepted.map Queued.frame ∧
    s.outstanding.length ≤ 1 ∧
    s.queue.length + s.outstanding.length ≤ limits.maxQueuedMessages ∧
    (s.active = true →
      s.queuedBytes = (census Queued.bytes s.queue + s.outstandingBytes : Nat) ∧
      s.queuedBytes ≤ limits.maxQueuedBytes) ∧
    s.transferred ≤ limits.maxSessionBytes ∧
    s.acceptedBytes + s.sentBytes ≤ s.transferred ∧
    (s.active = true → s.acceptedBytes + s.sentBytes = s.transferred) ∧
    (s.active = true → s.sending = false → s.queue = []) ∧
    (s.active = false → ∀ actions t, (machine limits codec).run actions s = some t →
      t.taken = s.taken) ∧
    s.cancels ≤ 1 ∧ s.closes.length ≤ 1 := by
  have sound := sound_of_reachable reached
  refine ⟨?_, sound.single, sound.room, fun active => ⟨sound.bytes active, sound.bounded active⟩,
    sound.within, sound.counted, sound.exact, sound.stranded,
    fun inactive actions t => run_of_inactive inactive, ?_, ?_⟩
  · calc s.passed
      _ <+: s.passed ++ s.pending := List.prefix_append _ _
      _ <+: s.taken.map Queued.frame := sound.passing
      _ <+: s.accepted.map Queued.frame :=
        ((List.prefix_append _ _).trans sound.order).map Queued.frame
  · exact le_trans (Nat.le_add_right _ _) sound.cancels
  · rw [sound.closes]
    exact Bool.toNat_le _

/-- The limits that `createWebSocketTransport` uses if none are given. -/
def defaultLimits : WebSocketLimits where
  maxMessageBytes := 65536
  maxQueuedMessages := 16
  maxQueuedBytes := 1048576
  maxSessionBytes := 1048576
  valid := by decide

/-- A codec that leaves bodies as they are. -/
def plainCodec : BinaryCodec := ⟨id, fun body _ => some body⟩

/-- A second message waits in the queue while the first one is being sent. -/
theorem workers_queue_twoMessages :
    ∃ s, (machine defaultLimits plainCodec).Reachable s ∧ s.passed = [.text [97]] ∧
      s.queue = [⟨.text [98, 99], 2⟩] ∧ s.passed <+: s.accepted.map Queued.frame ∧
      s.acceptedBytes + s.sentBytes = s.transferred := by
  let actions : List WorkersAction :=
    [.message (.text [97]), .passes 0, .message (.text [98, 99])]
  have observed : ((machine defaultLimits plainCodec).run actions (start false)).map
      (fun s => (s.active, s.passed, s.queue)) =
        some (true, [.text [97]], [⟨.text [98, 99], 2⟩]) := by decide +kernel
  obtain ⟨s, execution, seen⟩ := Option.map_eq_some_iff.mp observed
  obtain ⟨active, seen⟩ := Prod.mk.inj seen
  obtain ⟨passed, queue⟩ := Prod.mk.inj seen
  have reached : (machine defaultLimits plainCodec).Reachable s :=
    ⟨start false, actions, ⟨false, .inl rfl⟩, execution⟩
  obtain ⟨order, -, -, -, -, -, exact, -⟩ := workers_queue defaultLimits plainCodec reached
  exact ⟨s, reached, passed, queue, order, exact active⟩

end WorkersTransport

end Ingress
