import LensoWeb.Ingress.Replication.Agreement

/-!
# Replica allocation

A call of `allocate_replica` draws a slot from the cursor and then asks the table for it; a
call of `allocate_replica_at` asks the table directly. The table hands a slot out at most
once. The cursor does not know what was asked for explicitly, so a call can fail on a slot
that is taken while another one is free.

What a run asks the table for, in the order in which the lock is taken, decides every
outcome: the slots handed out are the slots in range that were asked for.
-/

namespace Ingress

open Foundation Http

/-- The slot that an action asks the table for. -/
def CoordinatorAction.asked : CoordinatorAction → Option Nat
  | .allocateDrawn slot => some slot
  | .allocateReplicaAt slot => some slot
  | _ => none

/-- What a run asks the table for. -/
def asks (actions : List CoordinatorAction) : List Nat :=
  actions.filterMap CoordinatorAction.asked

/-- An action of a call of `allocate_replica` or `allocate_replica_at`. -/
def CoordinatorAction.allocates : CoordinatorAction → Bool
  | .drawSlot => true
  | action => action.asked.isSome

namespace CoordinatorState

/-- The allocation marks, in slot order. -/
def allocations (state : CoordinatorState) : List Bool := state.slots.map (·.allocated)

/-- The table hands out a slot that is not marked, and nothing else. -/
theorem allocateReplicaAt_allocations (state : CoordinatorState) (slot : Nat) :
    (state.allocations[slot]? = some false ∧ ∃ after,
      state.allocateReplicaAt slot = (.ok (), after) ∧
        after.allocations = state.allocations.set slot true) ∨
    (state.allocations[slot]? ≠ some false ∧ ∃ message,
      state.allocateReplicaAt slot = (.error message, state)) := by
  rw [allocations, List.getElem?_map, allocateReplicaAt]
  cases found : state.slots[slot]? with
  | none => exact .inr ⟨Option.some_ne_none false |>.symm, _, rfl⟩
  | some replica =>
      cases taken : replica.allocated with
      | true =>
          refine .inr ⟨fun free => ?_, _, if_pos taken⟩
          rw [Option.map_some, taken] at free
          cases free
      | false =>
          have free : ¬ replica.allocated = true := by rw [taken]; exact Bool.false_ne_true
          refine .inl ⟨by rw [Option.map_some, taken], _, if_neg free, ?_⟩
          simp only [allocations, List.map_set]

/-- Registration does not touch the marks. -/
theorem registered_allocations (state : CoordinatorState) (slot : Nat)
    (manifest : WebIngressReplicaManifest) (connections : ChannelId) :
    (state.registered slot manifest connections).allocations = state.allocations := by
  have same : ∀ replica : ReplicaSlot,
      ({ replica with manifest := some manifest, connections := some connections } :
        ReplicaSlot).allocated = replica.allocated := fun _ => rfl
  rw [registered, publish, allocations, allocations]
  refine List.ext_getElem? fun index => ?_
  rw [List.getElem?_map, List.getElem?_map, List.getElem?_modify]
  cases state.slots[index]? with
  | none => rfl
  | some replica =>
      by_cases here : slot = index
      · simp [here]
      · simp [here]

end CoordinatorState

namespace ListenerCoordinator

variable {parser : UriParser} {config : WebIngressConfig} {replicaCount : Nat}
  {s t : ListenerCoordinator} {action : CoordinatorAction}

/-- What allocation depends on is unchanged. -/
structure SameLedger (s t : ListenerCoordinator) : Prop where
  allocations : t.state.allocations = s.state.allocations
  replicas : t.replicas = s.replicas
  nextSlot : t.nextSlot = s.nextSlot
  allocating : t.allocating = s.allocating

/-- Only the calls of the two entry points allocate. -/
theorem CoordinatorStep.sameLedger (taken : CoordinatorStep config s action t)
    (other : action.allocates = false) : SameLedger s t := by
  cases taken with
  | drawSlot => cases other
  | allocateDrawn drawn free => cases other
  | allocateReplicaAt free => cases other
  | register handle free =>
      next slot routes middleware =>
      obtain ⟨_, _, _, _, refused⟩ | ⟨_, accepted⟩ :=
        s.register_cases config slot routes middleware
      · rw [refused]
        exact ⟨rfl, rfl, rfl, rfl⟩
      · rw [accepted]
        exact ⟨s.state.registered_allocations _ _ _, rfl, rfl, rfl⟩
  | _ => exact ⟨rfl, rfl, rfl, rfl⟩

/-- The slots handed out are marked; they are the slots in range that were asked for; and
what is free is still before the cursor or drawn by a call in progress. -/
structure Ledger (replicaCount : Nat) (asked : List Nat) (s : ListenerCoordinator) : Prop where
  once : s.replicas.Nodup
  marks : s.state.allocations = (List.range replicaCount).map fun slot => decide (slot ∈ s.replicas)
  handedOut : ∀ slot, slot ∈ s.replicas ↔ slot < replicaCount ∧ slot ∈ asked
  ahead : ∀ slot < replicaCount, slot ∉ s.replicas → s.nextSlot ≤ slot ∨ slot ∈ s.allocating

/-- A slot that no call has been given. -/
def Free (replicaCount : Nat) (s : ListenerCoordinator) (slot : Nat) : Prop :=
  slot < replicaCount ∧ slot ∉ s.replicas

instance (slot : Nat) : Decidable (Free replicaCount s slot) :=
  inferInstanceAs (Decidable (_ ∧ _))

variable {asked : List Nat}

theorem ledger_unallocated (config : WebIngressConfig) (replicaCount : Nat) :
    Ledger replicaCount [] (unallocated config replicaCount) where
  once := List.nodup_nil
  marks := by
    simp [unallocated, CoordinatorState.allocations, List.map_const']
  handedOut := by simp [unallocated]
  ahead := fun slot _ _ => .inl (Nat.zero_le slot)

theorem Ledger.mark (ledger : Ledger replicaCount asked s) (slot : Nat) :
    s.state.allocations[slot]? = some false ↔ Free replicaCount s slot := by
  rw [ledger.marks, List.getElem?_map, Free]
  by_cases inRange : slot < replicaCount
  · rw [List.getElem?_range inRange, Option.map_some, Option.some.injEq, decide_eq_false_iff_not]
    exact ⟨fun fresh => ⟨inRange, fresh⟩, fun free => free.2⟩
  · rw [List.getElem?_eq_none (by rw [List.length_range]; omega)]
    exact ⟨nofun, fun free => absurd free.1 inRange⟩

/-- The table hands out what is free and refuses everything else without a trace. -/
theorem Ledger.allocateReplicaAt_cases (ledger : Ledger replicaCount asked s) (slot : Nat) :
    (Free replicaCount s slot ∧ ∃ state,
      s.allocateReplicaAt slot = (.ok slot, { s with state, replicas := s.replicas ++ [slot] }) ∧
        state.allocations = s.state.allocations.set slot true) ∨
    (¬ Free replicaCount s slot ∧ ∃ message, s.allocateReplicaAt slot = (.error message, s)) := by
  rw [← ledger.mark, allocateReplicaAt]
  obtain ⟨free, after, given, marked⟩ | ⟨taken, message, refused⟩ :=
    s.state.allocateReplicaAt_allocations slot
  · exact .inl ⟨free, after, by rw [given], marked⟩
  · exact .inr ⟨taken, message, by rw [refused]⟩

theorem Ledger.allocateReplicaAt (ledger : Ledger replicaCount asked s) (slot : Nat) :
    Ledger replicaCount (asked ++ [slot]) (s.allocateReplicaAt slot).2 := by
  obtain ⟨⟨inRange, fresh⟩, state, given, marked⟩ | ⟨taken, message, refused⟩ :=
    ledger.allocateReplicaAt_cases slot
  · rw [given]
    constructor
    · exact List.nodup_append.mpr ⟨ledger.once, List.nodup_singleton slot,
        fun held member other single same =>
          fresh (List.mem_singleton.mp single ▸ same ▸ member)⟩
    · refine List.ext_getElem? fun index => ?_
      rw [marked, ledger.marks, List.getElem?_set, List.length_map, List.length_range,
        List.getElem?_map, List.getElem?_map]
      by_cases here : slot = index
      · subst here
        simp [inRange]
      · by_cases known : index < replicaCount
        · simp [here, known, Ne.symm here]
        · simp [here, known]
    · intro other
      rw [List.mem_append, List.mem_append, List.mem_singleton, ledger.handedOut]
      constructor
      · rintro (⟨known, before⟩ | rfl)
        · exact ⟨known, .inl before⟩
        · exact ⟨inRange, .inr rfl⟩
      · rintro ⟨known, before | rfl⟩
        · exact .inl ⟨known, before⟩
        · exact .inr rfl
    · intro other known unheld
      exact ledger.ahead other known fun held => unheld (List.mem_append_left _ held)
  · rw [refused]
    refine ⟨ledger.once, ledger.marks, fun other => ?_, ledger.ahead⟩
    rw [List.mem_append, List.mem_singleton, ledger.handedOut]
    constructor
    · exact fun ⟨known, before⟩ => ⟨known, .inl before⟩
    · rintro ⟨known, before | rfl⟩
      · exact ⟨known, before⟩
      · -- a slot in range that is refused has been handed out before
        by_contra unasked
        exact taken ⟨known, fun held => unasked ((ledger.handedOut other).mp held)⟩

/-- After a slot has been asked for it is not free. -/
theorem Ledger.not_free_of_asked {slot : Nat} (ledger : Ledger replicaCount (asked ++ [slot]) s) :
    ¬ Free replicaCount s slot := by
  rintro ⟨known, fresh⟩
  exact fresh ((ledger.handedOut slot).mpr ⟨known, List.mem_append_right _ List.mem_cons_self⟩)

theorem Ledger.step (ledger : Ledger replicaCount asked s)
    (taken : CoordinatorStep config s action t) :
    Ledger replicaCount (asked ++ action.asked.toList) t := by
  by_cases other : action.allocates = false
  · have same := taken.sameLedger other
    have unasked : action.asked = none := by
      cases action with
      | drawSlot => cases other
      | _ => exact Option.not_isSome_iff_eq_none.mp (Bool.eq_false_iff.mp other)
    rw [unasked, Option.toList_none, List.append_nil]
    refine ⟨?_, ?_, ?_, ?_⟩
    · rw [same.replicas]
      exact ledger.once
    · rw [same.allocations, same.replicas]
      exact ledger.marks
    · rw [same.replicas]
      exact ledger.handedOut
    · rw [same.replicas, same.nextSlot, same.allocating]
      exact ledger.ahead
  · cases taken with
    | drawSlot =>
        have unasked : CoordinatorAction.drawSlot.asked = none := rfl
        rw [unasked, Option.toList_none, List.append_nil]
        refine ⟨ledger.once, ledger.marks, ledger.handedOut, fun slot known fresh => ?_⟩
        obtain before | drawn := ledger.ahead slot known fresh
        · obtain later | rfl := Nat.lt_or_eq_of_le before
          · exact .inl ((Nat.mod_le _ _).trans later)
          · exact .inr (List.mem_append_right _ List.mem_cons_self)
        · exact .inr (List.mem_append_left _ drawn)
    | allocateDrawn drawn free =>
        next slot =>
        have tried := ledger.allocateReplicaAt slot
        have gone := tried.not_free_of_asked
        refine ⟨tried.once, tried.marks, tried.handedOut, fun other known fresh => ?_⟩
        obtain before | waiting := tried.ahead other known fresh
        · exact .inl before
        · refine .inr ((List.mem_erase_of_ne ?_).mpr ?_)
          · rintro rfl
            exact gone ⟨known, fresh⟩
          · obtain ⟨-, state, given, -⟩ | ⟨-, message, refused⟩ :=
              ledger.allocateReplicaAt_cases slot
            · rwa [given] at waiting
            · rwa [refused] at waiting
    | allocateReplicaAt free => exact ledger.allocateReplicaAt _
    | _ => exact absurd rfl other

theorem Ledger.run {actions : List CoordinatorAction} (ledger : Ledger replicaCount asked s)
    (execution : (coordinator parser config replicaCount).run actions s = some t) :
    Ledger replicaCount (asked ++ asks actions) t := by
  induction actions generalizing s asked with
  | nil =>
      cases execution
      rwa [asks, List.filterMap_nil, List.append_nil]
  | cons action rest ih =>
      obtain ⟨u, transition, remaining⟩ := Machine.run_cons_iff.mp execution
      have later := ih (ledger.step (.of_step transition)) remaining
      rw [List.append_assoc] at later
      have joined : asks (action :: rest) = action.asked.toList ++ asks rest := by
        rw [asks, List.filterMap_cons]
        cases action.asked <;> rfl
      rwa [joined]

/-! ### What can still be allocated -/

/-- Some run of permitted actions hands out this many slots more. -/
def CanAllocate (machine : Machine ListenerCoordinator CoordinatorAction)
    (permitted : CoordinatorAction → Prop) (s : ListenerCoordinator) (count : Nat) : Prop :=
  ∃ actions t, (∀ action ∈ actions, permitted action) ∧ machine.run actions s = some t ∧
    t.replicas.length = s.replicas.length + count

/-- An action that is no explicit call. -/
def ByCursor (action : CoordinatorAction) : Prop :=
  ∀ slot, action ≠ .allocateReplicaAt slot

theorem Ledger.length_le (ledger : Ledger replicaCount asked s) :
    s.replicas.length ≤ replicaCount := by
  have known : s.replicas ⊆ List.range replicaCount := fun slot member =>
    List.mem_range.mpr ((ledger.handedOut slot).mp member).1
  have bounded := (List.subperm_of_subset ledger.once known).length_le
  rwa [List.length_range] at bounded

theorem exists_free (room : s.replicas.length < replicaCount) :
    ∃ slot, Free replicaCount s slot := by
  by_contra none
  push Not at none
  have held : List.range replicaCount ⊆ s.replicas := by
    intro slot member
    by_contra fresh
    exact none slot ⟨List.mem_range.mp member, fresh⟩
  have bounded := (List.subperm_of_subset List.nodup_range held).length_le
  rw [List.length_range] at bounded
  omega

/-- The cursor can be brought to any slot that it has not passed. -/
theorem exists_draws {slot : Nat} (word : slot < 2 ^ 64) (before : s.nextSlot ≤ slot) :
    ∃ actions t, (∀ action ∈ actions, action = .drawSlot) ∧
      (coordinator parser config replicaCount).run actions s = some t ∧
      slot ∈ t.allocating ∧ t.replicas = s.replicas ∧ t.acceptor = s.acceptor := by
  obtain ⟨distance, rfl⟩ := Nat.exists_eq_add_of_le before
  clear before
  induction distance generalizing s with
  | zero =>
      exact ⟨[.drawSlot], s.drawSlot, fun _ member => List.mem_singleton.mp member, rfl,
        List.mem_append_right _ List.mem_cons_self, rfl, rfl⟩
  | succ distance ih =>
      have next : s.drawSlot.nextSlot = s.nextSlot + 1 := Nat.mod_eq_of_lt (by omega)
      have target : s.drawSlot.nextSlot + distance = s.nextSlot + (distance + 1) := by omega
      obtain ⟨actions, t, draws, execution, drawn, held, stood⟩ := ih (s := s.drawSlot)
        (by rw [target]; exact word)
      rw [target] at drawn
      refine ⟨.drawSlot :: actions, t, ?_, Machine.run_cons_iff.mpr ⟨_, rfl, execution⟩, drawn,
        held, stood⟩
      exact List.forall_mem_cons.mpr ⟨rfl, draws⟩

/-- One iteration of a scan ends it or brings it one slot further. -/
theorem trySend_progress (config : WebIngressConfig) {scan : Scan} (trying : s.acceptor = .trying scan)
    (remaining : scan.offset < s.state.slots.length) :
    (s.trySend scan).replicas = s.replicas ∧ (s.trySend scan).state = s.state ∧
      ((s.trySend scan).acceptor = .idle ∨ ∃ next : Scan,
        (s.trySend scan).acceptor = .trying next ∧ next.offset = scan.offset + 1) := by
  have taken := @CoordinatorStep.of_trySend config _ _ trying remaining
  generalize s.trySend scan = t at taken
  cases taken with
  | place held more found room => exact ⟨rfl, rfl, .inl rfl⟩
  | skipAbsent held more absent =>
      cases trying.symm.trans held
      exact ⟨rfl, rfl, .inr ⟨_, rfl, rfl⟩⟩
  | skipFull held more found isOpen full =>
      cases trying.symm.trans held
      exact ⟨rfl, rfl, .inr ⟨_, rfl, rfl⟩⟩
  | skipClosed held more found closed =>
      cases trying.symm.trans held
      exact ⟨rfl, rfl, .inr ⟨_, rfl, rfl⟩⟩

/-- A scan comes to its end, and the state lock is released. -/
theorem exists_unlocked (parser : UriParser) (config : WebIngressConfig) (replicaCount : Nat)
    (s : ListenerCoordinator) :
    ∃ actions t, (∀ action ∈ actions, ByCursor action) ∧
      (coordinator parser config replicaCount).run actions s = some t ∧
      t.acceptor.locked = false ∧ t.replicas = s.replicas := by
  cases held : s.acceptor with
  | trying scan =>
      obtain ⟨left, remaining⟩ : ∃ left, left = s.state.slots.length - scan.offset := ⟨_, rfl⟩
      induction left generalizing s scan with
      | zero =>
          have done : ¬ scan.offset < s.state.slots.length := by omega
          have transition : step config s .unlock = some (s.unlock scan) := by
            simp only [step, held, if_neg done]
          refine ⟨[.unlock], s.unlock scan, List.forall_mem_singleton.mpr ?_,
            Machine.run_cons_iff.mpr ⟨_, transition, rfl⟩, rfl, rfl⟩
          rintro slot ⟨⟩
      | succ left ih =>
          have more : scan.offset < s.state.slots.length := by omega
          have transition : step config s .trySend = some (s.trySend scan) := by
            simp only [step, held, if_pos more]
          obtain ⟨replicas, state, idle | ⟨next, trying, further⟩⟩ :=
            trySend_progress config held more
          · refine ⟨[.trySend], s.trySend scan, List.forall_mem_singleton.mpr ?_,
              Machine.run_cons_iff.mpr ⟨_, transition, rfl⟩, by rw [idle]; rfl, replicas⟩
            rintro slot ⟨⟩
          · obtain ⟨actions, t, calls, execution, free, same⟩ :=
              ih (s.trySend scan) next trying (by rw [state]; omega)
            refine ⟨.trySend :: actions, t, List.forall_mem_cons.mpr ⟨?_, calls⟩,
              Machine.run_cons_iff.mpr ⟨_, transition, execution⟩, free, same.trans replicas⟩
            rintro slot ⟨⟩
  | idle => exact ⟨[], s, List.forall_mem_nil _, rfl, by rw [held]; rfl, rfl⟩
  | admitted socket => exact ⟨[], s, List.forall_mem_nil _, rfl, by rw [held]; rfl, rfl⟩
  | reserving scan registered =>
      exact ⟨[], s, List.forall_mem_nil _, rfl, by rw [held]; rfl, rfl⟩

/-- The cursor alone can hand out one slot more, if one is free. -/
theorem Ledger.exists_allocation (ledger : Ledger replicaCount asked s)
    (word : replicaCount < 2 ^ 64) (room : s.replicas.length < replicaCount) :
    ∃ actions t, (∀ action ∈ actions, ByCursor action) ∧
      (coordinator parser config replicaCount).run actions s = some t ∧
      t.replicas.length = s.replicas.length + 1 := by
  obtain ⟨slot, known, fresh⟩ := exists_free room
  obtain ⟨unlocking, u, quiet, unlocked, free, same⟩ :=
    exists_unlocked parser config replicaCount s
  have reached := ledger.run unlocked
  have unheld : slot ∉ u.replicas := by rwa [same]
  obtain ⟨drawing, v, draws, drawn, waiting, kept, stood⟩ :
      ∃ actions v, (∀ action ∈ actions, action = .drawSlot) ∧
        (coordinator parser config replicaCount).run actions u = some v ∧
        slot ∈ v.allocating ∧ v.replicas = u.replicas ∧ v.acceptor = u.acceptor := by
    obtain before | waiting := reached.ahead slot known unheld
    · exact exists_draws (known.trans word) before
    · exact ⟨[], u, List.forall_mem_nil _, rfl, waiting, rfl, rfl⟩
  have drawnLedger := reached.run drawn
  obtain ⟨-, state, given, -⟩ | ⟨taken, -⟩ := drawnLedger.allocateReplicaAt_cases slot
  · obtain ⟨t, transition, grown⟩ : ∃ t,
        ListenerCoordinator.step config v (.allocateDrawn slot) = some t ∧
          t.replicas = v.replicas ++ [slot] := by
      rw [ListenerCoordinator.step, if_pos ⟨waiting, by rw [stood]; exact free⟩, given]
      exact ⟨_, rfl, rfl⟩
    refine ⟨unlocking ++ (drawing ++ [.allocateDrawn slot]), t, ?_, ?_, ?_⟩
    · rintro action member other rfl
      rcases List.mem_append.mp member with inside | inside
      · exact quiet _ inside other rfl
      · rcases List.mem_append.mp inside with inside | inside
        · cases draws _ inside
        · cases List.mem_singleton.mp inside
    · rw [Machine.run_append, unlocked, Option.bind_some, Machine.run_append, drawn,
        Option.bind_some]
      exact Machine.run_cons_iff.mpr ⟨t, transition, rfl⟩
    · rw [grown, List.length_append, kept, same]
      rfl
  · exact absurd ⟨known, by rwa [kept]⟩ taken

/-- As many slots as are free can still be handed out, and no more; by the cursor alone, too. -/
theorem Ledger.canAllocate_iff {permitted : CoordinatorAction → Prop} {count : Nat}
    (ledger : Ledger replicaCount asked s) (word : replicaCount < 2 ^ 64)
    (cursor : ∀ action, ByCursor action → permitted action) :
    CanAllocate (coordinator parser config replicaCount) permitted s count ↔
      s.replicas.length + count ≤ replicaCount := by
  constructor
  · rintro ⟨actions, t, -, execution, more⟩
    rw [← more]
    exact (ledger.run execution).length_le
  · intro room
    induction count generalizing s asked with
    | zero => exact ⟨[], s, nofun, rfl, rfl⟩
    | succ count ih =>
        obtain ⟨first, u, quiet, execution, one⟩ : ∃ actions t,
            (∀ action ∈ actions, ByCursor action) ∧
              (coordinator parser config replicaCount).run actions s = some t ∧
                t.replicas.length = s.replicas.length + 1 :=
          ledger.exists_allocation word (by omega)
        obtain ⟨rest, t, calls, remaining, others⟩ := ih (ledger.run execution) (by omega)
        refine ⟨first ++ rest, t, ?_, ?_, by omega⟩
        · intro action member
          obtain inside | inside := List.mem_append.mp member
          · exact cursor action (quiet action inside)
          · exact calls action inside
        · rw [Machine.run_append, execution, Option.bind_some, remaining]

/-! ### The promise of the two calls -/

/-- What allocation promises at one action of a run: no slot is handed out twice, an explicit
call gets its slot if that is free, `allocate_replica` gets a free slot if there is one, and
a failed call takes nothing away from the calls that follow. -/
structure Lawful (machine : Machine ListenerCoordinator CoordinatorAction) (replicaCount : Nat)
    (s : ListenerCoordinator) (action : CoordinatorAction) (t : ListenerCoordinator) :
    Prop where
  once : t.replicas.Nodup
  explicit : ∀ slot, action = .allocateReplicaAt slot →
    ((s.allocateReplicaAt slot).1 = .ok slot ↔ slot < replicaCount ∧ slot ∉ s.replicas)
  nextFree : ∀ slot, action = .allocateDrawn slot → (∃ free, Free replicaCount s free) →
    ∃ given, (s.allocateReplicaAt slot).1 = .ok given ∧ Free replicaCount s given
  full : ∀ slot message, action = .allocateDrawn slot →
    (s.allocateReplicaAt slot).1 = .error message → ∀ other < replicaCount, other ∈ s.replicas
  harmless : ∀ permitted : CoordinatorAction → Prop, (∀ other, ByCursor other → permitted other) →
    (action = .drawSlot ∨ ∃ slot message, action.asked = some slot ∧
      (s.allocateReplicaAt slot).1 = .error message) →
    ∀ count, CanAllocate machine permitted s count → CanAllocate machine permitted t count

/-- Whenever a call of `allocate_replica` asks for the slot that it drew, that slot is in range
and has not been asked for before, unless every slot has. -/
def Unclaimed (replicaCount : Nat) (actions : List CoordinatorAction) : Prop :=
  ∀ before slot after, actions = before ++ .allocateDrawn slot :: after →
    (slot < replicaCount ∧ slot ∉ asks before) ∨ ∀ other < replicaCount, other ∈ asks before

/-- A refused call leaves the slots handed out as they were. -/
theorem Ledger.replicas_of_error {slot : Nat} {message : String}
    (ledger : Ledger replicaCount asked s) (slotAsked : action.asked = some slot)
    (refused : (s.allocateReplicaAt slot).1 = .error message)
    (taken : CoordinatorStep config s action t) : t.replicas = s.replicas := by
  obtain ⟨-, state, given, -⟩ | ⟨-, _, same⟩ := ledger.allocateReplicaAt_cases slot
  · rw [given] at refused
    cases refused
  · cases taken with
    | allocateDrawn drawn free =>
        cases slotAsked
        rw [same]
    | allocateReplicaAt free =>
        cases slotAsked
        rw [same]
    | _ => cases slotAsked

/-- The call of `allocate_replica` that asks for a slot is lawful if the slot is free, or none is. -/
theorem Ledger.lawful_iff (ledger : Ledger replicaCount asked s) (word : replicaCount < 2 ^ 64)
    (taken : CoordinatorStep config s action t) :
    Lawful (coordinator parser config replicaCount) replicaCount s action t ↔
      ∀ slot, action = .allocateDrawn slot →
        (slot < replicaCount ∧ slot ∉ asked) ∨ ∀ other < replicaCount, other ∈ asked := by
  have unheld : ∀ slot < replicaCount, (slot ∉ s.replicas ↔ slot ∉ asked) := by
    intro slot known
    rw [ledger.handedOut]
    exact ⟨fun unmarked claimed => unmarked ⟨known, claimed⟩, fun fresh held => fresh held.2⟩
  constructor
  · intro lawful slot call
    obtain free | none := Classical.em (∃ free, Free replicaCount s free)
    · obtain ⟨given, success, -⟩ := lawful.nextFree slot call free
      obtain ⟨⟨known, fresh⟩, -⟩ | ⟨-, message, refused⟩ := ledger.allocateReplicaAt_cases slot
      · exact .inl ⟨known, (unheld slot known).mp fresh⟩
      · rw [refused] at success
        cases success
    · refine .inr fun other known => ?_
      by_contra fresh
      exact none ⟨other, known, (unheld other known).mpr fresh⟩
  · intro unclaimed
    refine ⟨(ledger.step taken).once, ?_, ?_, ?_, ?_⟩
    · rintro slot -
      obtain ⟨free, state, given, -⟩ | ⟨held, message, refused⟩ :=
        ledger.allocateReplicaAt_cases slot
      · rw [given]
        exact ⟨fun _ => free, fun _ => rfl⟩
      · rw [refused]
        exact ⟨nofun, fun free => absurd free held⟩
    · rintro slot call ⟨free, known, fresh⟩
      obtain ⟨inRange, unasked⟩ | all := unclaimed slot call
      · have available : Free replicaCount s slot := ⟨inRange, (unheld slot inRange).mpr unasked⟩
        obtain ⟨-, state, given, -⟩ | ⟨held, -⟩ := ledger.allocateReplicaAt_cases slot
        · exact ⟨slot, by rw [given], available⟩
        · exact absurd available held
      · exact absurd (all free known) ((unheld free known).mp fresh)
    · intro slot message call refused other known
      obtain ⟨inRange, unasked⟩ | all := unclaimed slot call
      · obtain ⟨-, state, given, -⟩ | ⟨held, -⟩ := ledger.allocateReplicaAt_cases slot
        · rw [given] at refused
          cases refused
        · exact absurd ⟨inRange, (unheld slot inRange).mpr unasked⟩ held
      · exact (ledger.handedOut other).mpr ⟨known, all other known⟩
    · intro permitted cursor failed count possible
      have same : t.replicas = s.replicas := by
        obtain rfl | ⟨slot, message, slotAsked, refused⟩ := failed
        · cases taken
          rfl
        · exact ledger.replicas_of_error slotAsked refused taken
      rw [(ledger.step taken).canAllocate_iff word cursor, same]
      exact (ledger.canAllocate_iff word cursor).mp possible

/-- Every action of a run keeps the promise of allocation, exactly if the cursor never comes to
a slot that has been asked for while another one is free. -/
theorem allocation_lawful_iff {actions : List CoordinatorAction} (word : replicaCount < 2 ^ 64)
    (bound : (coordinator parser config replicaCount).initial s)
    (execution : (coordinator parser config replicaCount).run actions s = some t) :
    (∀ before action after u v, actions = before ++ action :: after →
      (coordinator parser config replicaCount).run before s = some u →
      (coordinator parser config replicaCount).step u action = some v →
      Lawful (coordinator parser config replicaCount) replicaCount u action v) ↔
    Unclaimed replicaCount actions := by
  have ledger : Ledger replicaCount [] s := by
    rw [(of_bind bound).2.2]
    exact ledger_unallocated config replicaCount
  have reached : ∀ {before u}, (coordinator parser config replicaCount).run before s = some u →
      Ledger replicaCount (asks before) u := by
    intro before u prior
    have later := ledger.run prior
    rwa [List.nil_append] at later
  constructor
  · intro lawful before slot after split
    rw [split, Machine.run_append, Option.bind_eq_some_iff] at execution
    obtain ⟨u, prior, remaining⟩ := execution
    obtain ⟨v, transition, -⟩ := Machine.run_cons_iff.mp remaining
    have taken : CoordinatorStep config u (.allocateDrawn slot) v := .of_step transition
    exact ((reached prior).lawful_iff word taken).mp
      (lawful before _ after u v split prior transition) slot rfl
  · intro unclaimed before action after u v split prior transition
    have taken : CoordinatorStep config u action v := .of_step transition
    refine ((reached prior).lawful_iff word taken).mpr fun slot call => ?_
    subst call
    exact unclaimed before slot after split

/-- Two replicas, the first for the cursor and the second for an explicit call. -/
def drawThenExplicit : List CoordinatorAction :=
  [.drawSlot, .allocateDrawn 0, .allocateReplicaAt 1]

theorem allocation_lawful_drawThenExplicit :
    ∃ s t, Lawful (coordinator UriParser.pathOnly .default 2) 2 s (.allocateDrawn 0) t := by
  have bound : (coordinator UriParser.pathOnly .default 2).initial (unallocated .default 2) := rfl
  have outcome : ∃ t, (coordinator UriParser.pathOnly .default 2).run drawThenExplicit
      (unallocated .default 2) = some t := ⟨_, rfl⟩
  obtain ⟨t, execution⟩ := outcome
  refine ⟨_, _, (allocation_lawful_iff (by decide) bound execution).mpr ?_ [.drawSlot]
    (.allocateDrawn 0) [.allocateReplicaAt 1] _ _ rfl rfl rfl⟩
  intro before slot after split
  rcases before with _ | ⟨first, _ | ⟨second, _ | ⟨third, rest⟩⟩⟩
  · cases split
  · cases split
    exact .inl ⟨by decide, by decide⟩
  · cases split
  · simp [drawThenExplicit] at split

/-- Two replicas and slot 0 taken explicitly: `allocate_replica` draws slot 0 and fails, with
slot 1 free. -/
theorem cursor_meets_taken_slot :
    ∃ s t message, (coordinator UriParser.pathOnly .default 2).run
        [.allocateReplicaAt 0, .drawSlot] (unallocated .default 2) = some s ∧
      (coordinator UriParser.pathOnly .default 2).step s (.allocateDrawn 0) = some t ∧
      (s.allocateReplicaAt 0).1 = .error message ∧ Free 2 s 1 ∧
      ¬ Lawful (coordinator UriParser.pathOnly .default 2) 2 s (.allocateDrawn 0) t := by
  refine ⟨_, _, _, rfl, rfl, rfl, by decide, fun lawful => ?_⟩
  have held := lawful.full 0 _ rfl rfl 1 (by decide)
  revert held
  decide

end ListenerCoordinator

end Ingress
