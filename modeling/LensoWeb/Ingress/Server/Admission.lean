import LensoWeb.Ingress.Server.Budget

/-!
# Two-level admission of native requests

Both semaphores keep their permits over every interleaving, so the dispatches in
progress stay within both limits. The lane limits together cover the outer
budget, so enough pending requests on every lane can use all of it, and a
request that waits is never stuck behind requests that only wait.
-/

namespace Ingress

open Foundation Http

namespace RequestBudget

variable {n : Nat} {config : WebIngressConfig} {s t : RequestBudget n}

/-! ### Conservation -/

/-- Both levels account for all their permits. -/
structure Balanced (config : WebIngressConfig) (s : RequestBudget n) : Prop where
  global : s.global + s.globalHeld = config.maxConcurrentRequests
  lanes : ∀ lane, (s.lanes lane).available + s.localHeld lane = localRequestLimit config n

/-- A request moves on only to permits that are free or that it holds already. -/
structure Affordable (s : RequestBudget n) (lane : Fin n) (old new : RequestPhase) : Prop where
  global : new.globalPermits ≤ s.global + old.globalPermits
  lane : new.localPermits ≤ (s.lanes lane).available + old.localPermits

/-- Behind a free lane permit, the outer permit is taken only if it is free. -/
theorem affordable_behindLocal {lane : Fin n} {old : RequestPhase} (cancelled : Bool)
    (free : 1 ≤ (s.lanes lane).available + old.localPermits) :
    s.Affordable lane old (.behindLocal cancelled s.global) := by
  rw [RequestPhase.behindLocal, permitEntry]
  split_ifs with stopped empty
  · exact ⟨Nat.zero_le _, Nat.zero_le _⟩
  · exact ⟨Nat.zero_le _, free⟩
  · refine ⟨?_, free⟩
    simp only [RequestPhase.globalPermits]
    omega

theorem affordable_arrivalPhase (lane : Fin n) (headLen : Nat) :
    s.Affordable lane .ended (arrivalPhase config s lane headLen) := by
  rw [arrivalPhase]
  split
  · exact ⟨Nat.zero_le _, Nat.zero_le _⟩
  · rw [RequestPhase.arrival]
    by_cases free : 1 ≤ (s.lanes lane).available
    · split
      · exact ⟨Nat.zero_le _, Nat.zero_le _⟩
      · exact affordable_behindLocal _ (le_trans free (Nat.le_add_right _ _))
      · exact ⟨Nat.zero_le _, Nat.zero_le _⟩
    · rw [permitEntry, if_pos (by omega : (s.lanes lane).available = 0)]
      split_ifs <;> exact ⟨Nat.zero_le _, Nat.zero_le _⟩

theorem affordable_advance {request : LaneRequest n} {action : BudgetAction n}
    {phase : RequestPhase} (moved : s.advance request action = some phase) :
    s.Affordable request.lane request.phase phase := by
  cases action with
  | takeLocal index =>
      rw [advance] at moved
      split at moved
      · next possible =>
        cases moved
        exact affordable_behindLocal _ (by omega)
      · cases moved
  | takeGlobal index =>
      rw [advance] at moved
      split at moved
      · next possible =>
        cases moved
        refine ⟨?_, ?_⟩
        · simp only [RequestPhase.globalPermits]
          omega
        · rw [possible.1]
          exact Nat.le_add_left _ _
      · cases moved
  | giveUp index =>
      rw [advance] at moved
      split at moved
      · cases moved
        exact ⟨Nat.zero_le _, Nat.zero_le _⟩
      · cases moved
  | finish index =>
      rw [advance] at moved
      split at moved
      · cases moved
        exact ⟨Nat.zero_le _, Nat.zero_le _⟩
      · cases moved
  | drop index =>
      rw [advance] at moved
      split at moved
      · cases moved
      · cases moved
        exact ⟨Nat.zero_le _, Nat.zero_le _⟩
  | arrive lane headLen => cases moved
  | cancel lane => cases moved

theorem move_eq_some {index : Nat} {action : BudgetAction n} (moved : s.move index action = some t) :
    ∃ request phase, s.requests[index]? = some request ∧
      s.advance request action = some phase ∧
      t = { s.charge request.lane request.phase phase with
        requests := s.requests.set index { request with phase } } := by
  simp only [move, Option.bind_eq_bind, Option.bind_eq_some_iff, Option.pure_def,
    Option.some.injEq] at moved
  obtain ⟨request, present, phase, advanced, rfl⟩ := moved
  exact ⟨request, phase, present, advanced, rfl⟩

/-- A request moves on, in its place or as a new one. -/
theorem Balanced.charge (prior : Balanced config s) {lane : Fin n} {old new : RequestPhase}
    (affordable : s.Affordable lane old new) {requests : List (LaneRequest n)}
    (moved : ∀ weight : LaneRequest n → Nat, weight ⟨lane, .ended⟩ = 0 →
      census weight requests + weight ⟨lane, old⟩ =
        census weight s.requests + weight ⟨lane, new⟩) :
    Balanced config { s.charge lane old new with requests := requests } := by
  refine ⟨?_, fun other => ?_⟩
  · have held : census (fun request => request.phase.globalPermits) requests + old.globalPermits =
        s.globalHeld + new.globalPermits := moved (fun request => request.phase.globalPermits) rfl
    have before := prior.global
    have enough := affordable.global
    simp only [RequestBudget.charge, globalHeld]
    omega
  · have held : census (fun request => if request.lane = other then request.phase.localPermits
        else 0) requests + (if lane = other then old.localPermits else 0) =
        s.localHeld other + (if lane = other then new.localPermits else 0) :=
      moved (fun request => if request.lane = other then request.phase.localPermits else 0)
        (ite_self 0)
    have before := prior.lanes other
    have enough := affordable.lane
    simp only [RequestBudget.charge, localHeld]
    by_cases same : lane = other
    · subst same
      rw [if_pos rfl, if_pos rfl] at held
      rw [Function.update_self]
      dsimp only
      omega
    · rw [if_neg same, if_neg same] at held
      rw [Function.update_of_ne (Ne.symm same)]
      omega

theorem Balanced.move (prior : Balanced config s) {index : Nat} {action : BudgetAction n}
    (moved : s.move index action = some t) : Balanced config t := by
  obtain ⟨request, phase, present, advanced, rfl⟩ := move_eq_some moved
  exact prior.charge (affordable_advance advanced) fun weight _ =>
    census_set weight present { request with phase }

theorem Balanced.step (prior : Balanced config s) {action : BudgetAction n}
    (transition : step config s action = some t) : Balanced config t := by
  cases action with
  | arrive lane headLen =>
      cases transition
      refine prior.charge (affordable_arrivalPhase lane headLen) fun weight nothing => ?_
      rw [census_append, census_cons, census_nil, nothing]
      rfl
  | cancel lane =>
      cases transition
      refine ⟨prior.global, fun other => ?_⟩
      have before := prior.lanes other
      by_cases same : other = lane
      · subst same
        simpa [localHeld] using before
      · simpa [localHeld, Function.update_of_ne same] using before
  | takeLocal index => exact prior.move transition
  | takeGlobal index => exact prior.move transition
  | giveUp index => exact prior.move transition
  | finish index => exact prior.move transition
  | drop index => exact prior.move transition

theorem balanced_of_reachable (reached : (machine config n).Reachable s) : Balanced config s := by
  refine reached.invariant ?_ fun s action t _ prior transition => prior.step transition
  rintro s rfl
  exact ⟨rfl, fun _ => rfl⟩

/-! ### Limits -/

theorem globalHeld_eq_inProgress (s : RequestBudget n) : s.globalHeld = s.inProgress := by
  rw [globalHeld, inProgress]
  congr 1
  funext request
  obtain ⟨lane, phase⟩ := request
  cases phase <;> rfl

/-- A dispatch holds a permit of its lane. -/
theorem inProgressOn_le_localHeld (s : RequestBudget n) (lane : Fin n) :
    s.inProgressOn lane ≤ s.localHeld lane := by
  refine census_le fun request _ => ?_
  obtain ⟨other, phase⟩ := request
  cases phase <;> by_cases same : other = lane <;>
    simp [RequestPhase.localPermits, same]

/-- Every dispatch is on one lane. -/
theorem sum_inProgressOn (s : RequestBudget n) : ∑ lane, s.inProgressOn lane = s.inProgress := by
  simp only [inProgressOn, inProgress]
  rw [← census_sum]
  congr 1
  funext request
  by_cases dispatching : request.phase = .dispatching <;> simp [dispatching]

/-! ### Progress -/

/-- A request that waits for an outer permit takes a free one. -/
theorem step_takeGlobal {index : Nat} {lane : Fin n}
    (present : s.requests[index]? = some ⟨lane, .waitingGlobal⟩) (free : s.global ≠ 0) :
    step config s (.takeGlobal index) = some
      { s.charge lane .waitingGlobal .dispatching with
        requests := s.requests.set index ⟨lane, .dispatching⟩ } := by
  simp [step, move, present, advance, free]

/-- A request that waits for a permit of its lane takes a free one. -/
theorem step_takeLocal {index : Nat} {lane : Fin n}
    (present : s.requests[index]? = some ⟨lane, .waitingLocal⟩)
    (free : (s.lanes lane).available ≠ 0) :
    step config s (.takeLocal index) = some
      { s.charge lane .waitingLocal (.behindLocal (s.lanes lane).cancelled s.global) with
        requests := s.requests.set index
          ⟨lane, .behindLocal (s.lanes lane).cancelled s.global⟩ } := by
  simp [step, move, present, advance, free]

/-- The request that gets its dispatch. -/
def dispatched (s : RequestBudget n) (index : Nat) (lane : Fin n) (old : RequestPhase) :
    RequestBudget n :=
  { s.charge lane old .dispatching with
    requests := s.requests.set index ⟨lane, .dispatching⟩ }

/-- If a lane holds more permits than it has dispatches, a request of the lane waits for
the outer permit. -/
theorem exists_waitingGlobal {lane : Fin n} (more : s.inProgressOn lane < s.localHeld lane) :
    ∃ index : Nat, s.requests[index]? = some ⟨lane, .waitingGlobal⟩ := by
  obtain ⟨index, ⟨other, phase⟩, present, holds⟩ := exists_of_census_lt more
  refine ⟨index, ?_⟩
  by_cases same : other = lane
  · subst same
    cases phase with
    | waitingGlobal => exact present
    | waitingLocal => simp [RequestPhase.localPermits] at holds
    | dispatching => simp [RequestPhase.localPermits] at holds
    | ended => simp [RequestPhase.localPermits] at holds
  · simp [same] at holds

/-- On a lane with room for another dispatch, a request that waits lets some request of
the lane take its next permit, which is the last one unless the lane is cancelled. -/
theorem exists_take (balanced : Balanced config s) (free : s.global ≠ 0) {lane : Fin n}
    (room : s.inProgressOn lane < localRequestLimit config n) {index : Nat} {phase : RequestPhase}
    (present : s.requests[index]? = some ⟨lane, phase⟩) (waiting : phase.waiting = true) :
    ∃ (index : Nat) (old : RequestPhase) (t : RequestBudget n),
      s.requests[index]? = some ⟨lane, old⟩ ∧ old.waiting = true ∧
      (step config s (.takeLocal index) = some t ∨ step config s (.takeGlobal index) = some t) ∧
      ((s.lanes lane).cancelled = false → t = s.dispatched index lane old) := by
  have outer : ∀ index : Nat, s.requests[index]? = some ⟨lane, .waitingGlobal⟩ →
      ∃ (index : Nat) (old : RequestPhase) (t : RequestBudget n),
        s.requests[index]? = some ⟨lane, old⟩ ∧ old.waiting = true ∧
        (step config s (.takeLocal index) = some t ∨ step config s (.takeGlobal index) = some t) ∧
        ((s.lanes lane).cancelled = false → t = s.dispatched index lane old) :=
    fun index found => ⟨index, .waitingGlobal, _, found, rfl, .inr (step_takeGlobal found free),
      fun _ => rfl⟩
  cases phase with
  | waitingGlobal => exact outer index present
  | waitingLocal =>
      by_cases empty : (s.lanes lane).available = 0
      · -- All permits of the lane are held, and not all of them by dispatches.
        have full := balanced.lanes lane
        have more : s.inProgressOn lane < s.localHeld lane := by omega
        obtain ⟨index, found⟩ := exists_waitingGlobal more
        exact outer index found
      · refine ⟨index, .waitingLocal, _, present, rfl, .inl (step_takeLocal present empty), ?_⟩
        intro running
        rw [running, RequestPhase.behindLocal, permitEntry, if_neg (by simp), if_neg free]
        rfl
  | dispatching => cases waiting
  | ended => cases waiting

/-- The lane limits together cover the outer budget. -/
theorem covers (config : WebIngressConfig) (positive : 1 ≤ n) :
    config.maxConcurrentRequests ≤ n * localRequestLimit config n := by
  rw [localRequestLimit, ← smul_eq_mul]
  exact le_smul_ceilDiv positive

/-- As long as an outer permit is free, some lane has room. -/
theorem exists_room (balanced : Balanced config s) (positive : 1 ≤ n) (free : s.global ≠ 0) :
    ∃ lane, s.inProgressOn lane < localRequestLimit config n := by
  by_contra! full
  have most := Finset.sum_le_sum fun lane (_ : lane ∈ Finset.univ) => full lane
  rw [sum_inProgressOn, Finset.sum_const, Finset.card_univ, Fintype.card_fin, smul_eq_mul] at most
  have used := balanced.global
  rw [globalHeld_eq_inProgress] at used
  have covered := covers (n := n) config positive
  omega

/-- A dispatch keeps a request pending that was. -/
theorem pendingOn_dispatched {index : Nat} {lane : Fin n} {old : RequestPhase}
    (present : s.requests[index]? = some ⟨lane, old⟩) (other : Fin n) :
    s.pendingOn other ≤ (s.dispatched index lane old).pendingOn other := by
  have tokens : ∀ other, ((s.dispatched index lane old).lanes other).cancelled =
      (s.lanes other).cancelled := by
    intro other
    by_cases same : other = lane
    · subst same
      simp [dispatched, charge]
    · simp [dispatched, charge, Function.update_of_ne same]
  have more : (LaneRequest.mk lane old).pending other (s.lanes other).cancelled ≤
      (LaneRequest.mk lane .dispatching).pending other (s.lanes other).cancelled := by
    by_cases same : lane = other
    · simp only [LaneRequest.pending, same, true_and, true_or, if_true]
      split_ifs <;> omega
    · simp only [LaneRequest.pending, same, false_and, if_false, le_refl]
  have moved := census_set (fun request : LaneRequest n =>
    request.pending other (s.lanes other).cancelled) present ⟨lane, .dispatching⟩
  rw [pendingOn, pendingOn, tokens]
  simp only [dispatched]
  omega

/-- A request that is pending and not in progress waits, and its lane is running. -/
theorem waiting_of_pending {request : LaneRequest n} {lane : Fin n}
    {cancelled : Bool}
    (more : (if request.lane = lane ∧ request.phase = .dispatching then 1 else 0) <
      request.pending lane cancelled) :
    request.lane = lane ∧ request.phase.waiting = true ∧ cancelled = false := by
  rw [LaneRequest.pending] at more
  by_cases pending : request.lane = lane ∧ (request.phase = .dispatching ∨
      (request.phase.waiting = true ∧ cancelled = false))
  · obtain ⟨same, serving | ⟨waiting, running⟩⟩ := pending
    · simp [same, serving] at more
    · exact ⟨same, waiting, running⟩
  · rw [if_neg pending] at more
    cases Nat.not_lt_zero _ more

/-- With enough pending requests on every lane, a free outer permit can be used. -/
theorem exists_dispatch (balanced : Balanced config s) (positive : 1 ≤ n)
    (pending : ∀ lane, localRequestLimit config n ≤ s.pendingOn lane) (free : s.global ≠ 0) :
    ∃ action t, step config s action = some t ∧ t.global + 1 = s.global ∧
      ∀ lane, localRequestLimit config n ≤ t.pendingOn lane := by
  obtain ⟨lane, room⟩ := exists_room balanced positive free
  obtain ⟨index, ⟨other, phase⟩, present, waits⟩ :=
    exists_of_census_lt (lt_of_lt_of_le room (pending lane))
  obtain ⟨rfl, waiting, running⟩ := waiting_of_pending waits
  obtain ⟨taker, old, t, found, waited, taken, dispatching⟩ :=
    exists_take balanced free room present waiting
  obtain rfl := dispatching running
  have granted : (s.dispatched taker other old).global + 1 = s.global := by
    have nothing : old.globalPermits = 0 := by
      cases old <;> first | rfl | cases waited
    show s.global + old.globalPermits - 1 + 1 = s.global
    omega
  have kept : ∀ lane, localRequestLimit config n ≤
      (s.dispatched taker other old).pendingOn lane :=
    fun lane => le_trans (pending lane) (pendingOn_dispatched found lane)
  obtain taken | taken := taken
  · exact ⟨_, _, taken, granted, kept⟩
  · exact ⟨_, _, taken, granted, kept⟩

/-- With enough pending requests on every lane, the whole budget can be used. -/
theorem exists_full (positive : 1 ≤ n) (balanced : Balanced config s)
    (pending : ∀ lane, localRequestLimit config n ≤ s.pendingOn lane) :
    ∃ actions t, (machine config n).run actions s = some t ∧ t.global = 0 ∧ Balanced config t := by
  generalize free : s.global = permits
  induction permits generalizing s with
  | zero => exact ⟨[], s, rfl, free, balanced⟩
  | succ permits ih =>
      obtain ⟨action, t, taken, granted, kept⟩ :=
        exists_dispatch balanced positive pending (by omega)
      obtain ⟨actions, last, run, full, balanced⟩ := ih (balanced.step taken) kept (by omega)
      exact ⟨action :: actions, last, Machine.run_cons_iff.mpr ⟨t, taken, run⟩, full, balanced⟩

/-- Without dispatches, a request that waits is not stuck. -/
theorem exists_next (balanced : Balanced config s) (positive : 1 ≤ n)
    (budget : 1 ≤ config.maxConcurrentRequests) (idle : s.inProgress = 0) {index : Nat}
    {request : LaneRequest n} (present : s.requests[index]? = some request)
    (waiting : request.phase.waiting = true) :
    ∃ index, (step config s (.takeLocal index)).isSome = true ∨
      (step config s (.takeGlobal index)).isSome = true := by
  have used := balanced.global
  rw [globalHeld_eq_inProgress, idle] at used
  have quiet : s.inProgressOn request.lane = 0 := by
    have all := Finset.single_le_sum (f := s.inProgressOn) (fun _ _ => Nat.zero_le _)
      (Finset.mem_univ request.lane)
    rw [sum_inProgressOn, idle] at all
    exact Nat.le_zero.mp all
  have room : s.inProgressOn request.lane < localRequestLimit config n := by
    have covered := covers (n := n) config positive
    rw [quiet]
    exact Nat.pos_of_ne_zero fun none => by
      rw [none] at covered
      omega
  obtain ⟨taker, old, t, -, -, taken, -⟩ :=
    exists_take balanced (by omega) room present waiting
  refine ⟨taker, ?_⟩
  obtain taken | taken := taken
  · exact .inl (by rw [taken]; rfl)
  · exact .inr (by rw [taken]; rfl)

/-! ### The budget -/

/-- A request that ends while it waits for the outer permit returns the lane permit. -/
theorem lane_returned {index : Nat} {lane : Fin n} {action : BudgetAction n}
    (present : s.requests[index]? = some ⟨lane, .waitingGlobal⟩)
    (ends : s.advance ⟨lane, .waitingGlobal⟩ action = some .ended) :
    ∃ t, s.move index action = some t ∧
      (t.lanes lane).available = (s.lanes lane).available + 1 := by
  refine ⟨{ s.charge lane .waitingGlobal .ended with
    requests := s.requests.set index ⟨lane, .ended⟩ }, ?_, ?_⟩
  · simp [move, present, ends]
  · simp [charge, RequestPhase.localPermits]

/-- Over every interleaving on any number of lanes: the dispatches stay within the outer
budget and within the limit of each lane; both levels account for all permits, also
those of a request that ends between the two levels; pending requests can use the
whole budget; and a request that waits is never stuck. -/
theorem request_budget {parser : UriParser} {config : WebIngressConfig}
    (valid : config.validate parser = .ok ()) {n : Nat} (positive : 1 ≤ n) {s : RequestBudget n}
    (reached : (machine config n).Reachable s) :
    s.inProgress ≤ config.maxConcurrentRequests ∧
    (∀ lane, s.inProgressOn lane ≤ config.maxConcurrentRequests ⌈/⌉ n) ∧
    s.global + s.globalHeld = config.maxConcurrentRequests ∧
    (∀ lane, (s.lanes lane).available + s.localHeld lane = config.maxConcurrentRequests ⌈/⌉ n) ∧
    (∀ (index : Nat) (lane : Fin n), s.requests[index]? = some ⟨lane, .waitingGlobal⟩ →
      (∃ t, step config s (.drop index) = some t ∧
        (t.lanes lane).available = (s.lanes lane).available + 1) ∧
      ((s.lanes lane).cancelled = true → ∃ t, step config s (.giveUp index) = some t ∧
        (t.lanes lane).available = (s.lanes lane).available + 1)) ∧
    ((∀ lane, config.maxConcurrentRequests ⌈/⌉ n ≤ s.pendingOn lane) →
      ∃ actions t, (machine config n).run actions s = some t ∧ t.global = 0 ∧
        t.globalHeld = config.maxConcurrentRequests ∧
        t.inProgress = config.maxConcurrentRequests) ∧
    (∀ (index : Nat) (request : LaneRequest n), s.requests[index]? = some request →
      request.phase.waiting = true →
      0 < s.inProgress ∨ ∃ index, (step config s (.takeLocal index)).isSome = true ∨
        (step config s (.takeGlobal index)).isSome = true) := by
  have balanced := balanced_of_reachable reached
  have global := balanced.global
  refine ⟨?_, ?_, global, balanced.lanes, ?_, ?_, ?_⟩
  · rw [← globalHeld_eq_inProgress]
    omega
  · intro lane
    have held := balanced.lanes lane
    have within := s.inProgressOn_le_localHeld lane
    rw [localRequestLimit] at held
    omega
  · intro index lane present
    refine ⟨lane_returned present rfl, fun cancelled => lane_returned present ?_⟩
    rw [advance, if_pos ⟨rfl, cancelled⟩]
  · intro pending
    obtain ⟨actions, t, run, full, last⟩ := exists_full positive balanced pending
    have used := last.global
    rw [full, Nat.zero_add] at used
    exact ⟨actions, t, run, full, used, by rw [← globalHeld_eq_inProgress, used]⟩
  · intro index request present waiting
    obtain ⟨-, -, budget, -⟩ := WebIngressConfig.of_validate valid
    obtain idle | busy := Nat.eq_zero_or_pos s.inProgress
    · exact .inr (exists_next balanced positive budget idle present waiting)
    · exact .inl busy

/-- A budget of one request. -/
def singleRequest : WebIngressConfig := { WebIngressConfig.default with maxConcurrentRequests := 1 }

/-- On two lanes with a budget of one, the second request waits with its lane permit. -/
theorem request_budget_contended :
    ∃ s : RequestBudget 2, (machine singleRequest 2).Reachable s ∧
      s.requests[1]? = some ⟨1, .waitingGlobal⟩ ∧ s.inProgress = 1 ∧
      ∃ t, step singleRequest s (.drop 1) = some t ∧
        (t.lanes 1).available = (s.lanes 1).available + 1 := by
  let start : RequestBudget 2 := ⟨1, fun _ => ⟨1, false⟩, []⟩
  let s : RequestBudget 2 :=
    { (start.charge 0 .ended .dispatching).charge 1 .ended .waitingGlobal with
      requests := [⟨0, .dispatching⟩, ⟨1, .waitingGlobal⟩] }
  have reached : (machine singleRequest 2).Reachable s :=
    ⟨start, [.arrive 0 0, .arrive 1 0], rfl, rfl⟩
  have valid : singleRequest.validate .pathOnly = .ok () := rfl
  have budget := request_budget valid (by decide) reached
  exact ⟨s, reached, rfl, rfl, (budget.2.2.2.2.1 1 1 rfl).1⟩

end RequestBudget

end Ingress
