import LensoWeb.Foundation.Census
import LensoWeb.Foundation.Transition
import LensoWeb.Ingress.Server.Activity

/-!
# The idle watchdog

A connection's counter and its watchdog under any order of requests, with the lives of
all guards on record. The loop head of `wait_for_connection_idle` and the check behind
its sleep are two steps, since each reads the clock; requests may begin and end between
any two steps. When the wait returns, no guard has lived during the timeout before.

Instants are counted from any origin in any unit.
-/

namespace Ingress

open Foundation

/-- The life of an `ActiveRequest`. -/
structure ActiveRequest where
  begun : Nat
  dropped : Option Nat
deriving DecidableEq

namespace ActiveRequest

/-- The guard has not been dropped. -/
def isLive (guard : ActiveRequest) : Nat := guard.dropped.isNone.toNat

/-- The guard lives at the instant; its first and its last instant count. -/
def AliveAt (guard : ActiveRequest) (instant : Nat) : Prop :=
  guard.begun ≤ instant ∧ ∀ last, guard.dropped = some last → instant ≤ last

end ActiveRequest

/-- Where `wait_for_connection_idle` has got: at the head of its loop, asleep, or done. -/
inductive IdleWait where
  | looping
  | sleeping (deadline : Nat)
  | returned
deriving DecidableEq

/-- A connection as its watchdog sees it, with every guard it ever handed out. -/
structure Watch where
  clock : Nat
  created : Nat
  activity : ConnectionActivity
  wait : IdleWait
  guards : List ActiveRequest
deriving DecidableEq

inductive WatchAction where
  | begin
  | drop (index : Nat)
  | tick (elapsed : Nat)
  | arm
  | wake
deriving DecidableEq

namespace Watch

/-- The guards that have not been dropped. -/
def live (s : Watch) : Nat := census ActiveRequest.isLive s.guards

/-- `ConnectionActivity::begin`, and the guard it returns. -/
def begin (s : Watch) : Watch :=
  { s with activity := s.activity.begin, guards := s.guards ++ [⟨s.clock, none⟩] }

/-- The drop of the guard. -/
def drop (s : Watch) (index begun : Nat) : Watch :=
  { s with
    activity := s.activity.release s.clock
    guards := s.guards.set index ⟨begun, some s.clock⟩ }

/-- The check of `wait_for_connection_idle` behind its sleep. -/
def wake (s : Watch) (timeout : Nat) : Watch :=
  { s with wait := if s.activity.expired timeout s.clock then .returned else .looping }

def step (timeout : Nat) (s : Watch) : WatchAction → Option Watch
  | .begin =>
      -- Each guard holds a reference beside the connection's own, and their count is a
      -- `usize`: the process aborts before it overflows.
      if 2 ^ 64 - 1 ≤ s.live + 1 then none else some s.begin
  | .drop index =>
      match s.guards[index]? with
      | some ⟨begun, none⟩ => some (s.drop index begun)
      | _ => none
  | .tick elapsed => some { s with clock := s.clock + elapsed }
  | .arm =>
      match s.wait with
      | .looping => some { s with wait := .sleeping (s.activity.deadline timeout s.clock) }
      | _ => none
  | .wake =>
      match s.wait with
      | .sleeping deadline => if deadline ≤ s.clock then some (s.wake timeout) else none
      | _ => none

/-- `ConnectionActivity::new` at some instant, before the first poll of the wait. -/
def start (clock : Nat) : Watch := ⟨clock, clock, ⟨0, clock⟩, .looping, []⟩

def machine (timeout : Nat) : Machine Watch WatchAction where
  initial s := ∃ clock, s = start clock
  step := step timeout

/-! ### The invariant -/

/-- The counter counts the live guards, and the connection is not idle since before a
guard was dropped. -/
structure Tracked (s : Watch) : Prop where
  counted : s.activity.activeRequests = s.live
  bounded : s.live < 2 ^ 64 - 1
  created : s.created ≤ s.activity.idleSince
  elapsed : s.activity.idleSince ≤ s.clock
  past : ∀ guard ∈ s.guards, ∀ last, guard.dropped = some last → last ≤ s.clock
  idle : s.live = 0 → ∀ guard ∈ s.guards, ∀ last, guard.dropped = some last →
    last ≤ s.activity.idleSince

theorem tracked_start (clock : Nat) : (start clock).Tracked :=
  ⟨rfl, Nat.sub_pos_of_lt (Nat.one_lt_two_pow (by decide)), le_rfl, le_rfl, nofun, fun _ => nofun⟩

namespace Tracked

variable {s : Watch} {timeout index begun : Nat}

theorem begin (tracked : s.Tracked) (room : s.live + 1 < 2 ^ 64 - 1) : s.begin.Tracked := by
  have live : s.begin.live = s.live + 1 := census_append _ _ _
  have counted := tracked.counted
  refine ⟨?_, by omega, tracked.created, tracked.elapsed, ?_, ?_⟩
  · show min (s.activity.activeRequests + 1) (2 ^ 64 - 1) = _
    omega
  · intro guard member last dropped
    obtain earlier | new := List.mem_append.mp member
    · exact tracked.past guard earlier last dropped
    · rw [List.mem_singleton.mp new] at dropped
      cases dropped
  · intro none
    omega

/-- A dropped guard was counted. -/
theorem live_drop (present : s.guards[index]? = some ⟨begun, none⟩) :
    (s.drop index begun).live + 1 = s.live :=
  census_set ActiveRequest.isLive present ⟨begun, some s.clock⟩

theorem drop (tracked : s.Tracked) (present : s.guards[index]? = some ⟨begun, none⟩) :
    (s.drop index begun).Tracked := by
  have live := live_drop present
  have counted := tracked.counted
  have bounded := tracked.bounded
  have remaining : (s.drop index begun).activity.activeRequests = s.live - 1 := by
    show s.activity.activeRequests - 1 = _
    rw [counted]
  -- The idle time begins anew exactly when no other guard is left.
  have since : (s.drop index begun).activity.idleSince =
      if s.live - 1 = 0 then s.clock else s.activity.idleSince := by
    show (if s.activity.activeRequests - 1 = 0 then s.clock else s.activity.idleSince) = _
    rw [counted]
  have past : ∀ guard ∈ (s.drop index begun).guards, ∀ last, guard.dropped = some last →
      last ≤ s.clock := by
    intro guard member last dropped
    obtain other | rfl := List.mem_or_eq_of_mem_set member
    · exact tracked.past guard other last dropped
    · cases dropped
      exact le_rfl
  refine ⟨by omega, by omega, ?_, ?_, past, ?_⟩
  · rw [since]
    split
    · exact tracked.created.trans tracked.elapsed
    · exact tracked.created
  · rw [since]
    split
    · exact le_rfl
    · exact tracked.elapsed
  · intro none guard member last dropped
    rw [since, if_pos (by omega)]
    exact past guard member last dropped

theorem tick (tracked : s.Tracked) (elapsed : Nat) :
    Tracked { s with clock := s.clock + elapsed } :=
  { tracked with
    elapsed := tracked.elapsed.trans (Nat.le_add_right _ _)
    past := fun guard member last dropped =>
      (tracked.past guard member last dropped).trans (Nat.le_add_right _ _) }

/-- The watchdog only looks. -/
theorem waits (tracked : s.Tracked) (wait : IdleWait) : Tracked { s with wait := wait } :=
  { tracked with }

/-- Every step keeps the invariant. -/
theorem step {t : Watch} {action : WatchAction} (tracked : s.Tracked)
    (transition : Watch.step timeout s action = some t) : t.Tracked := by
  cases action with
  | begin =>
      rw [Watch.step] at transition
      split at transition
      · cases transition
      · next room =>
        cases transition
        exact tracked.begin (Nat.not_le.mp room)
  | drop index =>
      rw [Watch.step] at transition
      split at transition
      · next begun present =>
        cases transition
        exact tracked.drop present
      · cases transition
  | tick elapsed =>
      cases transition
      exact tracked.tick elapsed
  | arm =>
      rw [Watch.step] at transition
      split at transition
      · cases transition
        exact tracked.waits _
      · cases transition
  | wake =>
      rw [Watch.step] at transition
      split at transition
      · split at transition
        · cases transition
          exact tracked.waits _
        · cases transition
      · cases transition

end Tracked

section Runs

variable {timeout : Nat} {s t : Watch}

theorem tracked_of_reachable (reached : (machine timeout).Reachable s) : s.Tracked := by
  refine reached.invariant ?_ fun _ _ _ _ prior transition => prior.step transition
  rintro _ ⟨clock, rfl⟩
  exact tracked_start clock

/-! ### The return of the wait -/

/-- The wait returns only behind a whole timeout of idleness. -/
theorem returned_iff (transition : step timeout s .wake = some t) :
    t.wait = .returned ↔
      s.activity.activeRequests = 0 ∧ timeout ≤ s.clock - s.activity.idleSince := by
  rw [step] at transition
  split at transition
  · split at transition
    · cases transition
      rw [wake]
      dsimp only
      split
      · next idle =>
        rw [ConnectionActivity.expired, Bool.and_eq_true, beq_iff_eq, decide_eq_true_eq] at idle
        exact iff_of_true rfl idle
      · next busy =>
        rw [ConnectionActivity.expired, Bool.and_eq_true, beq_iff_eq, decide_eq_true_eq] at busy
        exact iff_of_false nofun busy
    · cases transition
  · cases transition

/-- The check changes nothing but the wait. -/
theorem wake_frame (transition : step timeout s .wake = some t) :
    t.clock = s.clock ∧ t.created = s.created ∧ t.guards = s.guards := by
  rw [step] at transition
  split at transition
  · split at transition
    · cases transition
      exact ⟨rfl, rfl, rfl⟩
    · cases transition
  · cases transition

/-- Without live guards, every guard has been dropped. -/
theorem dropped_of_live_eq_zero (none : s.live = 0) {guard : ActiveRequest}
    (member : guard ∈ s.guards) : ∃ last, guard.dropped = some last := by
  obtain ⟨index, present⟩ := List.mem_iff_getElem?.mp member
  have weight := weight_le_census ActiveRequest.isLive present
  change _ ≤ s.live at weight
  rw [none, ActiveRequest.isLive, Nat.le_zero, Bool.toNat_eq_zero] at weight
  exact Option.isSome_iff_exists.mp (Option.isNone_eq_false_iff.mp weight)

/-- When the wait returns, the connection was created and every guard was dropped a timeout ago. -/
theorem dropped_of_returned (tracked : s.Tracked) (transition : step timeout s .wake = some t)
    (returned : t.wait = .returned) :
    t.created + timeout ≤ t.clock ∧
      ∀ guard ∈ t.guards, ∃ last, guard.dropped = some last ∧ last + timeout ≤ t.clock := by
  obtain ⟨idle, silent⟩ := (returned_iff transition).mp returned
  obtain ⟨clock, created, guards⟩ := wake_frame transition
  have none : s.live = 0 := tracked.counted.symm.trans idle
  have elapsed := tracked.elapsed
  have since := tracked.created
  rw [clock, created, guards]
  refine ⟨by omega, fun guard member => ?_⟩
  obtain ⟨last, dropped⟩ := dropped_of_live_eq_zero none member
  have before := tracked.idle none guard member last dropped
  exact ⟨last, dropped, by omega⟩

/-- In every state that a connection can reach, the counter counts the live guards and a
drop finds its guard counted; and when the wait returns, no guard has lived at an instant
of the timeout before, nor was the connection created or a guard dropped in it. -/
theorem idle_return_exact (reached : (machine timeout).Reachable s) :
    (s.activity.activeRequests = s.live ∧ s.live < 2 ^ 64 - 1) ∧
    (∀ index t, step timeout s (.drop index) = some t →
      t.activity.activeRequests + 1 = s.activity.activeRequests) ∧
    ∀ t, step timeout s .wake = some t → t.wait = .returned →
      (∀ guard ∈ t.guards, ∀ instant, t.clock < instant + timeout → instant ≤ t.clock →
        ¬ guard.AliveAt instant) ∧
      t.created + timeout ≤ t.clock ∧
      ∀ guard ∈ t.guards, ∃ last, guard.dropped = some last ∧ last + timeout ≤ t.clock := by
  have tracked := tracked_of_reachable reached
  refine ⟨⟨tracked.counted, tracked.bounded⟩, ?_, ?_⟩
  · intro index t transition
    have counted := (tracked.step transition).counted
    rw [step] at transition
    split at transition
    · next begun present =>
      cases transition
      rw [counted, tracked.counted]
      exact Tracked.live_drop present
    · cases transition
  · intro t transition returned
    obtain ⟨created, ended⟩ := dropped_of_returned tracked transition returned
    refine ⟨?_, created, ended⟩
    rintro guard member instant inside - ⟨-, within⟩
    obtain ⟨last, dropped, before⟩ := ended guard member
    have alive := within last dropped
    omega

/-- Two overlapping requests between the first two wake-ups. -/
def overlapping : List WatchAction :=
  [.arm, .begin, .tick 3, .begin, .drop 0, .tick 4, .drop 1, .tick 3, .wake, .arm, .tick 7]

def overlapped : Watch := ⟨17, 0, ⟨0, 7⟩, .sleeping 17, [⟨0, some 3⟩, ⟨3, some 7⟩]⟩

theorem idle_return_overlapping :
    (machine 10).run overlapping (start 0) = some overlapped ∧
      step 10 overlapped .wake = some (overlapped.wake 10) ∧
      (overlapped.wake 10).wait = .returned ∧
      ∀ guard ∈ overlapped.guards, ∀ instant, 17 < instant + 10 → instant ≤ 17 →
        ¬ guard.AliveAt instant := by
  have execution : (machine 10).run overlapping (start 0) = some overlapped := by decide +kernel
  obtain ⟨-, -, silent⟩ := idle_return_exact ⟨_, _, ⟨0, rfl⟩, execution⟩
  have transition : step 10 overlapped .wake = some (overlapped.wake 10) := by decide +kernel
  have returned : (overlapped.wake 10).wait = .returned := by decide +kernel
  exact ⟨execution, transition, returned, (silent _ transition returned).1⟩

end Runs

end Watch

end Ingress
