import LensoWeb.Egress.Workers
import LensoWeb.Foundation.Transition

/-!
# The Fetch bridge, step by step

`eventHttpFetch` runs between its awaits without interruption. What can happen in
between is an action here: the promise of `fetch` or of a read settles, the timer
fires, the caller aborts, or the awaiting function resumes because its race is
decided. A run is any list of such actions.

Two promises take part in every race, the host's own and `interrupted`, and the one
that settles first decides it; where both have settled before the race is made, the
host's own wins, because it is listed first. Fetch answers the abort signal with a
rejection or not at all, and an error of the host has no `code`. The chunks are those
that the reads deliver: a reader that is cancelled may end before its stream.

`Settles` is what a run may leave behind, and `undisturbed` connects the machine with
the function `collectResponse`, which describes the exchange without any interruption.
-/

namespace Egress

open Foundation Http

namespace EventFetch

/-- What a `throw` carries: its code, if it has one. -/
abbrev Thrown := Option FailureCode

/-- What is awaited: undecided, lost, or won by the host's own promise. -/
abbrev Race (α : Type) := Option (Except Thrown α)

inductive Timer where
  | unset
  | armed
  | fired
  | cleared
deriving DecidableEq

/-- The reader of the body; `released` covers `releaseLock`. -/
inductive Reader where
  | unacquired
  | held (cancelled : Bool)
  | released
deriving DecidableEq

/-- `if (reader) void reader.cancel()`. -/
def Reader.cancel : Reader → Reader
  | unacquired => unacquired
  | held _ => held true
  | released => released

/-- How the promise of `reader.read()` settles. -/
inductive ReadResult where
  | chunk (value : Bytes)
  | done
  | failed
deriving DecidableEq

def ReadResult.outcome : ReadResult → Except Thrown (Option Bytes)
  | chunk value => .ok (some value)
  | done => .ok none
  | failed => .error none

/-- What a read adds to the chunks delivered. -/
def ReadResult.delivery : ReadResult → List Bytes
  | chunk value => [value]
  | done => []
  | failed => []

/-- How the promise of `fetch` settles; `none` is a rejection. -/
def fetchOutcome (response : Option FetchResponse) : Except Thrown FetchResponse :=
  response.elim (.error none) .ok

namespace Race

variable {α : Type}

/-- A promise settles: it decides the race unless the race is decided. -/
def settle (race : Race α) (outcome : Except Thrown α) : Race α := race.or (some outcome)

/-- Whether the host's own promise may still settle: it has not decided the race. -/
def hostPending : Race α → Bool
  | none => true
  | some (.ok _) => false
  | some (.error thrown) => thrown.isSome

end Race

/-- Where the function is: at the `await` of `fetch`, at that of a read with what it
has collected, or at its end. -/
inductive Phase where
  | fetching (race : Race FetchResponse)
  | reading (status : Nat) (headers : List (Bytes × Bytes)) (chunks : List Bytes) (total : Nat)
      (race : Race (Option Bytes))
  | settled (result : Except FailureCode FetchedResponse)

namespace Phase

/-- A promise of the race is rejected. -/
def lose (thrown : Thrown) : Phase → Phase
  | fetching race => fetching (race.settle (.error thrown))
  | reading status headers chunks total race =>
      reading status headers chunks total (race.settle (.error thrown))
  | settled result => settled result

/-- `fetch` or a read is still pending. -/
def pending : Phase → Bool
  | fetching race => race.hostPending
  | reading _ _ _ _ race => race.hostPending
  | settled _ => false

end Phase

/-- The variables of one call. `response` and `delivered` record what the host has given. -/
structure State where
  controllerAborted : Bool
  interrupted : Option FailureCode
  timedOut : Bool
  timer : Timer
  finished : Bool
  reader : Reader
  phase : Phase
  response : Option FetchResponse
  delivered : List Bytes

inductive Action where
  | fetchSettles (response : Option FetchResponse)
  | readSettles (result : ReadResult)
  | timerFires (heeded : Bool)
  | abort (heeded : Bool)
  | resume (locked : Bool) (next : Option ReadResult)

/-! ### The parts of the function -/

namespace State

/-- `abort`. The signal may be heeded, then the pending promise is rejected before
`interrupted` is. -/
def abort (s : State) (heeded : Bool) : State :=
  if s.finished then s
  else
    let signalled := if heeded then s.phase.lose none else s.phase
    -- A second call of `interrupt` leaves the promise as it is.
    let code := s.interrupted.getD (if s.timedOut then .timeout else .transportFailure)
    { s with
      controllerAborted := true
      interrupted := some code
      phase := signalled.lose (some code)
      reader := s.reader.cancel }

/-- The callback of the timer. -/
def expire (s : State) (heeded : Bool) : State :=
  { s with timer := .fired, timedOut := true }.abort heeded

/-- `finally`, and the promise settles. -/
def settle (s : State) (result : Except FailureCode FetchedResponse) : State :=
  { s with finished := true, timer := .cleared, phase := .settled result }

/-- The code that the `catch` block throws. -/
def failureCode (s : State) (error : Thrown) : FailureCode :=
  if s.timedOut then .timeout
  else if error = some .responseTooLarge then .responseTooLarge else .transportFailure

/-- The `catch` block. -/
def reject (s : State) (error : Thrown) : State :=
  (s.abort false).settle (.error (s.failureCode error))

/-- The next `await` of a read, whose promise may have settled already. -/
def read (s : State) (status : Nat) (headers : List (Bytes × Bytes)) (chunks : List Bytes)
    (total : Nat) (next : Option ReadResult) : State :=
  { s with
    phase := .reading status headers chunks total
      ((next.map ReadResult.outcome).or (s.interrupted.map (.error ∘ some)))
    delivered := s.delivered ++ next.elim [] ReadResult.delivery }

/-- From the response to the first read. `locked` is a body whose `getReader` throws. -/
def receive (limits : HttpEventLimits) (s : State) (response : FetchResponse) (locked : Bool)
    (next : Option ReadResult) : State :=
  let s := { s with response := some response }
  if response.redirected then s.reject (some .transportFailure)
  else match collectHeaders limits.maxResponseHeadBytes response with
    | .error code => s.reject (some code)
    | .ok headers =>
        if advertisesTooMuch limits.maxResponseBodyBytes response then
          s.reject (some .responseTooLarge)
        else if response.body.isNone then s.settle (.ok ⟨response.status, headers, []⟩)
        else if locked then s.reject none
        else { s with reader := .held false }.read response.status headers [] 0 next

/-- One round of the reader loop, from one read to the next. -/
def take (limits : HttpEventLimits) (s : State) (status : Nat) (headers : List (Bytes × Bytes))
    (chunks : List Bytes) (total : Nat) (value : Bytes) (next : Option ReadResult) : State :=
  match readChunk limits.maxResponseBodyBytes (chunks, total) value with
  | .error code => s.reject (some code)
  | .ok (chunks, total) => s.read status headers chunks total next

/-- What follows the last read. -/
def finish (s : State) (status : Nat) (headers : List (Bytes × Bytes)) (chunks : List Bytes) :
    State :=
  { s with reader := .released }.settle (.ok ⟨status, headers, chunks.flatten⟩)

/-- The function goes on after an `await` whose race is decided. -/
def resume (limits : HttpEventLimits) (s : State) (locked : Bool) (next : Option ReadResult) :
    Option State :=
  match s.phase with
  | .fetching none => none
  | .fetching (some (.error thrown)) => some (s.reject thrown)
  | .fetching (some (.ok response)) => some (s.receive limits response locked next)
  | .reading _ _ _ _ none => none
  | .reading _ _ _ _ (some (.error thrown)) => some (s.reject thrown)
  | .reading status headers chunks total (some (.ok (some value))) =>
      some (s.take limits status headers chunks total value next)
  | .reading status headers chunks _ (some (.ok none)) => some (s.finish status headers chunks)
  | .settled _ => none

end State

/-- What the call of `fetch` gives: an error, or a promise that may have settled. -/
inductive FetchCall where
  | throws
  | returns (settled : Option (Option FetchResponse))

/-- All limits are positive safe integers. -/
def limitsAccepted (limits : HttpEventLimits) : Bool :=
  isPositiveSafe limits.maxResponseBodyBytes && isPositiveSafe limits.maxResponseHeadBytes &&
    isPositiveSafe limits.requestTimeoutMillis

/-- The variables before anything is called. -/
def fresh : State where
  controllerAborted := false
  interrupted := none
  timedOut := false
  timer := .unset
  finished := false
  reader := .unacquired
  phase := .fetching none
  response := none
  delivered := []

/-- The call, up to its first `await`. Refused limits throw before the `try`. -/
def start (limits : HttpEventLimits) (call : FetchCall) : State :=
  if !limitsAccepted limits then { fresh with phase := .settled (.error .transportFailure) }
  else match call with
    | .throws => { fresh with timer := .armed }.reject none
    | .returns settled =>
        { fresh with timer := .armed, phase := .fetching (settled.map fetchOutcome) }

/-- One step. A promise settles once, and what settles too late is not looked at; a
timer that is cleared does not fire. -/
def step (limits : HttpEventLimits) (s : State) : Action → Option State
  | .fetchSettles response =>
      match s.phase with
      | .fetching race =>
          if race.hostPending then
            some { s with phase := .fetching (race.settle (fetchOutcome response)) }
          else none
      | .reading .. => none
      | .settled _ => some s
  | .readSettles result =>
      match s.phase with
      | .fetching _ => none
      | .reading status headers chunks total race =>
          if race.hostPending then
            some { s with
              phase := .reading status headers chunks total (race.settle result.outcome)
              delivered := s.delivered ++ result.delivery }
          else none
      | .settled _ => some s
  | .timerFires heeded => if s.timer = .armed then some (s.expire heeded) else none
  | .abort heeded => some (s.abort heeded)
  | .resume locked next => s.resume limits locked next

/-- One call of the bridge. -/
def bridge (limits : HttpEventLimits) : Machine State Action where
  initial s := ∃ call, s = start limits call
  step := step limits

/-! ### What the parts leave behind -/

namespace Race

variable {α : Type}

/-- What an unsettled race may be: `interrupted` has not decided it before its time, and
no limit is reported through it. -/
structure Fair (race : Race α) (interrupted : Option FailureCode) : Prop where
  undecided : race = none → interrupted = none
  uncoded : race ≠ some (.error (some .responseTooLarge))

end Race

/-- The head or the body that the host has given so far exceeds its limit. -/
inductive Exceeded (limits : HttpEventLimits) (s : State) : Prop where
  | head (response : FetchResponse) (given : s.response = some response)
      (beyond : limits.maxResponseHeadBytes < Budget.total pairBytes (plainFields response ++
        ((cookiePairs response.cookies).toOption.getD [])))
  | advertised (response : FetchResponse) (given : s.response = some response)
      (beyond : advertisesTooMuch limits.maxResponseBodyBytes response = true)
  | body (beyond : limits.maxResponseBodyBytes < s.delivered.flatten.length)

/-- The chunks delivered are those collected and the one that waits in the race. -/
def Accounts (delivered chunks : List Bytes) : Race (Option Bytes) → Prop
  | none => delivered = chunks
  | some (.ok none) => delivered = chunks
  | some (.ok (some value)) => delivered = chunks ++ [value]
  | some (.error _) => True

/-- The invariant, phase by phase. -/
def Sound (limits : HttpEventLimits) (s : State) : Prop :=
  s.interrupted ≠ some .responseTooLarge ∧
    match s.phase with
    | .fetching race => s.finished = false ∧ race.Fair s.interrupted ∧ s.delivered = []
    | .reading _ headers chunks total race =>
        s.finished = false ∧ race.Fair s.interrupted ∧ Accounts s.delivered chunks race ∧
          total = Budget.total List.length chunks ∧ total ≤ limits.maxResponseBodyBytes ∧
          Budget.total pairBytes headers ≤ limits.maxResponseHeadBytes
    | .settled (.ok value) =>
        s.finished = true ∧ s.timer = .cleared ∧ value.body = s.delivered.flatten ∧
          value.body.length ≤ limits.maxResponseBodyBytes ∧
          Budget.total pairBytes value.headers ≤ limits.maxResponseHeadBytes
    | .settled (.error code) =>
        s.finished = true ∧ s.timer = .cleared ∧ s.controllerAborted = true ∧
          s.reader ≠ .held false ∧ (code = .timeout ↔ s.timedOut = true) ∧
          (code = .responseTooLarge → Exceeded limits s)

theorem cookiePairs_ne_tooLarge {access : CookieAccess} :
    cookiePairs access ≠ .error .responseTooLarge := by
  cases access with
  | getSetCookie values => nofun
  | getAll values => nofun
  | unsupported present => cases present <;> nofun

theorem cookiePairs_ne_timeout {access : CookieAccess} : cookiePairs access ≠ .error .timeout := by
  cases access with
  | getSetCookie values => nofun
  | getAll values => nofun
  | unsupported present => cases present <;> nofun

/-- The headers that the bridge collects fit the head limit. -/
theorem total_le_of_collectHeaders {headLimit : Nat} {response : FetchResponse}
    {headers : List (Bytes × Bytes)} (collected : collectHeaders headLimit response = .ok headers) :
    Budget.total pairBytes headers ≤ headLimit := by
  cases listed : cookiePairs response.cookies with
  | error code =>
      rw [collectHeaders, listed] at collected
      obtain ⟨state, -, failed⟩ := Result.bind_eq_ok.mp collected
      cases failed
  | ok cookies =>
      obtain ⟨small, rfl⟩ := (collectHeaders_eq_ok listed).mp collected
      exact small

/-- The two header loops report a limit only where the listed fields exceed it. -/
theorem total_of_collectHeaders {headLimit : Nat} {response : FetchResponse}
    (failed : collectHeaders headLimit response = .error .responseTooLarge) :
    headLimit < Budget.total pairBytes (plainFields response ++
      ((cookiePairs response.cookies).toOption.getD [])) := by
  by_contra small
  rw [Nat.not_lt] at small
  cases listed : cookiePairs response.cookies with
  | error code =>
      have looped : (plainFields response).foldlM (append headLimit) ([], 0) = .ok _ :=
        (Budget.foldlM_push_eq_ok (Nat.zero_le headLimit)).mpr ⟨by
          rw [Budget.total_append] at small
          omega, rfl⟩
      rw [collectHeaders, looped, listed] at failed
      cases failed
      exact cookiePairs_ne_tooLarge listed
  | ok cookies =>
      rw [listed] at small
      cases failed.symm.trans ((collectHeaders_eq_ok listed).mpr ⟨small, rfl⟩)

theorem Reader.cancel_ne (reader : Reader) : reader.cancel ≠ .held false := by
  cases reader <;> nofun

namespace State

variable {limits : HttpEventLimits} {s : State}

theorem abort_of_finished (finished : s.finished = true) (heeded : Bool) : s.abort heeded = s :=
  if_pos finished

/-- What `abort` does while the function runs. -/
theorem abort_of_running (running : s.finished = false) (heeded : Bool) :
    s.abort heeded = { s with
      controllerAborted := true
      interrupted := some (s.interrupted.getD (if s.timedOut then .timeout else .transportFailure))
      phase := (if heeded then s.phase.lose none else s.phase).lose
        (some (s.interrupted.getD (if s.timedOut then .timeout else .transportFailure)))
      reader := s.reader.cancel } := by
  rw [abort, running]
  rfl

theorem failureCode_eq_timeout_iff {error : Thrown} :
    s.failureCode error = .timeout ↔ s.timedOut = true := by
  rw [failureCode]
  split
  · next late => exact iff_of_true rfl late
  · next early =>
    refine iff_of_false ?_ early
    split <;> nofun

theorem of_failureCode_eq_tooLarge {error : Thrown}
    (thrown : s.failureCode error = .responseTooLarge) : error = some .responseTooLarge := by
  rw [failureCode] at thrown
  split at thrown
  · cases thrown
  · split at thrown
    · assumption
    · cases thrown

/-- The `catch` block cleans up; it reports a limit only if one was exceeded. -/
theorem reject_sound (running : s.finished = false) (plain : s.interrupted ≠ some .responseTooLarge)
    {error : Thrown} (reason : error = some .responseTooLarge → Exceeded limits s) :
    Sound limits (s.reject error) := by
  rw [reject, abort_of_running running]
  refine ⟨?_, rfl, rfl, rfl, s.reader.cancel_ne, failureCode_eq_timeout_iff, ?_⟩
  · cases known : s.interrupted with
    | none =>
        show some (if s.timedOut then _ else _) ≠ _
        split <;> nofun
    | some code =>
        rw [known] at plain
        exact plain
  · intro reported
    cases reason (of_failureCode_eq_tooLarge reported) with
    | head response given beyond => exact .head response given beyond
    | advertised response given beyond => exact .advertised response given beyond
    | body beyond => exact .body beyond

/-- The next read keeps the invariant of the loop. -/
theorem read_sound (running : s.finished = false) (plain : s.interrupted ≠ some .responseTooLarge)
    {status : Nat} {headers : List (Bytes × Bytes)} {chunks : List Bytes} {total : Nat}
    (known : s.delivered = chunks) (counted : total = Budget.total List.length chunks)
    (small : total ≤ limits.maxResponseBodyBytes)
    (head : Budget.total pairBytes headers ≤ limits.maxResponseHeadBytes)
    (next : Option ReadResult) : Sound limits (s.read status headers chunks total next) := by
  refine ⟨plain, running, ⟨?_, ?_⟩, ?_, counted, small, head⟩
  · intro undecided
    exact Option.map_eq_none_iff.mp (Option.or_eq_none_iff.mp undecided).2
  · intro lost
    obtain own | ⟨-, late⟩ := Option.or_eq_some_iff.mp lost
    · obtain ⟨result, -, outcome⟩ := Option.map_eq_some_iff.mp own
      cases result <;> cases outcome
    · obtain ⟨code, interrupted, coded⟩ := Option.map_eq_some_iff.mp late
      cases coded
      exact plain interrupted
  · cases next with
    | none =>
        show Accounts (s.delivered ++ []) chunks (s.interrupted.map (.error ∘ some))
        rw [List.append_nil]
        cases s.interrupted with
        | none => exact known
        | some code => exact trivial
    | some result =>
        show Accounts (s.delivered ++ result.delivery) chunks (some result.outcome)
        rw [known]
        cases result with
        | chunk value => rfl
        | done => exact List.append_nil chunks
        | failed => exact trivial

/-- A response is received within the head limit, or the function gives up. -/
theorem receive_sound (running : s.finished = false)
    (plain : s.interrupted ≠ some .responseTooLarge) (known : s.delivered = [])
    (response : FetchResponse) (locked : Bool) (next : Option ReadResult) :
    Sound limits (s.receive limits response locked next) := by
  have giveUp : ∀ error, (error = some .responseTooLarge →
      Exceeded limits { s with response := some response }) →
      Sound limits ({ s with response := some response }.reject error) :=
    fun _ => reject_sound (s := { s with response := some response }) running plain
  rw [receive]
  split
  · exact giveUp _ nofun
  · split
    · next code failed =>
      apply giveUp
      intro coded
      cases coded
      exact .head response rfl (total_of_collectHeaders failed)
    · next headers collected =>
      have head := total_le_of_collectHeaders collected
      split
      · next long => exact giveUp _ fun _ => .advertised response rfl long
      · split
        · refine ⟨plain, rfl, rfl, ?_, Nat.zero_le _, head⟩
          exact (congrArg List.flatten known).symm
        · split
          · exact giveUp _ nofun
          · exact read_sound (s := { s with response := some response, reader := .held false })
              running plain known rfl (Nat.zero_le _) head next

/-- A chunk is collected within the body limit, or the function gives up. -/
theorem take_sound (running : s.finished = false) (plain : s.interrupted ≠ some .responseTooLarge)
    {status : Nat} {headers : List (Bytes × Bytes)} {chunks : List Bytes} {total : Nat}
    {value : Bytes} (known : s.delivered = chunks ++ [value])
    (counted : total = Budget.total List.length chunks)
    (head : Budget.total pairBytes headers ≤ limits.maxResponseHeadBytes)
    (next : Option ReadResult) :
    Sound limits (s.take limits status headers chunks total value next) := by
  have weight : s.delivered.flatten.length = total + value.length := by
    rw [known, counted, List.length_flatten, List.map_append, List.sum_append]
    rfl
  rw [take, readChunk, Budget.push]
  split
  · next code failed =>
    apply reject_sound running plain
    intro coded
    refine .body ?_
    split at failed
    · next beyond =>
      rw [weight]
      exact beyond
    · cases failed
  · next collected =>
    obtain ⟨small, same⟩ := Budget.push_eq_ok.mp collected
    cases same
    refine read_sound running plain known ?_ small head next
    rw [counted, Budget.total_append]
    rfl

theorem finish_sound (plain : s.interrupted ≠ some .responseTooLarge) (status : Nat)
    {headers : List (Bytes × Bytes)} {chunks : List Bytes} {total : Nat}
    (known : s.delivered = chunks) (counted : total = Budget.total List.length chunks)
    (small : total ≤ limits.maxResponseBodyBytes)
    (head : Budget.total pairBytes headers ≤ limits.maxResponseHeadBytes) :
    Sound limits (s.finish status headers chunks) := by
  refine ⟨plain, rfl, rfl, ?_, ?_, head⟩
  · exact (congrArg List.flatten known).symm
  · rw [counted] at small
    rw [List.length_flatten]
    exact small

theorem resume_sound (sound : Sound limits s) {locked : Bool} {next : Option ReadResult} {t : State}
    (resumed : s.resume limits locked next = some t) : Sound limits t := by
  obtain ⟨plain, here⟩ := sound
  rw [resume] at resumed
  split at resumed
  · cases resumed
  · next thrown phase =>
    cases resumed
    rw [phase] at here
    obtain ⟨running, fair, -⟩ := here
    refine reject_sound running plain fun coded => absurd ?_ fair.uncoded
    rw [coded]
  · next response phase =>
    cases resumed
    rw [phase] at here
    obtain ⟨running, -, known⟩ := here
    exact receive_sound running plain known response locked next
  · cases resumed
  · next thrown phase =>
    cases resumed
    rw [phase] at here
    obtain ⟨running, fair, -⟩ := here
    refine reject_sound running plain fun coded => absurd ?_ fair.uncoded
    rw [coded]
  · next status headers chunks total value phase =>
    cases resumed
    rw [phase] at here
    obtain ⟨running, -, known, counted, -, head⟩ := here
    exact take_sound running plain known counted head next
  · next status headers chunks total phase =>
    cases resumed
    rw [phase] at here
    obtain ⟨-, -, known, counted, small, head⟩ := here
    exact finish_sound plain status known counted small head
  · cases resumed

end State

namespace Race

variable {α : Type} {race : Race α} {interrupted : Option FailureCode}

/-- Aborting decides a race, and never with the code of a limit. -/
theorem Fair.lose (fair : race.Fair interrupted) {code : FailureCode}
    (plain : code ≠ .responseTooLarge) (heeded : Bool) :
    ((if heeded then race.settle (.error none) else race).settle (.error (some code))).Fair
      (some code) := by
  cases race with
  | none =>
      cases heeded with
      | true => exact ⟨nofun, nofun⟩
      | false =>
          refine ⟨nofun, fun lost => plain ?_⟩
          cases lost
          rfl
  | some decided =>
      cases heeded with
      | true => exact ⟨nofun, fair.uncoded⟩
      | false => exact ⟨nofun, fair.uncoded⟩

/-- What the host settles a race with carries no code. -/
theorem Fair.settle (fair : race.Fair interrupted) {outcome : Except Thrown α}
    (uncoded : outcome ≠ .error (some .responseTooLarge)) : (race.settle outcome).Fair interrupted := by
  cases race with
  | none => exact ⟨nofun, fun lost => uncoded (Option.some.inj lost)⟩
  | some decided => exact ⟨nofun, fair.uncoded⟩

end Race

theorem Accounts.lose {delivered chunks : List Bytes} {race : Race (Option Bytes)}
    (accounts : Accounts delivered chunks race) (thrown : Thrown) :
    Accounts delivered chunks (race.settle (.error thrown)) := by
  cases race with
  | none => exact trivial
  | some decided => exact accounts

/-- A read that may still settle the race accounts for its chunk. -/
theorem Accounts.settle {delivered chunks : List Bytes} {race : Race (Option Bytes)}
    (accounts : Accounts delivered chunks race) (pending : race.hostPending = true)
    (result : ReadResult) :
    Accounts (delivered ++ result.delivery) chunks (race.settle result.outcome) := by
  rcases race with _ | ⟨thrown | value⟩
  · cases accounts
    cases result with
    | chunk value => rfl
    | done => exact List.append_nil _
    | failed => exact trivial
  · exact trivial
  · cases pending

namespace State

variable {limits : HttpEventLimits} {s : State}

theorem finished_of_settled (sound : Sound limits s) {result : Except FailureCode FetchedResponse}
    (phase : s.phase = .settled result) : s.finished = true ∧ s.timer = .cleared := by
  obtain ⟨-, here⟩ := sound
  rw [phase] at here
  cases result with
  | ok value => exact ⟨here.1, here.2.1⟩
  | error code => exact ⟨here.1, here.2.1⟩

theorem abort_sound (sound : Sound limits s) (heeded : Bool) : Sound limits (s.abort heeded) := by
  cases finished : s.finished with
  | true =>
      rw [abort_of_finished finished]
      exact sound
  | false =>
      have plain : s.interrupted.getD (if s.timedOut then .timeout else .transportFailure) ≠
          .responseTooLarge := by
        cases known : s.interrupted with
        | none =>
            rw [Option.getD_none]
            split <;> nofun
        | some code =>
            intro coded
            exact sound.1 (known.trans (congrArg some coded))
      rw [abort_of_running finished]
      refine ⟨fun coded => plain (Option.some.inj coded), ?_⟩
      obtain ⟨-, here⟩ := sound
      cases phase : s.phase with
      | fetching race =>
          rw [phase] at here
          obtain ⟨running, fair, known⟩ := here
          cases heeded with
          | true => exact ⟨running, fair.lose plain true, known⟩
          | false => exact ⟨running, fair.lose plain false, known⟩
      | reading status headers chunks total race =>
          rw [phase] at here
          obtain ⟨running, fair, known, collected⟩ := here
          cases heeded with
          | true => exact ⟨running, fair.lose plain true, (known.lose _).lose _, collected⟩
          | false => exact ⟨running, fair.lose plain false, known.lose _, collected⟩
      | settled result =>
          rw [phase] at here
          cases result with
          | ok value => cases finished.symm.trans here.1
          | error code => cases finished.symm.trans here.1

theorem expire_sound (sound : Sound limits s) (armed : s.timer = .armed) (heeded : Bool) :
    Sound limits (s.expire heeded) := by
  apply abort_sound
  refine ⟨sound.1, ?_⟩
  obtain ⟨-, here⟩ := id sound
  cases phase : s.phase with
  | fetching race =>
      rw [phase] at here
      exact here
  | reading status headers chunks total race =>
      rw [phase] at here
      exact here
  | settled result => cases armed.symm.trans (finished_of_settled sound phase).2

end State

/-- Every step keeps the invariant. -/
theorem step_sound {limits : HttpEventLimits} {s t : State} {a : Action} (sound : Sound limits s)
    (stepped : step limits s a = some t) : Sound limits t := by
  obtain ⟨plain, here⟩ := id sound
  cases a with
  | fetchSettles response =>
      rw [step] at stepped
      split at stepped
      · next race phase =>
        rw [phase] at here
        obtain ⟨running, fair, known⟩ := here
        split at stepped
        · cases stepped
          refine ⟨plain, running, fair.settle ?_, known⟩
          cases response <;> nofun
        · cases stepped
      · cases stepped
      · cases stepped
        exact sound
  | readSettles result =>
      rw [step] at stepped
      split at stepped
      · cases stepped
      · next status headers chunks total race phase =>
        rw [phase] at here
        obtain ⟨running, fair, known, collected⟩ := here
        split at stepped
        · next pending =>
          cases stepped
          refine ⟨plain, running, fair.settle ?_, ?_, collected⟩
          · cases result <;> nofun
          · exact known.settle pending result
        · cases stepped
      · cases stepped
        exact sound
  | timerFires heeded =>
      rw [step] at stepped
      split at stepped
      · next armed =>
        cases stepped
        exact State.expire_sound sound armed heeded
      · cases stepped
  | abort heeded =>
      cases stepped
      exact State.abort_sound sound heeded
  | resume locked next => exact State.resume_sound sound stepped

namespace State

variable {limits : HttpEventLimits} {s : State}

end State

/-- Once the promise has settled, nothing changes any more. -/
theorem step_of_settled {limits : HttpEventLimits} {s t : State} {a : Action}
    (sound : Sound limits s) {result : Except FailureCode FetchedResponse}
    (phase : s.phase = .settled result) (stepped : step limits s a = some t) : t = s := by
  obtain ⟨finished, cleared⟩ := State.finished_of_settled sound phase
  cases a with
  | fetchSettles response =>
      rw [step, phase] at stepped
      exact (Option.some.inj stepped).symm
  | readSettles result =>
      rw [step, phase] at stepped
      exact (Option.some.inj stepped).symm
  | timerFires heeded =>
      rw [step, cleared] at stepped
      cases stepped
  | abort heeded =>
      rw [step, State.abort_of_finished finished] at stepped
      exact (Option.some.inj stepped).symm
  | resume locked next =>
      rw [step, State.resume, phase] at stepped
      cases stepped

/-! ### A race that is lost -/

/-- The function will throw as soon as it resumes. -/
inductive Losing (s : State) : Prop where
  | fetching (thrown : Thrown) (phase : s.phase = .fetching (some (.error thrown)))
  | reading (status : Nat) (headers : List (Bytes × Bytes)) (chunks : List Bytes) (total : Nat)
      (thrown : Thrown) (phase : s.phase = .reading status headers chunks total
        (some (.error thrown)))

/-- Resuming is possible, whatever the host does, and it rejects the promise. -/
theorem Losing.rejects {s : State} (losing : Losing s) (limits : HttpEventLimits) (locked : Bool)
    (next : Option ReadResult) :
    ∃ t code, step limits s (.resume locked next) = some t ∧ t.phase = .settled (.error code) := by
  cases losing with
  | fetching thrown phase =>
      refine ⟨s.reject thrown, s.failureCode thrown, ?_, rfl⟩
      rw [step, State.resume, phase]
  | reading status headers chunks total thrown phase =>
      refine ⟨s.reject thrown, s.failureCode thrown, ?_, rfl⟩
      rw [step, State.resume, phase]

theorem Losing.of_phase_eq {s t : State} (losing : Losing s) (same : t.phase = s.phase) :
    Losing t := by
  cases losing with
  | fetching thrown phase => exact .fetching thrown (same.trans phase)
  | reading status headers chunks total thrown phase =>
      exact .reading status headers chunks total thrown (same.trans phase)

/-- A lost race stays lost when another promise is rejected. -/
theorem Losing.lose {s : State} (losing : Losing s) (thrown : Thrown) :
    s.phase.lose thrown = s.phase := by
  cases losing with
  | fetching thrown phase =>
      rw [phase]
      rfl
  | reading status headers chunks total thrown phase =>
      rw [phase]
      rfl

theorem Losing.abort {s : State} (losing : Losing s) (heeded : Bool) : Losing (s.abort heeded) := by
  apply losing.of_phase_eq
  rw [State.abort]
  split
  · rfl
  · have first : (if heeded then s.phase.lose none else s.phase) = s.phase := by
      split
      · exact losing.lose none
      · rfl
    rw [first]
    exact losing.lose _

/-- The promise is rejected, or it will be as soon as the function resumes. -/
def Failing (s : State) : Prop := Losing s ∨ ∃ code, s.phase = .settled (.error code)

/-- No step saves a lost race. -/
theorem Losing.step {limits : HttpEventLimits} {s t : State} {a : Action} (losing : Losing s)
    (stepped : step limits s a = some t) : Failing t := by
  cases a with
  | fetchSettles response =>
      rw [EventFetch.step] at stepped
      cases losing with
      | fetching thrown phase =>
          simp only [phase] at stepped
          split at stepped <;> cases stepped
          exact .inl (.fetching thrown rfl)
      | reading status headers chunks total thrown phase =>
          rw [phase] at stepped
          cases stepped
  | readSettles result =>
      rw [EventFetch.step] at stepped
      cases losing with
      | fetching thrown phase =>
          rw [phase] at stepped
          cases stepped
      | reading status headers chunks total thrown phase =>
          simp only [phase] at stepped
          split at stepped <;> cases stepped
          exact .inl (.reading status headers chunks total thrown rfl)
  | timerFires heeded =>
      rw [EventFetch.step] at stepped
      split at stepped <;> cases stepped
      have expired : Losing { s with timer := .fired, timedOut := true } := losing.of_phase_eq rfl
      exact .inl (expired.abort heeded)
  | abort heeded =>
      cases stepped
      exact .inl (losing.abort heeded)
  | resume locked next =>
      obtain ⟨u, code, resumed, rejected⟩ := losing.rejects limits locked next
      cases resumed.symm.trans stepped
      exact .inr ⟨code, rejected⟩

theorem Failing.run {limits : HttpEventLimits} {s t : State} {actions : List Action}
    (failing : Failing s) (sound : Sound limits s)
    (ran : (bridge limits).run actions s = some t) : Failing t := by
  have both : Sound limits t ∧ Failing t := by
    refine Machine.run_preserves (P := fun s => Sound limits s ∧ Failing s) ?_ ⟨sound, failing⟩ ran
    rintro u a v ⟨sound, losing | ⟨code, phase⟩⟩ stepped
    · exact ⟨step_sound sound stepped, losing.step stepped⟩
    · cases step_of_settled sound phase stepped
      exact ⟨sound, .inr ⟨code, phase⟩⟩
  exact both.2

/-- The reads of a body, one after another. -/
def reads : List Bytes → List Action
  | [] => [.readSettles .done, .resume false none]
  | value :: rest => .readSettles (.chunk value) :: .resume false none :: reads rest

/-- Fetch answers, and then its body is read to the end. -/
def exchange (response : FetchResponse) : List Action :=
  .fetchSettles (some response) :: .resume false none :: response.body.elim [] reads

theorem State.failureCode_some {s : State} (early : s.timedOut = false) {code : FailureCode}
    (known : code ≠ .timeout) : s.failureCode (some code) = code := by
  rw [failureCode, early]
  cases code with
  | timeout => exact absurd rfl known
  | responseTooLarge => rfl
  | transportFailure => rfl

theorem collectHeaders_ne_timeout {headLimit : Nat} {response : FetchResponse} {code : FailureCode}
    (failed : collectHeaders headLimit response = .error code) : code ≠ .timeout := by
  rintro rfl
  rw [collectHeaders] at failed
  cases first : (plainFields response).foldlM (append headLimit) ([], 0) with
  | error cause =>
      rw [first] at failed
      cases failed
      cases Budget.foldlM_push_eq_error first
  | ok state =>
      rw [first] at failed
      cases listed : cookiePairs response.cookies with
      | error cause =>
          rw [listed] at failed
          cases failed
          exact cookiePairs_ne_timeout listed
      | ok cookies =>
          rw [listed] at failed
          cases second : cookies.foldlM (append headLimit) state with
          | error cause =>
              change (cookies.foldlM (append headLimit) state >>= _) = _ at failed
              rw [second] at failed
              cases failed
              cases Budget.foldlM_push_eq_error second
          | ok final =>
              change (cookies.foldlM (append headLimit) state >>= _) = _ at failed
              rw [second] at failed
              cases failed

/-- The reads end as the loop of `readBody` does, perhaps before the body does. -/
theorem run_reads (limits : HttpEventLimits) {status : Nat} {headers : List (Bytes × Bytes)}
    {chunks : List Bytes} (rest : List Bytes) {total : Nat} {s : State} (early : s.timedOut = false)
    (calm : s.interrupted = none) (phase : s.phase = .reading status headers chunks total none) :
    ∃ actions t, actions <+: reads rest ∧ (bridge limits).run actions s = some t ∧
      t.phase = .settled (do
        let (chunks, _) ← rest.foldlM (readChunk limits.maxResponseBodyBytes) (chunks, total)
        return ⟨status, headers, chunks.flatten⟩) := by
  induction rest generalizing s chunks total with
  | nil =>
      let read : State := { s with
        phase := .reading status headers chunks total (some (.ok none))
        delivered := s.delivered ++ [] }
      have delivered : step limits s (.readSettles .done) = some read := by
        simp only [step, phase]
        rfl
      refine ⟨_, read.finish status headers chunks, List.prefix_rfl, ?_, rfl⟩
      exact Machine.run_cons_iff.mpr ⟨read, delivered, Machine.run_cons_iff.mpr ⟨_, rfl, rfl⟩⟩
  | cons value rest ih =>
      let read : State := { s with
        phase := .reading status headers chunks total (some (.ok (some value)))
        delivered := s.delivered ++ [value] }
      have delivered : step limits s (.readSettles (.chunk value)) = some read := by
        simp only [step, phase]
        rfl
      have resumed : step limits read (.resume false none) =
          some (read.take limits status headers chunks total value none) := rfl
      cases first : readChunk limits.maxResponseBodyBytes (chunks, total) value with
      | error code =>
          refine ⟨[.readSettles (.chunk value), .resume false none],
            read.take limits status headers chunks total value none, ?_, ?_, ?_⟩
          · exact ⟨reads rest, rfl⟩
          · exact Machine.run_cons_iff.mpr ⟨read, delivered, Machine.run_cons_iff.mpr
              ⟨_, resumed, rfl⟩⟩
          · rw [State.take, List.foldlM_cons, first]
            cases Budget.push_eq_error first
            exact congrArg (Phase.settled ∘ Except.error)
              (State.failureCode_some (s := read) early nofun)
      | ok next =>
          have taken : read.take limits status headers chunks total value none =
              read.read status headers next.1 next.2 none := by
            rw [State.take, first]
          have awaited : (read.read status headers next.1 next.2 none).phase =
              .reading status headers next.1 next.2 none := by
            simp only [State.read]
            rw [show read.interrupted = none from calm]
            rfl
          obtain ⟨actions, t, front, ran, settled⟩ :=
            ih (s := read.read status headers next.1 next.2 none) early calm awaited
          refine ⟨.readSettles (.chunk value) :: .resume false none :: actions, t, ?_, ?_, ?_⟩
          · obtain ⟨back, whole⟩ := front
            exact ⟨back, congrArg (fun tail => _ :: _ :: tail) whole⟩
          · refine Machine.run_cons_iff.mpr ⟨read, delivered, Machine.run_cons_iff.mpr
              ⟨_, resumed, ?_⟩⟩
            rw [taken]
            exact ran
          · rw [List.foldlM_cons, first]
            exact settled

/-- Without interruption, the call ends as `collectResponse` says. -/
theorem undisturbed {limits : HttpEventLimits} (accepted : limitsAccepted limits = true)
    (response : FetchResponse) :
    ∃ actions s, actions <+: exchange response ∧
      (bridge limits).run actions (start limits (.returns none)) = some s ∧
        s.phase = .settled (collectResponse limits response) := by
  let called : State := { fresh with timer := .armed }
  let answered : State := { called with phase := .fetching (some (.ok response)) }
  have started : start limits (.returns none) = called := by
    unfold start
    rw [accepted]
    rfl
  have settles : step limits called (.fetchSettles (some response)) = some answered := rfl
  have resumed : step limits answered (.resume false none) =
      some (answered.receive limits response false none) := rfl
  have brief : ∀ actions t, (bridge limits).run actions
      (answered.receive limits response false none) = some t →
      (bridge limits).run (.fetchSettles (some response) :: .resume false none :: actions)
        (start limits (.returns none)) = some t := by
    intro actions t ran
    rw [started]
    exact Machine.run_cons_iff.mpr ⟨answered, settles, Machine.run_cons_iff.mpr ⟨_, resumed, ran⟩⟩
  -- Where the function returns from `receive`, the first two actions are the run.
  have returned : (answered.receive limits response false none).phase =
      .settled (collectResponse limits response) → ∃ actions s, actions <+: exchange response ∧
        (bridge limits).run actions (start limits (.returns none)) = some s ∧
          s.phase = .settled (collectResponse limits response) := fun phase =>
    ⟨[.fetchSettles (some response), .resume false none], _, ⟨_, rfl⟩, brief [] _ rfl, phase⟩
  have gaveUp : ∀ code, code ≠ .timeout →
      ({ answered with response := some response } : State).failureCode (some code) = code :=
    fun _ known => State.failureCode_some rfl known
  by_cases redirected : response.redirected = true
  · apply returned
    rw [State.receive, collectResponse, if_pos redirected, if_pos redirected]
    rfl
  · cases collected : collectHeaders limits.maxResponseHeadBytes response with
    | error code =>
        apply returned
        rw [State.receive, collectResponse, if_neg redirected, if_neg redirected, collected]
        exact congrArg (Phase.settled ∘ Except.error)
          (gaveUp code (collectHeaders_ne_timeout collected))
    | ok headers =>
        by_cases long : advertisesTooMuch limits.maxResponseBodyBytes response = true
        · apply returned
          rw [State.receive, collectResponse, if_neg redirected, if_neg redirected, collected]
          simp only [bind, Except.bind]
          rw [if_pos long, if_pos long]
          rfl
        · cases body : response.body with
          | none =>
              apply returned
              rw [State.receive, collectResponse, if_neg redirected, if_neg redirected, collected]
              simp only [bind, Except.bind]
              rw [if_neg long, if_neg long, body]
              rfl
          | some chunks =>
              let reading : State := { answered with
                response := some response
                reader := .held false
                phase := .reading response.status headers [] 0 none }
              have received : answered.receive limits response false none = reading := by
                rw [State.receive, if_neg redirected, collected]
                simp only
                rw [if_neg long, body]
                rfl
              obtain ⟨actions, t, front, ran, settled⟩ := run_reads limits chunks
                (s := reading) rfl rfl rfl
              refine ⟨_, t, ?_, brief actions t ?_, ?_⟩
              · obtain ⟨back, whole⟩ := front
                refine ⟨back, ?_⟩
                rw [exchange, body]
                exact congrArg (fun tail => _ :: _ :: tail) whole
              · rw [received]
                exact ran
              · rw [settled, collectResponse, if_neg redirected, collected]
                simp only [bind, Except.bind]
                rw [if_neg long, body]
                simp only [readBody, Option.getD_some, bind, Except.bind]
                cases chunks.foldlM (readChunk limits.maxResponseBodyBytes) ([], 0) with
                | error code => rfl
                | ok final => rfl

end EventFetch

end Egress
