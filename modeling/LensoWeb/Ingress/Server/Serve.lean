import LensoWeb.Foundation.Census
import LensoWeb.Foundation.Ranking
import LensoWeb.Ingress.Config
import LensoWeb.Ingress.WebSocket.Native

/-!
# The server loop

One loop accepts connections and reaps the tasks that serve them. A connection that has
been upgraded is served by the socket pump in the same task, behind the HTTP connection,
and keeps its connection permit until the pump is done.

The loop and the tasks run in any order. Nothing is assumed about the connections: they
end, panic and are upgraded at any time while Hyper serves them. A task that panics drops the
pump that it holds, and so does a later upgrade of its connection.
-/

namespace Ingress

open Foundation Kernel

/-- Where connections come from: from a listener of this server, or from the one that the
replicas of a host share. -/
inductive ConnectionSource where
  | listener
  | replica
deriving DecidableEq

/-- What `ConnectionSource::accept` returns. A connection of a replica brings its permit. -/
inductive Accepted where
  | stream
  | exhausted
  | failed (error : String)

/-- `std::io::Error` as `serve` returns it. -/
inductive ServeError where
  | accept (error : String)
  | connectionTask
deriving DecidableEq

/-! ### One connection -/

inductive ConnectionPhase where
  | serving
  | closing
  | socket
  | finished (panicked : Bool)
deriving DecidableEq

/-- `Drop` of a pump, which drops its session. -/
def Pump.abandon (s : Pump) : Pump := { s with shared := s.shared.dropCalls }.finish false

/-- The task of one connection with its `SocketTask`. The pumps that were dropped for another one
are kept on record. A reaped task has been returned by `connections.next()`. -/
structure ConnectionTask where
  phase : ConnectionPhase
  socketTask : Option Pump
  replaced : List Pump
  reaped : Bool

inductive ConnectionTaskAction where
  | upgrade (stream : StreamId) (protocol : Option Bytes)
  | completes
  | shutdownSignal
  | idle
  | graceExpires
  | socket (action : PumpAction)
  | panics

/-- The pump shares the token of the loop. -/
def PumpAction.permitted (cancelled : Bool) : PumpAction → Bool
  | .cancel => cancelled
  | _ => true

/-- The task has seen the end of both loops, or gave up. -/
def PumpStage.isEnded : PumpStage → Bool
  | .ended _ => true
  | _ => false

namespace ConnectionTask

def new : ConnectionTask := ⟨.serving, none, [], false⟩

/-- The pumps of all upgrades. -/
def sockets (task : ConnectionTask) : List Pump := task.replaced ++ task.socketTask.toList

/-- The permits that the task holds. -/
def permits (task : ConnectionTask) : Nat :=
  match task.phase with
  | .finished _ => 0
  | _ => 1

/-- What the task does when the HTTP connection is over. -/
def afterConnection (task : ConnectionTask) : ConnectionTask :=
  { task with phase := if task.socketTask.isSome then .socket else .finished false }

/-- One segment of a connection task. -/
def step (messageLimit sessionLimit : Nat) (cancelled shutdown : Bool) (task : ConnectionTask) :
    ConnectionTaskAction → Option ConnectionTask
  | .upgrade stream protocol =>
      if task.phase = .serving ∨ task.phase = .closing then
        some { task with
          socketTask := some (.start (.accepted stream protocol messageLimit sessionLimit))
          replaced := task.replaced ++ task.socketTask.toList.map Pump.abandon }
      else none
  | .completes =>
      if task.phase = .serving ∨ task.phase = .closing then some task.afterConnection else none
  | .shutdownSignal =>
      if task.phase = .serving ∧ shutdown = true then some { task with phase := .closing } else none
  | .idle => if task.phase = .serving then some { task with phase := .closing } else none
  | .graceExpires => if task.phase = .closing then some task.afterConnection else none
  | .socket action =>
      if task.phase = .socket ∧ action.permitted cancelled = true then
        task.socketTask.bind fun pump => (pump.step action).map fun next =>
          { task with
            socketTask := some next
            phase := if next.stage.isEnded then .finished false else .socket }
      else none
  | .panics =>
      match task.phase with
      | .finished _ => none
      | _ => some { task with
          phase := .finished true
          socketTask := task.socketTask.map Pump.abandon }

end ConnectionTask

/-! ### The loop -/

inductive ServeStage where
  | accepting
  | draining (result : Except ServeError Unit)
  | returned (result : Except ServeError Unit)

/-- The loop, its connections and the semaphore of its connections. The permits of a
replica's connections belong to the listener that it shares; here are those that came back. -/
structure ServeLoop where
  cancelled : Bool
  shutdown : Bool
  stage : ServeStage
  permits : Nat
  connections : List ConnectionTask

inductive ServeAction where
  | cancel
  | seesCancellation
  | accepts (accepted : Accepted)
  | reaps (index : Nat)
  | drained
  | connection (index : Nat) (action : ConnectionTaskAction)

namespace ServeLoop

/-- `shutdown.send_replace(true)` before the remaining connections are awaited. -/
def drain (s : ServeLoop) (result : Except ServeError Unit) : ServeLoop :=
  { s with shutdown := true, stage := .draining result }

/-- A connection of the loop's own listener needs a permit; without one it is dropped. -/
def admits (source : ConnectionSource) (s : ServeLoop) : ServeLoop :=
  match source with
  | .replica => { s with connections := s.connections ++ [.new] }
  | .listener =>
      if s.permits = 0 then s
      else { s with permits := s.permits - 1, connections := s.connections ++ [.new] }

/-- A connection task moves on in its place. -/
def move (s : ServeLoop) (index : Nat) (task next : ConnectionTask) : ServeLoop :=
  { s with
    permits := s.permits + task.permits - next.permits
    connections := s.connections.set index next }

/-- `connections.next()`. -/
def reap (s : ServeLoop) (index : Nat) (task : ConnectionTask) : ServeLoop :=
  { s with connections := s.connections.set index { task with reaped := true } }

/-- One segment of `serve` or of one of its tasks. -/
def step (source : ConnectionSource) (messageLimit sessionLimit : Nat) (s : ServeLoop) :
    ServeAction → Option ServeLoop
  | .cancel => some { s with cancelled := true }
  | .seesCancellation =>
      match s.stage, s.cancelled with
      | .accepting, true => some (s.drain (.ok ()))
      | _, _ => none
  | .accepts accepted =>
      match s.stage, accepted, source with
      | .accepting, .stream, _ => some (s.admits source)
      | .accepting, .exhausted, .replica => some (s.drain (.ok ()))
      | .accepting, .failed error, _ => some (s.drain (.error (.accept error)))
      | _, _, _ => none
  | .reaps index => do
      let task ← s.connections[index]?
      match s.stage, task.phase, task.reaped with
      | .accepting, .finished false, false => some (s.reap index task)
      | .accepting, .finished true, false =>
          some { s.reap index task with
            shutdown := true
            stage := .returned (.error .connectionTask) }
      | .draining _, .finished _, false => some (s.reap index task)
      | _, _, _ => none
  | .drained =>
      match s.stage with
      | .draining result =>
          if s.connections.all (·.reaped) then some { s with stage := .returned result } else none
      | _ => none
  | .connection index action => do
      let task ← s.connections[index]?
      let next ← task.step messageLimit sessionLimit s.cancelled s.shutdown action
      some (s.move index task next)

/-- The permits of the loop's own semaphore. -/
def ownPermits (config : WebIngressConfig) : ConnectionSource → Nat
  | .listener => config.maxConnections
  | .replica => 0

/-- `serve`. -/
def machine (config : WebIngressConfig) (source : ConnectionSource)
    (messageLimit sessionLimit : Nat) : Machine ServeLoop ServeAction where
  initial s := s = ⟨false, false, .accepting, ownPermits config source, []⟩
  step := step source messageLimit sessionLimit

/-- The connections that hold a permit. -/
def openConnections (s : ServeLoop) : Nat := census ConnectionTask.permits s.connections

end ServeLoop

/-! ### What a step can do -/

namespace ServeLoop

variable {config : WebIngressConfig} {source : ConnectionSource} {messageLimit sessionLimit : Nat}
  {s t : ServeLoop}

/-- The transitions, one constructor for each outcome of an action. -/
inductive ServeStep (source : ConnectionSource) (messageLimit sessionLimit : Nat) (s : ServeLoop) :
    ServeAction → ServeLoop → Prop
  | cancel : ServeStep source messageLimit sessionLimit s .cancel { s with cancelled := true }
  | seesCancellation (accepting : s.stage = .accepting) (cancelled : s.cancelled = true) :
      ServeStep source messageLimit sessionLimit s .seesCancellation (s.drain (.ok ()))
  | admits (accepting : s.stage = .accepting) :
      ServeStep source messageLimit sessionLimit s (.accepts .stream) (s.admits source)
  | exhausted (accepting : s.stage = .accepting) (shared : source = .replica) :
      ServeStep source messageLimit sessionLimit s (.accepts .exhausted) (s.drain (.ok ()))
  | acceptFails (accepting : s.stage = .accepting) (error : String) :
      ServeStep source messageLimit sessionLimit s (.accepts (.failed error))
        (s.drain (.error (.accept error)))
  | reap {index : Nat} {task : ConnectionTask} (present : s.connections[index]? = some task)
      {panicked : Bool} (finished : task.phase = .finished panicked) (fresh : task.reaped = false)
      (calm : s.stage = .accepting ∧ panicked = false ∨ ∃ result, s.stage = .draining result) :
      ServeStep source messageLimit sessionLimit s (.reaps index) (s.reap index task)
  | fail {index : Nat} {task : ConnectionTask} (accepting : s.stage = .accepting)
      (present : s.connections[index]? = some task) (panicked : task.phase = .finished true)
      (fresh : task.reaped = false) :
      ServeStep source messageLimit sessionLimit s (.reaps index)
        { s.reap index task with
          shutdown := true
          stage := .returned (.error .connectionTask) }
  | drained {result : Except ServeError Unit} (draining : s.stage = .draining result)
      (all : ∀ task ∈ s.connections, task.reaped = true) :
      ServeStep source messageLimit sessionLimit s .drained { s with stage := .returned result }
  | connection {index : Nat} {task next : ConnectionTask} {action : ConnectionTaskAction}
      (present : s.connections[index]? = some task)
      (moved : task.step messageLimit sessionLimit s.cancelled s.shutdown action = some next) :
      ServeStep source messageLimit sessionLimit s (.connection index action)
        (s.move index task next)

theorem serveStep_of_step {action : ServeAction}
    (transition : step source messageLimit sessionLimit s action = some t) :
    ServeStep source messageLimit sessionLimit s action t := by
  cases action with
  | cancel =>
      cases transition
      exact .cancel
  | seesCancellation =>
      simp only [step] at transition
      split at transition
      · next accepting cancelled =>
        cases transition
        exact .seesCancellation accepting cancelled
      · cases transition
  | accepts accepted =>
      simp only [step] at transition
      split at transition
      · next accepting =>
        cases transition
        exact .admits accepting
      · next accepting =>
        cases transition
        exact .exhausted accepting rfl
      · next accepting =>
        cases transition
        exact .acceptFails accepting _
      · cases transition
  | reaps index =>
      simp only [step, Option.bind_eq_bind, Option.bind_eq_some_iff] at transition
      obtain ⟨task, present, outcome⟩ := transition
      split at outcome
      · next accepting finished fresh =>
        cases outcome
        exact .reap present finished fresh (.inl ⟨accepting, rfl⟩)
      · next accepting panicked fresh =>
        cases outcome
        exact .fail accepting present panicked fresh
      · next draining finished fresh =>
        cases outcome
        exact .reap present finished fresh (.inr ⟨_, draining⟩)
      · cases outcome
  | drained =>
      simp only [step] at transition
      split at transition
      · next draining =>
        split at transition
        · next all =>
          cases transition
          exact .drained draining fun task member => List.all_eq_true.mp all task member
        · cases transition
      · cases transition
  | connection index action =>
      simp only [step, Option.bind_eq_bind, Option.bind_eq_some_iff, Option.some.injEq] at transition
      obtain ⟨task, present, next, moved, rfl⟩ := transition
      exact .connection present moved

end ServeLoop

/-! ### One connection in every interleaving -/

namespace ConnectionTask

variable {messageLimit sessionLimit : Nat} {cancelled shutdown : Bool} {task next : ConnectionTask}
  {action : ConnectionTaskAction}

/-- A pump that was dropped in some state that it can reach. -/
def Abandoned (messageLimit sessionLimit : Nat) (pump : Pump) : Prop :=
  ∃ relayed, (Pump.machine messageLimit sessionLimit).Reachable relayed ∧ pump = relayed.abandon

/-- A task with a socket runs its pump until that has ended, or drops it. -/
structure Sound (messageLimit sessionLimit : Nat) (task : ConnectionTask) : Prop where
  pump : task.phase ≠ .finished true → ∀ pump, task.socketTask = some pump →
    (Pump.machine messageLimit sessionLimit).Reachable pump
  panicked : task.phase = .finished true → ∀ pump, task.socketTask = some pump →
    Abandoned messageLimit sessionLimit pump
  replaced : ∀ pump ∈ task.replaced, Abandoned messageLimit sessionLimit pump
  socket : task.phase = .socket → ∃ pump, task.socketTask = some pump ∧ pump.stage.isEnded = false
  finished : task.phase = .finished false → ∀ pump, task.socketTask = some pump →
    pump.stage.isEnded = true
  reaped : task.reaped = true → ∃ panicked, task.phase = .finished panicked

theorem sound_new (messageLimit sessionLimit : Nat) : Sound messageLimit sessionLimit new :=
  ⟨fun _ _ here => (by cases here), nofun, fun _ member => absurd member List.not_mem_nil, nofun,
    nofun, nofun⟩

/-- The pump of a task that Hyper still serves has not been polled. -/
def Unpolled (task : ConnectionTask) : Prop :=
  task.phase = .serving ∨ task.phase = .closing →
    ∀ pump, task.socketTask = some pump → pump.stage = .upgrading

theorem unpolled_new : new.Unpolled := fun _ _ here => by cases here

/-- A task that still runs has not been reaped. -/
theorem Sound.not_reaped (sound : Sound messageLimit sessionLimit task) {phase : ConnectionPhase}
    (here : task.phase = phase) (running : ∀ panicked, phase ≠ .finished panicked) :
    task.reaped ≠ true := by
  intro reaped
  obtain ⟨panicked, finished⟩ := sound.reaped reaped
  exact running panicked (here.symm.trans finished)

theorem afterConnection_cases (task : ConnectionTask) :
    (task.socketTask = none ∧ task.afterConnection = { task with phase := .finished false }) ∨
      ∃ pump, task.socketTask = some pump ∧ task.afterConnection = { task with phase := .socket } := by
  unfold afterConnection
  cases task.socketTask with
  | none => exact .inl ⟨rfl, rfl⟩
  | some pump => exact .inr ⟨pump, rfl, rfl⟩

theorem Sound.afterConnection (sound : Sound messageLimit sessionLimit task)
    (unpolled : task.Unpolled) (served : task.phase = .serving ∨ task.phase = .closing) :
    Sound messageLimit sessionLimit task.afterConnection ∧ task.afterConnection.Unpolled := by
  have fresh : task.reaped ≠ true := by
    obtain serving | closing := served
    · exact sound.not_reaped serving nofun
    · exact sound.not_reaped closing nofun
  have calm : task.phase ≠ .finished true := by
    obtain serving | closing := served
    · exact fun panicked => nomatch serving.symm.trans panicked
    · exact fun panicked => nomatch closing.symm.trans panicked
  obtain ⟨none, ends⟩ | ⟨pump, present, goesOn⟩ := task.afterConnection_cases
  · rw [ends]
    refine ⟨⟨fun _ => sound.pump calm, by rintro ⟨⟩, sound.replaced, nofun, fun _ pump here => ?_,
      fun _ => ⟨false, rfl⟩⟩, ?_⟩
    · cases none.symm.trans here
    · rintro (phase | phase) <;> cases phase
  · rw [goesOn]
    refine ⟨⟨fun _ => sound.pump calm, by rintro ⟨⟩, sound.replaced, fun _ => ⟨pump, present, ?_⟩,
      nofun, fun reaped => absurd reaped fresh⟩, ?_⟩
    · rw [unpolled served pump present]
      rfl
    · rintro (phase | phase) <;> cases phase

/-- A segment of the pump. -/
theorem Sound.polled (sound : Sound messageLimit sessionLimit task) (here : task.phase = .socket)
    {pump after : Pump} {action : PumpAction} (present : task.socketTask = some pump)
    (transition : pump.step action = some after) {phase : ConnectionPhase}
    (place : phase = if after.stage.isEnded then .finished false else .socket) :
    Sound messageLimit sessionLimit { task with socketTask := some after, phase } ∧
      Unpolled { task with socketTask := some after, phase } := by
  have calm : task.phase ≠ .finished true := fun panicked => nomatch here.symm.trans panicked
  have reached : (Pump.machine messageLimit sessionLimit).Reachable after :=
    (sound.pump calm pump present).step transition
  have fresh := sound.not_reaped here (by rintro _ ⟨⟩)
  cases ended : after.stage.isEnded with
  | true =>
      rw [ended, if_pos rfl] at place
      subst place
      refine ⟨⟨?_, by rintro ⟨⟩, sound.replaced, by rintro ⟨⟩, ?_,
        fun reaped => absurd reaped fresh⟩, ?_⟩
      · rintro - _ ⟨⟩
        exact reached
      · rintro - _ ⟨⟩
        exact ended
      · rintro (phase | phase) <;> cases phase
  | false =>
      rw [ended, if_neg Bool.false_ne_true] at place
      subst place
      refine ⟨⟨?_, by rintro ⟨⟩, sound.replaced, fun _ => ⟨after, rfl, ended⟩, by rintro ⟨⟩,
        fun reaped => absurd reaped fresh⟩, ?_⟩
      · rintro - _ ⟨⟩
        exact reached
      · rintro (phase | phase) <;> cases phase

theorem Sound.upgraded (sound : Sound messageLimit sessionLimit task)
    (served : task.phase = .serving ∨ task.phase = .closing) (stream : StreamId)
    (protocol : Option Bytes) {pump : Pump}
    (fresh : pump = .start (.accepted stream protocol messageLimit sessionLimit)) :
    Sound messageLimit sessionLimit { task with
      socketTask := some pump
      replaced := task.replaced ++ task.socketTask.toList.map Pump.abandon } ∧
    Unpolled { task with
      socketTask := some pump
      replaced := task.replaced ++ task.socketTask.toList.map Pump.abandon } := by
  have reached : (Pump.machine messageLimit sessionLimit).Reachable pump :=
    .of_initial ⟨stream, protocol, fresh⟩
  have calm : task.phase ≠ .finished true := by
    obtain serving | closing := served
    · exact fun panicked => nomatch serving.symm.trans panicked
    · exact fun panicked => nomatch closing.symm.trans panicked
  refine ⟨⟨?_, fun panicked => absurd panicked calm, fun old member => ?_, fun phase => ?_,
    fun phase => ?_, sound.reaped⟩, ?_⟩
  · rintro - _ ⟨⟩
    exact reached
  · obtain member | member := List.mem_append.mp member
    · exact sound.replaced old member
    · obtain ⟨relayed, held, rfl⟩ := List.mem_map.mp member
      exact ⟨relayed, sound.pump calm relayed (Option.mem_toList.mp held), rfl⟩
  · rw [show task.phase = .socket from phase] at served
    obtain other | other := served <;> cases other
  · rw [show task.phase = .finished false from phase] at served
    obtain other | other := served <;> cases other
  · rintro - _ ⟨⟩
    rw [fresh]
    rfl

theorem Sound.step (sound : Sound messageLimit sessionLimit task) (unpolled : task.Unpolled)
    (moved : task.step messageLimit sessionLimit cancelled shutdown action = some next) :
    Sound messageLimit sessionLimit next ∧ next.Unpolled := by
  cases action with
  | upgrade stream protocol =>
      simp only [ConnectionTask.step] at moved
      split at moved
      · next served =>
        cases moved
        exact sound.upgraded served stream protocol rfl
      · cases moved
  | completes =>
      simp only [ConnectionTask.step] at moved
      split at moved
      · next served =>
        cases moved
        exact sound.afterConnection unpolled served
      · cases moved
  | shutdownSignal =>
      simp only [ConnectionTask.step] at moved
      split at moved
      · next here =>
        cases moved
        have calm : task.phase ≠ .finished true :=
          fun panicked => nomatch here.1.symm.trans panicked
        exact ⟨⟨fun _ => sound.pump calm, nofun, sound.replaced, nofun, nofun, fun reaped =>
          absurd reaped (sound.not_reaped here.1 nofun)⟩, fun _ => unpolled (.inl here.1)⟩
      · cases moved
  | idle =>
      simp only [ConnectionTask.step] at moved
      split at moved
      · next here =>
        cases moved
        have calm : task.phase ≠ .finished true :=
          fun panicked => nomatch here.symm.trans panicked
        exact ⟨⟨fun _ => sound.pump calm, nofun, sound.replaced, nofun, nofun, fun reaped =>
          absurd reaped (sound.not_reaped here nofun)⟩, fun _ => unpolled (.inl here)⟩
      · cases moved
  | graceExpires =>
      simp only [ConnectionTask.step] at moved
      split at moved
      · next closing =>
        cases moved
        exact sound.afterConnection unpolled (.inr closing)
      · cases moved
  | socket pumpAction =>
      simp only [ConnectionTask.step] at moved
      split at moved
      · next here =>
        obtain ⟨pump, present, moved⟩ := Option.bind_eq_some_iff.mp moved
        obtain ⟨after, transition, rfl⟩ := Option.map_eq_some_iff.mp moved
        exact sound.polled here.1 present transition rfl
      · cases moved
  | panics =>
      simp only [ConnectionTask.step] at moved
      split at moved
      · cases moved
      · next running =>
        cases moved
        refine ⟨⟨fun calm => absurd rfl calm, fun _ pump held => ?_, sound.replaced, by rintro ⟨⟩,
          by rintro ⟨⟩, fun _ => ⟨true, rfl⟩⟩, ?_⟩
        · obtain ⟨relayed, present, rfl⟩ := Option.map_eq_some_iff.mp held
          exact ⟨relayed, sound.pump (running true) relayed present, rfl⟩
        · rintro (phase | phase) <;> cases phase

/-- Only a task that holds its permit runs. -/
theorem permits_of_step
    (moved : task.step messageLimit sessionLimit cancelled shutdown action = some next) :
    task.permits = 1 := by
  cases phase : task.phase with
  | finished panicked =>
      cases action <;> simp [ConnectionTask.step, phase] at moved
  | _ => rw [permits, phase]

/-- A task that runs has not been reaped, and none of its segments reaps it. -/
theorem Sound.runs (sound : Sound messageLimit sessionLimit task)
    (moved : task.step messageLimit sessionLimit cancelled shutdown action = some next) :
    task.reaped = false ∧ next.reaped = false ∧ ∀ panicked, task.phase ≠ .finished panicked := by
  have holds := permits_of_step moved
  have running : ∀ panicked, task.phase ≠ .finished panicked := by
    intro panicked finished
    rw [permits, finished] at holds
    cases holds
  have fresh : task.reaped = false := Bool.eq_false_iff.mpr (sound.not_reaped rfl running)
  have same : next.reaped = task.reaped := by
    cases action with
    | socket pumpAction =>
        simp only [ConnectionTask.step] at moved
        split at moved
        · obtain ⟨pump, -, moved⟩ := Option.bind_eq_some_iff.mp moved
          obtain ⟨after, -, rfl⟩ := Option.map_eq_some_iff.mp moved
          rfl
        · cases moved
    | panics =>
        simp only [ConnectionTask.step] at moved
        cases moved
        rfl
    | _ =>
        simp only [ConnectionTask.step] at moved
        split at moved <;> cases moved
        rfl
  exact ⟨fresh, same.trans fresh, running⟩

end ConnectionTask

/-! ### The loop in every interleaving -/

namespace ServeLoop

variable {config : WebIngressConfig} {source : ConnectionSource} {messageLimit sessionLimit : Nat}
  {s t : ServeLoop}

/-- The permits that this server accounts for. -/
def budget (config : WebIngressConfig) (s : ServeLoop) : ConnectionSource → Nat
  | .listener => config.maxConnections
  | .replica => s.connections.length

/-- What holds between any two steps. -/
structure Sound (config : WebIngressConfig) (source : ConnectionSource)
    (messageLimit sessionLimit : Nat) (s : ServeLoop) : Prop where
  connections : ∀ task ∈ s.connections, task.Sound messageLimit sessionLimit ∧ task.Unpolled
  permits : s.permits + s.openConnections = s.budget config source
  shutdown : s.shutdown = true ↔ s.stage ≠ .accepting
  calm : s.stage = .accepting → ∀ task ∈ s.connections, task.reaped = true →
    task.phase = .finished false
  draining : ∀ result, s.stage = .draining result → result ≠ .error .connectionTask ∧
    (result = .ok () → s.cancelled = true ∨ source = .replica)
  returned : ∀ result, s.stage = .returned result → result ≠ .error .connectionTask →
    (∀ task ∈ s.connections, task.reaped = true) ∧
      (result = .ok () → s.cancelled = true ∨ source = .replica)
  failed : s.stage = .returned (.error .connectionTask) →
    ∃ task ∈ s.connections, task.phase = .finished true

theorem sound_initial (config : WebIngressConfig) (source : ConnectionSource)
    (messageLimit sessionLimit : Nat) :
    Sound config source messageLimit sessionLimit
      ⟨false, false, .accepting, ownPermits config source, []⟩ where
  connections := fun _ member => absurd member List.not_mem_nil
  permits := by cases source <;> rfl
  shutdown := ⟨nofun, fun other => absurd rfl other⟩
  calm := fun _ _ member => absurd member List.not_mem_nil
  draining := nofun
  returned := nofun
  failed := nofun

theorem Sound.drain (sound : Sound config source messageLimit sessionLimit s)
    {result : Except ServeError Unit} (other : result ≠ .error .connectionTask)
    (cause : result = .ok () → s.cancelled = true ∨ source = .replica) :
    Sound config source messageLimit sessionLimit (s.drain result) where
  connections := sound.connections
  permits := by cases source <;> exact sound.permits
  shutdown := ⟨fun _ => nofun, fun _ => rfl⟩
  calm := nofun
  draining := by
    rintro _ ⟨⟩
    exact ⟨other, cause⟩
  returned := nofun
  failed := nofun

theorem Sound.admits (sound : Sound config source messageLimit sessionLimit s)
    (accepting : s.stage = .accepting) :
    Sound config source messageLimit sessionLimit (s.admits source) := by
  have joined : ∀ {permits : Nat}, permits + 1 + s.openConnections = s.budget config source + (
      match source with | .listener => 0 | .replica => 1) →
      Sound config source messageLimit sessionLimit
        { s with permits, connections := s.connections ++ [.new] } := by
    intro permits balance
    have everyone : ∀ {P : ConnectionTask → Prop}, (∀ task ∈ s.connections, P task) → P .new →
        ∀ task ∈ s.connections ++ [.new], P task := by
      intro P old new task member
      obtain member | member := List.mem_append.mp member
      · exact old task member
      · rw [List.mem_singleton.mp member]
        exact new
    constructor
    · exact everyone sound.connections
        ⟨ConnectionTask.sound_new messageLimit sessionLimit, ConnectionTask.unpolled_new⟩
    · have one : census ConnectionTask.permits (s.connections ++ [.new]) =
          s.openConnections + 1 := by
        rw [census_append, census_cons, census_nil]
        rfl
      rw [openConnections, one]
      cases source with
      | listener =>
          simp only [budget, Nat.add_zero] at balance ⊢
          omega
      | replica =>
          simp only [budget, List.length_append, List.length_singleton] at balance ⊢
          omega
    · exact sound.shutdown
    · intro here
      exact everyone (sound.calm here) nofun
    · exact sound.draining
    · intro result here
      cases accepting.symm.trans here
    · intro here
      cases accepting.symm.trans here
  have balance := sound.permits
  unfold ServeLoop.admits
  cases source with
  | replica => exact joined (by dsimp only; omega)
  | listener =>
      dsimp only
      split
      · exact sound
      · next some => exact joined (by dsimp only; omega)

/-- Replacing a task leaves the budget as it is. -/
theorem budget_set (config : WebIngressConfig) (source : ConnectionSource) (s : ServeLoop)
    (permits : Nat) (index : Nat) (next : ConnectionTask) :
    budget config { s with permits, connections := s.connections.set index next } source =
      s.budget config source := by
  cases source with
  | listener => rfl
  | replica => exact List.length_set

theorem Sound.reap (sound : Sound config source messageLimit sessionLimit s) {index : Nat}
    {task : ConnectionTask} (present : s.connections[index]? = some task) {panicked : Bool}
    (finished : task.phase = .finished panicked)
    (calm : s.stage = .accepting ∧ panicked = false ∨ ∃ result, s.stage = .draining result) :
    Sound config source messageLimit sessionLimit (s.reap index task) := by
  have prior := sound.connections task (List.mem_of_getElem? present)
  have same := census_set ConnectionTask.permits present { task with reaped := true }
  constructor
  · intro other member
    obtain member | rfl := List.mem_or_eq_of_mem_set member
    · exact sound.connections other member
    · exact ⟨{ prior.1 with reaped := fun _ => ⟨panicked, finished⟩ }, prior.2⟩
  · rw [ServeLoop.reap, budget_set, ← sound.permits]
    have held : ConnectionTask.permits { task with reaped := true } = task.permits := rfl
    rw [held] at same
    exact congrArg (s.permits + ·) (Nat.add_right_cancel same)
  · exact sound.shutdown
  · intro here other member reaped
    obtain member | rfl := List.mem_or_eq_of_mem_set member
    · exact sound.calm here other member reaped
    · obtain ⟨-, rfl⟩ | ⟨result, draining⟩ := calm
      · exact finished
      · cases draining.symm.trans here
  · exact sound.draining
  · intro result here
    obtain ⟨accepting, -⟩ | ⟨result, draining⟩ := calm
    · cases accepting.symm.trans here
    · cases draining.symm.trans here
  · intro here
    obtain ⟨accepting, -⟩ | ⟨result, draining⟩ := calm
    · cases accepting.symm.trans here
    · cases draining.symm.trans here

theorem Sound.move (sound : Sound config source messageLimit sessionLimit s) {index : Nat}
    {task next : ConnectionTask} {action : ConnectionTaskAction}
    (present : s.connections[index]? = some task)
    (moved : task.step messageLimit sessionLimit s.cancelled s.shutdown action = some next) :
    Sound config source messageLimit sessionLimit (s.move index task next) := by
  have prior := sound.connections task (List.mem_of_getElem? present)
  obtain ⟨fresh, after, running⟩ := prior.1.runs moved
  have one := ConnectionTask.permits_of_step moved
  have shift := census_set ConnectionTask.permits present next
  constructor
  · intro other member
    obtain member | rfl := List.mem_or_eq_of_mem_set member
    · exact sound.connections other member
    · exact prior.1.step prior.2 moved
  · have most : next.permits ≤ 1 := by
      unfold ConnectionTask.permits
      split <;> omega
    have balance := sound.permits
    rw [ServeLoop.move, budget_set, openConnections]
    unfold openConnections at balance
    dsimp only
    omega
  · exact sound.shutdown
  · intro here other member reaped
    obtain member | rfl := List.mem_or_eq_of_mem_set member
    · exact sound.calm here other member reaped
    · cases after.symm.trans reaped
  · exact sound.draining
  · intro result here other
    obtain ⟨all, -⟩ := sound.returned result here other
    cases fresh.symm.trans (all task (List.mem_of_getElem? present))
  · intro here
    obtain ⟨other, member, panicked⟩ := sound.failed here
    obtain ⟨place, found⟩ := List.mem_iff_getElem?.mp member
    have apart : index ≠ place := by
      rintro rfl
      rw [present] at found
      cases found
      exact running true panicked
    exact ⟨other, List.mem_of_getElem? ((List.getElem?_set_ne apart).trans found), panicked⟩

theorem Sound.step (sound : Sound config source messageLimit sessionLimit s) {action : ServeAction}
    (transition : ServeStep source messageLimit sessionLimit s action t) :
    Sound config source messageLimit sessionLimit t := by
  cases transition with
  | cancel =>
      refine ⟨sound.connections, ?_, sound.shutdown, sound.calm, ?_, ?_, sound.failed⟩
      · cases source <;> exact sound.permits
      · exact fun result here => ⟨(sound.draining result here).1, fun _ => .inl rfl⟩
      · exact fun result here other => ⟨(sound.returned result here other).1, fun _ => .inl rfl⟩
  | seesCancellation accepting cancelled => exact sound.drain nofun fun _ => .inl cancelled
  | admits accepting => exact sound.admits accepting
  | exhausted accepting shared => exact sound.drain nofun fun _ => .inr shared
  | acceptFails accepting error => exact sound.drain nofun nofun
  | reap present finished fresh calm => exact sound.reap present finished calm
  | @fail index task accepting present panicked fresh =>
      have prior := sound.connections task (List.mem_of_getElem? present)
      have same := census_set ConnectionTask.permits present { task with reaped := true }
      constructor
      · intro other member
        obtain member | rfl := List.mem_or_eq_of_mem_set member
        · exact sound.connections other member
        · exact ⟨{ prior.1 with reaped := fun _ => ⟨true, panicked⟩ }, prior.2⟩
      · have balance := sound.permits
        have held : ConnectionTask.permits { task with reaped := true } = task.permits := rfl
        rw [held] at same
        rw [← budget_set config source s s.permits index { task with reaped := true },
          openConnections, ← Nat.add_right_cancel same] at balance
        cases source <;> exact balance
      · exact ⟨fun _ => nofun, fun _ => rfl⟩
      · exact nofun
      · exact nofun
      · rintro _ ⟨⟩ other
        exact absurd rfl other
      · intro _
        have inside := (List.getElem?_eq_some_iff.mp present).1
        exact ⟨_, List.mem_set inside _, panicked⟩
  | drained draining all =>
      obtain ⟨other, cause⟩ := sound.draining _ draining
      refine ⟨sound.connections, ?_, ?_, nofun, nofun, ?_, ?_⟩
      · cases source <;> exact sound.permits
      · exact ⟨fun _ => nofun, fun _ => sound.shutdown.mpr (by rw [draining]; exact nofun)⟩
      · rintro _ ⟨⟩ -
        exact ⟨all, cause⟩
      · rintro ⟨⟩
        exact absurd rfl other
  | connection present moved => exact sound.move present moved

theorem sound_of_reachable
    (reached : (machine config source messageLimit sessionLimit).Reachable s) :
    Sound config source messageLimit sessionLimit s := by
  refine reached.invariant (P := Sound config source messageLimit sessionLimit) ?_ ?_
  · rintro s rfl
    exact sound_initial config source messageLimit sessionLimit
  · intro u action v _ prior transition
    exact prior.step (serveStep_of_step transition)

/-- Once the connections have been told to end, no other is taken in. -/
theorem length_of_shutdown (reached : (machine config source messageLimit sessionLimit).Reachable s)
    (shutdown : s.shutdown = true) {actions : List ServeAction}
    (execution : (machine config source messageLimit sessionLimit).run actions s = some t) :
    t.shutdown = true ∧ t.connections.length = s.connections.length := by
  have kept : (machine config source messageLimit sessionLimit).Reachable t ∧
      t.shutdown = true ∧ t.connections.length = s.connections.length := by
    refine Machine.run_preserves (P := fun u =>
      (machine config source messageLimit sessionLimit).Reachable u ∧
        u.shutdown = true ∧ u.connections.length = s.connections.length) ?_
      ⟨reached, shutdown, rfl⟩ execution
    rintro u action v ⟨reached, shutdown, same⟩ transition
    refine ⟨reached.step transition, ?_⟩
    have stopped := (sound_of_reachable reached).shutdown.mp shutdown
    cases serveStep_of_step transition with
    | cancel => exact ⟨shutdown, same⟩
    | seesCancellation accepting => exact absurd accepting stopped
    | admits accepting => exact absurd accepting stopped
    | exhausted accepting => exact absurd accepting stopped
    | acceptFails accepting => exact absurd accepting stopped
    | reap => exact ⟨shutdown, List.length_set.trans same⟩
    | fail accepting => exact absurd accepting stopped
    | drained => exact ⟨shutdown, same⟩
    | connection => exact ⟨shutdown, List.length_set.trans same⟩
  exact kept.2

theorem openConnections_eq_zero {connections : List ConnectionTask}
    (finished : ∀ task ∈ connections, ∃ panicked, task.phase = .finished panicked) :
    census ConnectionTask.permits connections = 0 := by
  induction connections with
  | nil => rfl
  | cons task rest ih =>
      obtain ⟨panicked, phase⟩ := finished task List.mem_cons_self
      rw [census_cons, ih fun other member => finished other (List.mem_cons_of_mem _ member),
        ConnectionTask.permits, phase]

/-- A pump that is dropped cancels its session. -/
theorem cancelled_of_abandoned {pump : Pump}
    (abandoned : ConnectionTask.Abandoned messageLimit sessionLimit pump) :
    pump.shared.session.cancelled = true := by
  obtain ⟨relayed, -, rfl⟩ := abandoned
  rfl

/-- The server loop, whatever its connections do. Permits are neither lost nor doubled; shutdown
is announced exactly when the loop stops accepting, and nothing is taken in after that; the loop
goes on only while no connection it reaped has panicked; it returns without such a panic only
when no connection is left; and every socket is relayed, perhaps until it is dropped, and has its
session cancelled by the time its connection is over, however that has ended. -/
theorem serve_safe (reached : (machine config source messageLimit sessionLimit).Reachable s) :
    s.permits + s.openConnections = s.budget config source ∧
    (s.shutdown = true ↔ s.stage ≠ .accepting) ∧
    (s.shutdown = true → ∀ actions t,
      (machine config source messageLimit sessionLimit).run actions s = some t →
        t.connections.length = s.connections.length) ∧
    (s.stage = .accepting → ∀ task ∈ s.connections, task.reaped = true →
      task.phase = .finished false) ∧
    (∀ task ∈ s.connections, ∀ pump ∈ task.sockets,
      (∃ relayed, (Pump.machine messageLimit sessionLimit).Reachable relayed ∧
        (pump = relayed ∨ pump = relayed.abandon)) ∧
      ∀ panicked, task.phase = .finished panicked → pump.shared.session.cancelled = true) ∧
    (s.stage = .returned (.error .connectionTask) →
      ∃ task ∈ s.connections, task.phase = .finished true) ∧
    ∀ result, s.stage = .returned result → result ≠ .error .connectionTask →
      s.openConnections = 0 ∧ (result = .ok () → s.cancelled = true ∨ source = .replica) := by
  have sound := sound_of_reachable reached
  refine ⟨sound.permits, sound.shutdown,
    fun shutdown actions t execution => (length_of_shutdown reached shutdown execution).2,
    sound.calm, fun task member pump held => ?_, sound.failed, fun result stage other => ?_⟩
  · have own := (sound.connections task member).1
    have dropped : ConnectionTask.Abandoned messageLimit sessionLimit pump →
        (∃ relayed, (Pump.machine messageLimit sessionLimit).Reachable relayed ∧
          (pump = relayed ∨ pump = relayed.abandon)) ∧
        ∀ panicked, task.phase = .finished panicked → pump.shared.session.cancelled = true := by
      intro abandoned
      have cancelled := cancelled_of_abandoned abandoned
      obtain ⟨relayed, reaches, same⟩ := abandoned
      exact ⟨⟨relayed, reaches, .inr same⟩, fun _ _ => cancelled⟩
    obtain old | present := List.mem_append.mp held
    · exact dropped (own.replaced pump old)
    have present := Option.mem_toList.mp present
    by_cases panicked : task.phase = .finished true
    · exact dropped (own.panicked panicked pump present)
    · have reaches := own.pump panicked pump present
      refine ⟨⟨pump, reaches, .inl rfl⟩, fun ending finished => ?_⟩
      cases ending with
      | true => exact absurd finished panicked
      | false =>
          have ended := own.finished finished pump present
          have relays := Pump.sound_of_reachable reaches
          cases stage : pump.stage with
          | ended completed =>
              rw [Pump.Sound, stage] at relays
              exact relays.2.cancelled
          | _ =>
              rw [stage] at ended
              cases ended
  · obtain ⟨all, cause⟩ := sound.returned result stage other
    refine ⟨openConnections_eq_zero fun task member => ?_, cause⟩
    exact (sound.connections task member).1.reaped (all task member)

/-- Two connections, of which one is upgraded, when the server is asked to end. -/
def upgradedThenCancelled : List ServeAction :=
  [.accepts .stream, .accepts .stream, .connection 0 (.upgrade 0 none), .connection 0 .completes,
    .connection 0 (.socket (.upgraded true)), .cancel]

/-- The server and the clock end them. -/
def drainsBoth : List ServeAction :=
  [.seesCancellation, .connection 1 .shutdownSignal, .connection 0 (.socket .cancel),
    .connection 1 .graceExpires, .reaps 1, .connection 0 (.socket .reported), .reaps 0, .drained]

theorem serve_safe_drains :
    ∃ s, (machine .default .listener 4 8).Reachable s ∧ s.stage = .returned (.ok ()) ∧
      s.connections.length = 2 ∧ s.openConnections = 0 ∧ s.permits = 1024 := by
  have outcome : ∃ s, (machine .default .listener 4 8).Reachable s ∧
      s.stage = .returned (.ok ()) ∧ s.connections.length = 2 :=
    ⟨_, ⟨_, upgradedThenCancelled ++ drainsBoth, rfl, rfl⟩, rfl, rfl⟩
  obtain ⟨s, reached, stage, two⟩ := outcome
  obtain ⟨permits, -, -, -, -, -, returned⟩ := serve_safe reached
  obtain ⟨none, -⟩ := returned (.ok ()) stage nofun
  rw [none, Nat.add_zero] at permits
  exact ⟨s, reached, stage, two, none, permits⟩

end ServeLoop

/-! ### Shutdown -/

/-- What the pump does without its peer and its provider. -/
def PumpAction.Own : PumpAction → Prop
  | .upgraded succeeded => succeeded = false
  | .expire => True
  | .cancel => True
  | .reported => True
  | _ => False

/-- What the server does without its peers and its providers. -/
def ServeAction.Own : ServeAction → Prop
  | .seesCancellation => True
  | .reaps _ => True
  | .drained => True
  | .connection _ .shutdownSignal => True
  | .connection _ .graceExpires => True
  | .connection _ .idle => True
  | .connection _ (.socket action) => action.Own
  | _ => False

def PumpStage.rank : PumpStage → Nat
  | .upgrading => 2
  | .exchanging => 2
  | .reporting => 1
  | .ended _ => 0

def ConnectionTask.rank (task : ConnectionTask) : Nat :=
  match task.phase with
  | .serving => 5
  | .closing => 4
  | .socket => 1 + task.socketTask.elim 0 fun pump => pump.stage.rank
  | .finished _ => (!task.reaped).toNat

def ServeStage.rank : ServeStage → Nat
  | .accepting => 2
  | .draining _ => 1
  | .returned _ => 0

namespace ServeLoop

variable {config : WebIngressConfig} {source : ConnectionSource} {messageLimit sessionLimit : Nat}
  {s t : ServeLoop}

def rank (s : ServeLoop) : Nat := s.stage.rank + census ConnectionTask.rank s.connections

end ServeLoop

theorem Pump.rank_lt {pump next : Pump} {action : PumpAction} (own : action.Own)
    (transition : pump.step action = some next) : next.stage.rank < pump.stage.rank := by
  cases action with
  | upgraded succeeded =>
      obtain rfl : succeeded = false := own
      simp only [Pump.step] at transition
      split at transition
      · cases transition
      · next here =>
        push Not at here
        cases transition
        rw [here]
        exact Nat.zero_lt_two
  | expire =>
      simp only [Pump.step] at transition
      split at transition
      · cases transition
      · next here =>
        push Not at here
        cases transition
        rw [here]
        exact Nat.one_lt_two
  | cancel =>
      simp only [Pump.step] at transition
      split at transition
      · next here =>
        cases transition
        rw [here]
        exact Nat.zero_lt_two
      · next here =>
        cases transition
        rw [here]
        exact Nat.one_lt_two
      · cases transition
  | reported =>
      simp only [Pump.step] at transition
      split at transition
      · cases transition
      · next here =>
        push Not at here
        cases transition
        rw [here]
        exact Nat.zero_lt_one
  | _ => exact absurd own id

theorem PumpStage.rank_le (stage : PumpStage) : stage.rank ≤ 2 := by
  cases stage with
  | upgrading => exact le_refl 2
  | exchanging => exact le_refl 2
  | reporting => exact Nat.one_le_ofNat
  | ended completed => exact Nat.zero_le 2

/-- The rank of a task behind its HTTP connection. -/
theorem ConnectionTask.rank_socket_le (task : ConnectionTask) :
    (1 + task.socketTask.elim 0 fun pump => pump.stage.rank) ≤ 3 := by
  cases task.socketTask with
  | none => exact Nat.one_le_ofNat
  | some pump => exact Nat.add_le_add_left pump.stage.rank_le 1

theorem ConnectionTask.rank_afterConnection (task : ConnectionTask) :
    task.afterConnection.rank ≤ 3 := by
  obtain ⟨-, ends⟩ | ⟨pump, -, goesOn⟩ := task.afterConnection_cases
  · rw [ends]
    exact le_trans (Bool.toNat_le _) Nat.one_le_ofNat
  · rw [goesOn]
    exact task.rank_socket_le

theorem ConnectionTask.rank_le (task : ConnectionTask) : task.rank ≤ 5 := by
  unfold ConnectionTask.rank
  split
  · exact le_refl 5
  · exact Nat.le_succ 4
  · exact le_trans task.rank_socket_le (Nat.le_add_right 3 2)
  · exact le_trans (Bool.toNat_le _) Nat.one_le_ofNat

theorem ConnectionTask.rank_lt {messageLimit sessionLimit : Nat} {cancelled shutdown : Bool}
    {task next : ConnectionTask} {action : ConnectionTaskAction} {index : Nat}
    (own : (ServeAction.connection index action).Own)
    (moved : task.step messageLimit sessionLimit cancelled shutdown action = some next) :
    next.rank < task.rank := by
  cases action with
  | shutdownSignal =>
      simp only [ConnectionTask.step] at moved
      split at moved
      · next here =>
        cases moved
        rw [ConnectionTask.rank, ConnectionTask.rank, here.1]
        exact Nat.lt_succ_self 4
      · cases moved
  | idle =>
      simp only [ConnectionTask.step] at moved
      split at moved
      · next here =>
        cases moved
        rw [ConnectionTask.rank, ConnectionTask.rank, here]
        exact Nat.lt_succ_self 4
      · cases moved
  | graceExpires =>
      simp only [ConnectionTask.step] at moved
      split at moved
      · next here =>
        cases moved
        have most := task.rank_afterConnection
        have four : task.rank = 4 := by rw [ConnectionTask.rank, here]
        omega
      · cases moved
  | socket pumpAction =>
      simp only [ConnectionTask.step] at moved
      split at moved
      · next here =>
        obtain ⟨pump, present, moved⟩ := Option.bind_eq_some_iff.mp moved
        obtain ⟨after, transition, rfl⟩ := Option.map_eq_some_iff.mp moved
        have lower := Pump.rank_lt own transition
        have before : task.rank = 1 + pump.stage.rank := by
          rw [ConnectionTask.rank, here.1, present]
          rfl
        rw [before]
        cases after.stage.isEnded with
        | true =>
            have last : Bool.toNat (!task.reaped) ≤ 1 := Bool.toNat_le _
            refine lt_of_le_of_lt last ?_
            omega
        | false => exact Nat.add_lt_add_left lower 1
      · cases moved
  | _ => exact absurd own id

namespace ServeLoop

variable {config : WebIngressConfig} {source : ConnectionSource} {messageLimit sessionLimit : Nat}
  {s t : ServeLoop}

/-- The server cannot stay busy with itself. -/
theorem lowers_rank (config : WebIngressConfig) (source : ConnectionSource)
    (messageLimit sessionLimit : Nat) :
    (machine config source messageLimit sessionLimit).Lowers ServeAction.Own rank := by
  intro s action t own transition
  have reaped : ∀ {index : Nat} {task : ConnectionTask} {panicked : Bool},
      s.connections[index]? = some task → task.phase = .finished panicked → task.reaped = false →
      census ConnectionTask.rank (s.reap index task).connections <
        census ConnectionTask.rank s.connections := by
    intro index task panicked present finished fresh
    have shift := census_set ConnectionTask.rank present { task with reaped := true }
    have one : task.rank = 1 := by
      rw [ConnectionTask.rank, finished, fresh]
      rfl
    have zero : ConnectionTask.rank { task with reaped := true } = 0 := by
      rw [ConnectionTask.rank, finished]
      rfl
    unfold reap
    dsimp only
    omega
  cases serveStep_of_step transition with
  | cancel => exact absurd own id
  | seesCancellation accepting =>
      rw [rank, rank, accepting]
      exact Nat.add_lt_add_right Nat.one_lt_two _
  | admits => exact absurd own id
  | exhausted => exact absurd own id
  | acceptFails => exact absurd own id
  | reap present finished fresh => exact Nat.add_lt_add_left (reaped present finished fresh) _
  | fail accepting present panicked fresh =>
      rw [rank, rank, accepting]
      exact Nat.add_lt_add Nat.zero_lt_two (reaped present panicked fresh)
  | drained draining =>
      rw [rank, rank, draining]
      exact Nat.add_lt_add_right Nat.zero_lt_one _
  | @connection index task next action present moved =>
      have shift := census_set ConnectionTask.rank present next
      have lower := ConnectionTask.rank_lt own moved
      unfold rank move
      dsimp only
      omega

/-- Where the server itself can do nothing any more, it has returned. -/
theorem returned_of_settled
    (reached : (machine config source messageLimit sessionLimit).Reachable s)
    (asked : s.cancelled = true ∨ s.shutdown = true)
    (settled : (machine config source messageLimit sessionLimit).Settled ServeAction.Own s) :
    ∃ result, s.stage = .returned result := by
  have sound := sound_of_reachable reached
  cases stage : s.stage with
  | returned result => exact ⟨result, rfl⟩
  | accepting =>
      have open' : s.shutdown ≠ true := fun shutdown => sound.shutdown.mp shutdown stage
      have blocked := settled .seesCancellation trivial
      simp [machine, step, stage, asked.resolve_right open'] at blocked
  | draining result =>
      have shutdown : s.shutdown = true := sound.shutdown.mpr (by rw [stage]; exact nofun)
      by_cases all : ∀ task ∈ s.connections, task.reaped = true
      · have blocked := settled .drained trivial
        simp only [machine, step, stage, List.all_eq_true.mpr all, if_true] at blocked
        cases blocked
      · push Not at all
        obtain ⟨task, member, fresh⟩ := all
        obtain ⟨index, present⟩ := List.mem_iff_getElem?.mp member
        have stuck : ∀ action, (ServeAction.connection index action).Own →
            task.step messageLimit sessionLimit s.cancelled s.shutdown action = none := by
          intro action own
          have blocked := settled (.connection index action) own
          cases moved : task.step messageLimit sessionLimit s.cancelled s.shutdown action with
          | none => rfl
          | some next =>
              simp only [machine, step, present, Option.bind_eq_bind, Option.bind_some, moved] at blocked
              cases blocked
        cases phase : task.phase with
        | serving =>
            have blocked := stuck .shutdownSignal trivial
            simp [ConnectionTask.step, phase, shutdown] at blocked
        | closing =>
            have blocked := stuck .graceExpires trivial
            simp [ConnectionTask.step, phase] at blocked
        | socket =>
            obtain ⟨pump, running, unended⟩ := (sound.connections task member).1.socket phase
            cases place : pump.stage with
            | upgrading =>
                have blocked := stuck (.socket (.upgraded false)) rfl
                simp [ConnectionTask.step, phase, running, Pump.step, place,
                  PumpAction.permitted] at blocked
            | exchanging =>
                have blocked := stuck (.socket .expire) trivial
                simp [ConnectionTask.step, phase, running, Pump.step, place,
                  PumpAction.permitted] at blocked
            | reporting =>
                have blocked := stuck (.socket .reported) trivial
                simp [ConnectionTask.step, phase, running, Pump.step, place,
                  PumpAction.permitted] at blocked
            | ended completed =>
                rw [place] at unended
                cases unended
        | finished panicked =>
            have blocked := settled (.reaps index) trivial
            simp [machine, step, present, stage, phase, fresh] at blocked

/-- A request to end is not taken back. -/
theorem asked_of_run {actions : List ServeAction} (asked : s.cancelled = true ∨ s.shutdown = true)
    (execution : (machine config source messageLimit sessionLimit).run actions s = some t) :
    t.cancelled = true ∨ t.shutdown = true := by
  refine Machine.run_preserves (P := fun u => u.cancelled = true ∨ u.shutdown = true) ?_ asked
    execution
  intro u action v asked transition
  cases serveStep_of_step transition with
  | cancel => exact .inl rfl
  | seesCancellation => exact .inr rfl
  | admits =>
      cases source with
      | replica => exact asked
      | listener =>
          unfold admits
          dsimp only
          split <;> exact asked
  | exhausted => exact .inr rfl
  | acceptFails => exact .inr rfl
  | reap => exact asked
  | fail => exact .inr rfl
  | drained => exact asked
  | connection => exact asked

/-- Once the server is to end, it needs neither its peers nor its providers for that: whatever
state its connections and sockets are in, its own segments are at most so many, and if they are
broken off they can be continued until the loop has returned. -/
theorem serve_ends (reached : (machine config source messageLimit sessionLimit).Reachable s)
    (asked : s.cancelled = true ∨ s.shutdown = true) {actions : List ServeAction}
    (own : ∀ action ∈ actions, action.Own)
    (execution : (machine config source messageLimit sessionLimit).run actions s = some t) :
    actions.length ≤ 5 * s.connections.length + 2 ∧
    ∃ more u, (∀ action ∈ more, action.Own) ∧
      (machine config source messageLimit sessionLimit).run more t = some u ∧
      ∃ result, u.stage = .returned result := by
  have lowers := lowers_rank config source messageLimit sessionLimit
  constructor
  · have short := lowers.length_add_rank_le own execution
    have stage : s.stage.rank ≤ 2 := by
      unfold ServeStage.rank
      split <;> omega
    have connections : census ConnectionTask.rank s.connections ≤ s.connections.length * 5 := by
      rw [census, ← List.length_map ConnectionTask.rank]
      refine List.sum_le_card_nsmul _ 5 fun rank member => ?_
      obtain ⟨task, -, rfl⟩ := List.mem_map.mp member
      exact task.rank_le
    unfold rank at short
    omega
  · obtain ⟨more, u, chosen, rest, settled⟩ := lowers.exists_settled t
    refine ⟨more, u, chosen, rest, ?_⟩
    exact returned_of_settled ((reached.run execution).run rest)
      (asked_of_run (asked_of_run asked execution) rest) settled

theorem serve_ends_drains :
    ∃ s, (machine .default .listener 4 8).Reachable s ∧ drainsBoth.length ≤ 12 ∧
      ∃ more u, (machine .default .listener 4 8).run more s = some u ∧
        ∃ result, u.stage = .returned result := by
  have outcome : ∃ s t, (machine .default .listener 4 8).Reachable s ∧ s.cancelled = true ∧
      s.connections.length = 2 ∧ (machine .default .listener 4 8).run drainsBoth s = some t :=
    ⟨_, _, ⟨_, upgradedThenCancelled, rfl, rfl⟩, rfl, rfl, rfl⟩
  obtain ⟨s, t, reached, cancelled, two, execution⟩ := outcome
  have own : ∀ action ∈ drainsBoth, action.Own := by
    simp [drainsBoth, ServeAction.Own, PumpAction.Own]
  obtain ⟨short, more, u, -, rest, returned⟩ := serve_ends reached (.inl cancelled) own execution
  rw [two] at short
  refine ⟨s, reached, short, drainsBoth ++ more, u, ?_, returned⟩
  rw [Machine.run_append, execution]
  exact rest

end ServeLoop

end Ingress
