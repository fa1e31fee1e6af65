import LensoWeb.Egress.Authority
import LensoWeb.Egress.Parity
import LensoWeb.Foundation.Census
import LensoWeb.Foundation.Transition

/-!
# Concurrent calls of an Egress Plugin

Both implementations treat a call alike: it looks at the token, takes a permit, lets the
policy prepare the request, waits for the transport or the token, and reads the response.
They differ in what goes out and in how a response is read.

A call keeps the provider that was there when it was made. The native Plugin can be
deactivated and prepared again, which makes a provider with permits of its own, while
calls of the old one go on.
-/

namespace Egress

open Foundation Http

/-! ### The two implementations -/

/-- What a response that is returned must respect. -/
structure SendResponse.Bounded (config : HttpEgressConfig) (response : SendResponse) : Prop where
  body : response.body.length ≤ config.maxResponseBodyBytes
  head : Budget.total itemBytes response.headers ≤ config.maxResponseHeadBytes

/-- An implementation of `ClientProvider`: `ω` is what goes out, `ρ` what comes back.
`restarts` says whether it has a lifecycle that can prepare it again. -/
structure Client (config : HttpEgressConfig) (ω ρ : Type) where
  target : Target
  restarts : Bool
  accepts : Bool
  outgoing : PreparedRequest → Except SendError ω
  answer : PreparedRequest → ρ → Except SendError SendResponse
  bounded : config.limitsValid → ∀ prepared received response,
    answer prepared received = .ok response → response.Bounded config

namespace Client

variable {config : HttpEgressConfig} {ω ρ : Type}

/-- The part of `execute` before the transport. -/
def prepare (client : Client config ω ρ) (parser : UrlParser) (allowedOrigins : Finset Bytes)
    (request : SendRequest) : Except SendError (PreparedRequest × ω) := do
  let prepared ← prepareRequest client.target parser config allowedOrigins request
  let outgoing ← client.outgoing prepared
  return (prepared, outgoing)

/-- A whole call, with a transport that answers. -/
def execute (client : Client config ω ρ) (transport : ω → ρ) (parser : UrlParser)
    (allowedOrigins : Finset Bytes) (request : SendRequest) : Except SendError SendResponse := do
  let (prepared, outgoing) ← client.prepare parser allowedOrigins request
  client.answer prepared (transport outgoing)

end Client

theorem total_headerItem (fields : List (HeaderName × HeaderValue)) :
    Budget.total itemBytes (fields.map headerItem) = Budget.total fieldBytes fields := by
  unfold Budget.total
  rw [List.map_map]
  rfl

/-- A head that is returned fits the budget. -/
theorem head_of_responseHeaders {target : Target} {config : HttpEgressConfig}
    (limits : config.limitsValid) {headers : HeaderMap} {result : List HeaderItem}
    (read : responseHeaders target headers config.maxResponseHeadBytes = .ok result) :
    Budget.total itemBytes result ≤ config.maxResponseHeadBytes := by
  obtain ⟨-, -, -, ⟨-, headBounded⟩, -⟩ := limits
  have fits := target.limit_lt (headBounded.trans (by decide))
  obtain ⟨-, -, paid, rfl⟩ := (responseHeaders_eq_ok fits).mp read
  rw [total_headerItem]
  exact paid

namespace HttpEgressProvider

/-- However its chunks come, a body that is returned fits the limit. -/
theorem length_of_readBoundedBody {limit : Nat} (fits : limit + 1 < 2 ^ Target.native.usizeBits)
    {chunks : List (Except TransportError Bytes)} {body : Bytes}
    (read : readBoundedBody limit chunks = .ok body) : body.length ≤ limit := by
  rw [readBoundedBody_eq (.inl fits)] at read
  cases outcome : BoundedRead.readFrom id limit [] chunks with
  | whole contents =>
      rw [outcome] at read
      cases read
      cases BoundedRead.reads_iff.mpr outcome with
      | whole items small => exact small
  | tooLarge =>
      rw [outcome] at read
      cases read
  | failed failure =>
      rw [outcome] at read
      cases read

/-- The native implementation. -/
def client (config : HttpEgressConfig) :
    Client config PreparedRequest (Except TransportError ReceivedResponse) where
  target := .native
  restarts := true
  accepts := true
  outgoing := .ok
  answer _ received := do
    let response ← received.mapError classifyTransportError
    readResponse config response
  bounded := by
    intro limits prepared received result answered
    obtain ⟨response, -, read⟩ := Result.bind_eq_ok.mp answered
    obtain ⟨headers, filtered, continued⟩ := Result.bind_eq_ok.mp read
    split at continued
    · cases continued
    · obtain ⟨body, whole, returned⟩ := Result.bind_eq_ok.mp continued
      cases returned
      have bodyFits := Target.native.limit_lt limits.2.1.2
      exact ⟨length_of_readBoundedBody bodyFits whole, head_of_responseHeaders limits filtered⟩

theorem execute_client (config : HttpEgressConfig)
    (transport : PreparedRequest → Except TransportError ReceivedResponse) (parser : UrlParser)
    (allowedOrigins : Finset Bytes) (request : SendRequest) :
    (client config).execute transport parser allowedOrigins request =
      execute transport parser config allowedOrigins request := by
  unfold Client.execute Client.prepare execute client
  cases prepareRequest .native parser config allowedOrigins request <;> rfl

end HttpEgressProvider

namespace EventProvider

/-- What `HttpEgressEventFactory::instantiate` refuses besides an invalid configuration. -/
def accepts (config : HttpEgressConfig) : Bool :=
  config.httpVersion == .auto && config.connectTimeoutMillis == config.requestTimeoutMillis

/-- The event implementation. -/
def client (uris : UriParser) (agent : HeaderValue) (config : HttpEgressConfig) :
    Client config HttpEventRequest (Except HttpEventError (Response Bytes)) where
  target := .workers
  restarts := false
  accepts := accepts config
  outgoing prepared :=
    match uris.parse prepared.url.text with
    | none => .error .invalidRequest
    | some uri =>
        if prepared.headers.HasRoom then .ok (eventRequest agent config prepared uri)
        else .error .unwound
  answer prepared received := do
    let response ← received.mapError HttpEventError.toSendError
    acceptResponse config (prepared.method == .head) response
  bounded := by
    intro limits prepared received result answered
    obtain ⟨response, -, accepted⟩ := Result.bind_eq_ok.mp answered
    unfold acceptResponse at accepted
    split at accepted
    · cases accepted
    · next small =>
      obtain ⟨headers, filtered, returned⟩ := Result.bind_eq_ok.mp accepted
      cases returned
      simp only [Bool.or_eq_true, not_or, decide_eq_true_eq, Nat.not_lt] at small
      exact ⟨small.1, head_of_responseHeaders limits filtered⟩

theorem execute_client (uris : UriParser) (agent : HeaderValue) (config : HttpEgressConfig)
    (transport : HttpEventRequest → Except HttpEventError (Response Bytes)) (parser : UrlParser)
    (allowedOrigins : Finset Bytes) (request : SendRequest) :
    (client uris agent config).execute transport parser allowedOrigins request =
      execute transport parser uris agent config allowedOrigins request := by
  unfold Client.execute Client.prepare execute client
  cases prepareRequest .workers parser config allowedOrigins request with
  | error failure => rfl
  | ok prepared =>
      dsimp only [Bind.bind, Except.bind]
      cases uris.parse prepared.url.text with
      | none => rfl
      | some uri =>
          by_cases room : prepared.headers.HasRoom <;>
            · simp only [room]
              rfl

end EventProvider

/-! ### Calls -/

/-- The runtime failures of a call. -/
inductive CallFailure where
  | notPrepared
  | cancelled (requestId : Nat)
  | resourceExhausted
deriving DecidableEq

/-- `created` is a future that has not been polled. -/
inductive CallPhase where
  | created
  | exchanging
  | returned (result : Except CallFailure (Except SendError SendResponse))
  | dropped

/-- A call with the provider it was made on, its token, and what went out for it. -/
structure Call (ω : Type) where
  requestId : Nat
  request : SendRequest
  provider : Option Nat
  cancelled : Bool
  phase : CallPhase
  sent : Option (PreparedRequest × ω)

/-- The providers that were made, by their free permits, and all calls. -/
structure EgressState (ω : Type) where
  active : Option Nat
  providers : List Nat
  calls : List (Call ω)

inductive EgressAction (ρ : Type) where
  | prepare
  | deactivate
  | send (requestId : Nat) (request : SendRequest) (cancelled : Bool)
  | cancel (index : Nat)
  | poll (index : Nat)
  | answers (index : Nat) (received : ρ)
  | drop (index : Nat)

/-- An exchange holds a permit of its provider. -/
def Call.permits {ω : Type} (provider : Nat) (call : Call ω) : Nat :=
  match call.phase with
  | .exchanging => if call.provider = some provider then 1 else 0
  | _ => 0

namespace EgressState

variable {config : HttpEgressConfig} {ω ρ : Type}

/-- A call moves on and gives its permit back, if it held one. -/
def settle (s : EgressState ω) (index : Nat) (call : Call ω) (phase : CallPhase) : EgressState ω :=
  { s with
    providers := s.providers.mapIdx fun provider free => free + call.permits provider
    calls := s.calls.set index { call with phase } }

/-- The first segment of a call. -/
def begin (client : Client config ω ρ) (parser : UrlParser) (s : EgressState ω) (index : Nat)
    (call : Call ω) : EgressState ω :=
  match call.provider with
  | none => s.settle index call (.returned (.error .notPrepared))
  | some provider =>
      if call.cancelled then s.settle index call (.returned (.error (.cancelled call.requestId)))
      else
        match s.providers[provider]?, config.validate parser with
        | some (free + 1), .ok allowedOrigins =>
            match client.prepare parser allowedOrigins call.request with
            | .error error => s.settle index call (.returned (.ok (.error error)))
            | .ok sent =>
                { s with
                  providers := s.providers.set provider free
                  calls := s.calls.set index { call with phase := .exchanging, sent := some sent } }
        | _, _ => s.settle index call (.returned (.error .resourceExhausted))

/-- One segment of the Plugin or of one of its calls. -/
def step (client : Client config ω ρ) (parser : UrlParser) (s : EgressState ω) :
    EgressAction ρ → Option (EgressState ω)
  | .prepare =>
      match config.validate parser with
      | .error _ => some s
      | .ok _ =>
          if client.accepts && (client.restarts || s.providers.isEmpty) then
            some { s with
              active := some s.providers.length
              providers := s.providers ++ [config.maxConcurrentRequests] }
          else some s
  | .deactivate => if client.restarts then some { s with active := none } else none
  | .send requestId request cancelled =>
      if client.restarts || s.active.isSome then
        some { s with calls := s.calls ++ [⟨requestId, request, s.active, cancelled, .created, none⟩] }
      else none
  | .cancel index => do
      let call ← s.calls[index]?
      some { s with calls := s.calls.set index { call with cancelled := true } }
  | .poll index => do
      let call ← s.calls[index]?
      match call.phase with
      | .created => some (s.begin client parser index call)
      | .exchanging =>
          if call.cancelled then
            some (s.settle index call (.returned (.error (.cancelled call.requestId))))
          else none
      | _ => none
  | .answers index received => do
      let call ← s.calls[index]?
      let (prepared, _) ← call.sent
      match call.phase with
      | .exchanging =>
          if call.cancelled then none
          else some (s.settle index call (.returned (.ok (client.answer prepared received))))
      | _ => none
  | .drop index => do
      let call ← s.calls[index]?
      match call.phase with
      | .created => some (s.settle index call .dropped)
      | .exchanging => some (s.settle index call .dropped)
      | _ => none

/-- A Plugin of one App, before it is prepared. -/
def machine (client : Client config ω ρ) (parser : UrlParser) :
    Machine (EgressState ω) (EgressAction ρ) where
  initial s := s = ⟨none, [], []⟩
  step := step client parser

end EgressState

/-! ### What a step can do -/

section Steps

variable {config : HttpEgressConfig} {ω ρ : Type} {client : Client config ω ρ} {parser : UrlParser}
  {s t : EgressState ω}

/-- How a call may end. -/
def Call.Ends (client : Client config ω ρ) (call : Call ω) : CallPhase → Prop
  | .created => False
  | .exchanging => False
  | .returned (.ok (.ok response)) => ∃ prepared outgoing received,
      call.sent = some (prepared, outgoing) ∧ client.answer prepared received = .ok response
  | .returned (.error .notPrepared) => call.phase = .created
  | .returned (.error .resourceExhausted) => call.phase = .created
  | _ => True

/-- The transitions, one constructor for each kind of outcome. -/
inductive EgressStep (client : Client config ω ρ) (parser : UrlParser) (s : EgressState ω) :
    EgressState ω → Prop
  | unchanged : EgressStep client parser s s
  | prepared {allowedOrigins : Finset Bytes} (valid : config.validate parser = .ok allowedOrigins) :
      EgressStep client parser s { s with
        active := some s.providers.length
        providers := s.providers ++ [config.maxConcurrentRequests] }
  | deactivated : EgressStep client parser s { s with active := none }
  | made (requestId : Nat) (request : SendRequest) (cancelled : Bool) :
      EgressStep client parser s
        { s with calls := s.calls ++ [⟨requestId, request, s.active, cancelled, .created, none⟩] }
  | told {index : Nat} {call : Call ω} (present : s.calls[index]? = some call) :
      EgressStep client parser s
        { s with calls := s.calls.set index { call with cancelled := true } }
  | ends {index : Nat} {call : Call ω} {phase : CallPhase} (present : s.calls[index]? = some call)
      (running : call.phase = .created ∨ call.phase = .exchanging) (ending : call.Ends client phase) :
      EgressStep client parser s (s.settle index call phase)
  | exchanges {index provider free : Nat} {call : Call ω} {allowedOrigins : Finset Bytes}
      {sent : PreparedRequest × ω} (present : s.calls[index]? = some call)
      (created : call.phase = .created) (made : call.provider = some provider)
      (room : s.providers[provider]? = some (free + 1))
      (valid : config.validate parser = .ok allowedOrigins)
      (prepares : client.prepare parser allowedOrigins call.request = .ok sent) :
      EgressStep client parser s { s with
        providers := s.providers.set provider free
        calls := s.calls.set index { call with phase := .exchanging, sent := some sent } }

theorem egressStep_of_begin {index : Nat} {call : Call ω} (present : s.calls[index]? = some call)
    (created : call.phase = .created) :
    EgressStep client parser s (s.begin client parser index call) := by
  unfold EgressState.begin
  split
  · exact .ends present (.inl created) created
  · next provider made =>
    split
    · exact .ends present (.inl created) trivial
    · split
      · next free allowedOrigins room valid =>
        split
        · exact .ends present (.inl created) trivial
        · next sent prepares => exact .exchanges present created made room valid prepares
      · exact .ends present (.inl created) created

theorem egressStep_of_step {action : EgressAction ρ}
    (transition : s.step client parser action = some t) : EgressStep client parser s t := by
  cases action with
  | prepare =>
      simp only [EgressState.step] at transition
      split at transition
      · cases transition
        exact .unchanged
      · next allowedOrigins valid =>
        split at transition <;> cases transition
        · exact .prepared valid
        · exact .unchanged
  | deactivate =>
      simp only [EgressState.step] at transition
      split at transition <;> cases transition
      exact .deactivated
  | send requestId request cancelled =>
      simp only [EgressState.step] at transition
      split at transition <;> cases transition
      exact .made requestId request cancelled
  | cancel index =>
      obtain ⟨call, present, outcome⟩ := Option.bind_eq_some_iff.mp transition
      cases outcome
      exact .told present
  | poll index =>
      obtain ⟨call, present, outcome⟩ := Option.bind_eq_some_iff.mp transition
      split at outcome
      · next created =>
        cases outcome
        exact egressStep_of_begin present created
      · next exchanging =>
        split at outcome <;> cases outcome
        exact .ends present (.inr exchanging) trivial
      · cases outcome
  | answers index received =>
      obtain ⟨call, present, rest⟩ := Option.bind_eq_some_iff.mp transition
      obtain ⟨⟨prepared, outgoing⟩, sent, outcome⟩ := Option.bind_eq_some_iff.mp rest
      dsimp only at outcome
      split at outcome
      · next exchanging =>
        split at outcome <;> cases outcome
        refine .ends present (.inr exchanging) ?_
        cases answer : client.answer prepared received with
        | error failure => trivial
        | ok response => exact ⟨prepared, outgoing, received, sent, answer⟩
      · cases outcome
  | drop index =>
      obtain ⟨call, present, outcome⟩ := Option.bind_eq_some_iff.mp transition
      split at outcome
      · next created =>
        cases outcome
        exact .ends present (.inl created) trivial
      · next exchanging =>
        cases outcome
        exact .ends present (.inr exchanging) trivial
      · cases outcome

end Steps

/-! ### Every interleaving -/

section Invariant

variable {config : HttpEgressConfig} {ω ρ : Type} {client : Client config ω ρ} {parser : UrlParser}
  {s t : EgressState ω}

/-- What is true of a call at any time. -/
structure Call.Sound (client : Client config ω ρ) (parser : UrlParser) (providers : Nat)
    (call : Call ω) : Prop where
  provider : ∀ provider, call.provider = some provider → provider < providers
  sent : ∀ sent, call.sent = some sent → ∃ allowedOrigins,
    config.validate parser = .ok allowedOrigins ∧
      client.prepare parser allowedOrigins call.request = .ok sent
  created : call.phase = .created → call.sent = none
  refused : call.phase = .returned (.error .notPrepared) ∨
    call.phase = .returned (.error .resourceExhausted) → call.sent = none
  returned : ∀ response, call.phase = .returned (.ok (.ok response)) →
    ∃ prepared outgoing received, call.sent = some (prepared, outgoing) ∧
      client.answer prepared received = .ok response

/-- What is true of a Plugin at any time. -/
structure EgressState.Sound (client : Client config ω ρ) (parser : UrlParser)
    (s : EgressState ω) : Prop where
  valid : ∀ provider, provider < s.providers.length →
    ∃ allowedOrigins, config.validate parser = .ok allowedOrigins
  active : ∀ provider, s.active = some provider → provider < s.providers.length
  calls : ∀ call ∈ s.calls, call.Sound client parser s.providers.length
  permits : ∀ provider free, s.providers[provider]? = some free →
    free + census (Call.permits provider) s.calls = config.maxConcurrentRequests

theorem Call.permits_eq_zero {call : Call ω} {provider : Nat}
    (other : call.provider ≠ some provider) : call.permits provider = 0 := by
  unfold Call.permits
  split
  · exact if_neg other
  · rfl

theorem Call.permits_of_created {call : Call ω} (created : call.phase = .created) (provider : Nat) :
    call.permits provider = 0 := by
  rw [Call.permits, created]

theorem Call.Sound.ends {providers : Nat} {call : Call ω} (sound : call.Sound client parser providers)
    {phase : CallPhase} (ending : call.Ends client phase) :
    Call.Sound client parser providers { call with phase } := by
  refine ⟨sound.provider, sound.sent, ?_, ?_, ?_⟩
  · rintro rfl
    exact absurd ending id
  · rintro (rfl | rfl)
    · exact sound.created ending
    · exact sound.created ending
  · rintro response rfl
    exact ending

theorem Call.Ends.permits {call : Call ω} {phase : CallPhase} (ending : call.Ends client phase)
    (provider : Nat) : Call.permits provider { call with phase } = 0 := by
  cases phase with
  | exchanging => exact absurd ending id
  | _ => rfl

namespace EgressState

theorem Sound.prepared (sound : s.Sound client parser) {allowedOrigins : Finset Bytes}
    (valid : config.validate parser = .ok allowedOrigins) :
    Sound client parser { s with
      active := some s.providers.length
      providers := s.providers ++ [config.maxConcurrentRequests] } := by
  constructor
  · exact fun _ _ => ⟨allowedOrigins, valid⟩
  · rintro provider ⟨⟩
    rw [List.length_append]
    exact Nat.lt_succ_self _
  · intro call member
    have prior := sound.calls call member
    refine ⟨fun provider made => ?_, prior.sent, prior.created, prior.refused, prior.returned⟩
    rw [List.length_append]
    exact Nat.lt_succ_of_lt (prior.provider provider made)
  · intro provider free present
    by_cases old : provider < s.providers.length
    · rw [List.getElem?_append_left old] at present
      exact sound.permits provider free present
    · have none : census (Call.permits provider) s.calls = 0 := by
        refine List.sum_eq_zero fun weight member => ?_
        obtain ⟨call, inside, rfl⟩ := List.mem_map.mp member
        exact Call.permits_eq_zero fun made => old ((sound.calls call inside).provider provider made)
      rw [List.getElem?_append_right (Nat.le_of_not_lt old), List.getElem?_singleton] at present
      split at present
      · cases present
        rw [none, Nat.add_zero]
      · cases present

theorem Sound.settle (sound : s.Sound client parser) {index : Nat} {call : Call ω}
    {phase : CallPhase} (present : s.calls[index]? = some call) (ending : call.Ends client phase) :
    Sound client parser (s.settle index call phase) := by
  have same : (s.settle index call phase).providers.length = s.providers.length :=
    List.length_mapIdx
  constructor
  · rw [same]
    exact sound.valid
  · rw [same]
    exact sound.active
  · rw [same]
    intro other member
    obtain member | rfl := List.mem_or_eq_of_mem_set member
    · exact sound.calls other member
    · exact (sound.calls call (List.mem_of_getElem? present)).ends ending
  · intro provider free found
    rw [EgressState.settle, List.getElem?_mapIdx, Option.map_eq_some_iff] at found
    obtain ⟨before, found, rfl⟩ := found
    have balance := sound.permits provider before found
    have shift := census_set (Call.permits provider) present { call with phase }
    rw [ending.permits] at shift
    rw [EgressState.settle]
    dsimp only
    omega

theorem Sound.exchanges (sound : s.Sound client parser) {index provider free : Nat} {call : Call ω}
    {allowedOrigins : Finset Bytes} {sent : PreparedRequest × ω}
    (present : s.calls[index]? = some call) (created : call.phase = .created)
    (made : call.provider = some provider) (room : s.providers[provider]? = some (free + 1))
    (valid : config.validate parser = .ok allowedOrigins)
    (prepares : client.prepare parser allowedOrigins call.request = .ok sent) :
    Sound client parser { s with
      providers := s.providers.set provider free
      calls := s.calls.set index { call with phase := .exchanging, sent := some sent } } := by
  constructor
  · rw [List.length_set]
    exact sound.valid
  · rw [List.length_set]
    exact sound.active
  · rw [List.length_set]
    intro other member
    obtain member | rfl := List.mem_or_eq_of_mem_set member
    · exact sound.calls other member
    · have prior := sound.calls call (List.mem_of_getElem? present)
      refine ⟨prior.provider, ?_, nofun, ?_, nofun⟩
      · rintro _ ⟨⟩
        exact ⟨allowedOrigins, valid, prepares⟩
      · rintro (phase | phase) <;> cases phase
  · intro other left found
    have shift := census_set (Call.permits other) present
      { call with phase := .exchanging, sent := some sent }
    rw [Call.permits_of_created created, Nat.add_zero] at shift
    rw [shift]
    by_cases here : other = provider
    · subst here
      have balance := sound.permits other (free + 1) room
      have inside := (List.getElem?_eq_some_iff.mp room).1
      rw [List.getElem?_set_self inside] at found
      cases found
      have one : Call.permits other { call with phase := .exchanging, sent := some sent } = 1 :=
        if_pos made
      omega
    · rw [List.getElem?_set_ne (Ne.symm here)] at found
      have balance := sound.permits other left found
      have zero : Call.permits other { call with phase := .exchanging, sent := some sent } = 0 :=
        Call.permits_eq_zero fun same => here (Option.some.inj (same.symm.trans made))
      omega

theorem Sound.step (sound : s.Sound client parser) (transition : EgressStep client parser s t) :
    t.Sound client parser := by
  cases transition with
  | unchanged => exact sound
  | prepared valid => exact sound.prepared valid
  | deactivated => exact ⟨sound.valid, nofun, sound.calls, sound.permits⟩
  | made requestId request cancelled =>
      refine ⟨sound.valid, sound.active, ?_, fun provider free present => ?_⟩
      · intro call member
        obtain member | member := List.mem_append.mp member
        · exact sound.calls call member
        · rw [List.mem_singleton.mp member]
          exact ⟨sound.active, nofun, fun _ => rfl, fun _ => rfl, nofun⟩
      · rw [census_append, census_cons, census_nil, Call.permits_of_created rfl]
        exact sound.permits provider free present
  | @told index call present =>
      refine ⟨sound.valid, sound.active, ?_, fun provider free found => ?_⟩
      · intro other member
        obtain member | rfl := List.mem_or_eq_of_mem_set member
        · exact sound.calls other member
        · have prior := sound.calls call (List.mem_of_getElem? present)
          exact ⟨prior.provider, prior.sent, prior.created, prior.refused, prior.returned⟩
      · have shift := census_set (Call.permits provider) present { call with cancelled := true }
        have same : Call.permits provider { call with cancelled := true } = call.permits provider :=
          rfl
        rw [same] at shift
        rw [Nat.add_right_cancel shift]
        exact sound.permits provider free found
  | ends present running ending => exact sound.settle present ending
  | exchanges present created made room valid prepares =>
      exact sound.exchanges present created made room valid prepares

theorem sound_of_reachable (reached : (machine client parser).Reachable s) :
    s.Sound client parser := by
  refine reached.invariant (P := Sound client parser) ?_ ?_
  · rintro s rfl
    exact ⟨nofun, nofun, nofun, nofun⟩
  · intro u action v _ prior transition
    exact prior.step (egressStep_of_step transition)

/-- What a call sends is what the policy prepared of it. -/
theorem admissible_of_prepare {allowedOrigins : Finset Bytes} {request : SendRequest}
    {prepared : PreparedRequest} {outgoing : ω}
    (valid : config.validate parser = .ok allowedOrigins)
    (prepares : client.prepare parser allowedOrigins request = .ok (prepared, outgoing)) :
    Admissible parser config allowedOrigins request ∧ prepared.Carries parser request ∧
      client.outgoing prepared = .ok outgoing := by
  obtain ⟨passed, accepted, rest⟩ := Result.bind_eq_ok.mp prepares
  obtain ⟨sent, goes, made⟩ := Result.bind_eq_ok.mp rest
  cases made
  obtain ⟨admissible, -, -, parsed, headers, body⟩ :=
    (prepareRequest_eq_ok (HttpEgressConfig.limitsValid_of_validate valid)
      (null_notMem_of_validate valid)).mp accepted
  refine ⟨admissible, ⟨method_of_prepareRequest accepted, parsed, fun name => ?_, body⟩, goes⟩
  rw [headers]
  exact foldl_appendItem admissible.headers ∅ name

/-- A call that is let in is refused exactly when its provider's exchanges are at the limit. -/
theorem exhausted_iff (sound : s.Sound client parser) {index provider : Nat} {call : Call ω}
    (present : s.calls[index]? = some call) (made : call.provider = some provider)
    (calm : call.cancelled = false) {after : Call ω}
    (found : (s.begin client parser index call).calls[index]? = some after) :
    after.phase = .returned (.error .resourceExhausted) ↔
      census (Call.permits provider) s.calls = config.maxConcurrentRequests := by
  have inside := (List.getElem?_eq_some_iff.mp present).1
  have known := (sound.calls call (List.mem_of_getElem? present)).provider provider made
  obtain ⟨allowedOrigins, valid⟩ := sound.valid provider known
  obtain ⟨free, room⟩ : ∃ free, s.providers[provider]? = some free :=
    ⟨_, List.getElem?_eq_getElem known⟩
  have balance := sound.permits provider free room
  simp only [begin, made, calm, Bool.false_eq_true, if_false, room, valid] at found
  cases free with
  | zero =>
      rw [Nat.zero_add] at balance
      simp only [settle, List.getElem?_set_self inside, Option.some.injEq] at found
      subst found
      exact iff_of_true rfl balance
  | succ free =>
      refine iff_of_false ?_ (by omega)
      cases prepares : client.prepare parser allowedOrigins call.request with
      | error failure =>
          simp only [prepares, settle, List.getElem?_set_self inside, Option.some.injEq] at found
          subst found
          exact nofun
      | ok sent =>
          simp only [prepares, List.getElem?_set_self inside, Option.some.injEq] at found
          subst found
          exact nofun

/-- A Plugin for outbound HTTP under any interleaving of its calls, their cancellations, the
transport and its own lifecycle: a provider's exchanges and free permits always make up the
limit; a call is refused for want of a permit exactly at that limit; whatever went out for a
call was admissible and is the request of that call; a call that was refused sent nothing; and
what a call returns is a response to what it sent, within the limits. -/
theorem calls_confined (reached : (machine client parser).Reachable s) :
    (∀ provider free, s.providers[provider]? = some free →
      free + census (Call.permits provider) s.calls = config.maxConcurrentRequests) ∧
    (∀ index call provider t after, s.calls[index]? = some call → call.phase = .created →
      call.provider = some provider → call.cancelled = false →
      s.step client parser (.poll index) = some t → t.calls[index]? = some after →
        (after.phase = .returned (.error .resourceExhausted) ↔
          census (Call.permits provider) s.calls = config.maxConcurrentRequests)) ∧
    ∀ call ∈ s.calls,
      (∀ prepared outgoing, call.sent = some (prepared, outgoing) → ∃ allowedOrigins,
        config.validate parser = .ok allowedOrigins ∧
          Admissible parser config allowedOrigins call.request ∧
          prepared.Carries parser call.request ∧ client.outgoing prepared = .ok outgoing) ∧
      (call.phase = .returned (.error .notPrepared) ∨
        call.phase = .returned (.error .resourceExhausted) → call.sent = none) ∧
      ∀ response, call.phase = .returned (.ok (.ok response)) → response.Bounded config ∧
        ∃ prepared outgoing received, call.sent = some (prepared, outgoing) ∧
          client.answer prepared received = .ok response := by
  have sound := sound_of_reachable reached
  refine ⟨sound.permits, ?_, fun call member => ?_⟩
  · intro index call provider t after present created made calm transition found
    simp only [step, Option.bind_eq_bind, present, Option.bind_some, created] at transition
    cases transition
    exact exhausted_iff sound present made calm found
  have each := sound.calls call member
  refine ⟨fun prepared outgoing sent => ?_, each.refused, fun response returned => ?_⟩
  · obtain ⟨allowedOrigins, valid, prepares⟩ := each.sent _ sent
    exact ⟨allowedOrigins, valid, admissible_of_prepare valid prepares⟩
  · obtain ⟨prepared, outgoing, received, sent, answered⟩ := each.returned response returned
    obtain ⟨allowedOrigins, valid, -⟩ := each.sent _ sent
    exact ⟨client.bounded (HttpEgressConfig.limitsValid_of_validate valid) prepared received response
      answered, prepared, outgoing, received, sent, answered⟩

open Upstream in
/-- One call at a time; the second call is refused, and the third is made after the first
has been answered. -/
def oneAtATime : HttpEgressConfig := { exampleConfig 32768 with maxConcurrentRequests := 1 }

open Upstream in
def threeCalls : List (EgressAction (Except TransportError ReceivedResponse)) :=
  [.prepare, .send 1 exampleRequest false, .send 2 exampleRequest false, .poll 0, .poll 1,
    .answers 0 (.ok greetingReceived), .send 3 exampleRequest false, .poll 2]

open Upstream in
theorem calls_confined_threeCalls :
    ∃ s call, (machine (HttpEgressProvider.client oneAtATime) exampleParser).Reachable s ∧
      s.calls[1]? = some call ∧ call.phase = .returned (.error .resourceExhausted) ∧
      call.sent = none ∧ ∃ after, s.calls[2]? = some after ∧ after.phase = .exchanging := by
  have outcome : ∃ s call after,
      (machine (HttpEgressProvider.client oneAtATime) exampleParser).Reachable s ∧
        s.calls[1]? = some call ∧ call.phase = .returned (.error .resourceExhausted) ∧
        s.calls[2]? = some after ∧ after.phase = .exchanging :=
    ⟨_, _, _, ⟨_, threeCalls, rfl, rfl⟩, rfl, rfl, rfl, rfl⟩
  obtain ⟨s, call, after, reached, present, refused, third, exchanging⟩ := outcome
  obtain ⟨-, -, each⟩ := calls_confined reached
  have silent := (each call (List.mem_of_getElem? present)).2.1 (.inr refused)
  exact ⟨s, call, reached, present, refused, silent, after, third, exchanging⟩

end EgressState

end Invariant

end Egress
