import LensoWeb.Ingress.Middleware

/-!
# The order of middleware hooks

A run is observed through layers that write down every call of a hook with what the
hook saw and what it answered. `Onion` says which traces of such calls are possible;
it does not mention the loops of `run`. Hooks may keep state of their own and share it,
so the same request may be answered differently from one run to the next.
-/

namespace Ingress

open Foundation Http Kernel

namespace Middleware

/-! ### Traces -/

/-- A call of `before_request`: the layer, the request it saw, and its answer. -/
structure BeforeCall where
  index : Nat
  seen : WebIngressRequest
  outcome : Except RuntimeFailure WebIngressMiddlewareOutcome
  left : WebIngressRequest

/-- A call of `after_response`: the layer, what it was given, and its answer. -/
structure AfterCall where
  index : Nat
  seen : WebIngressRequest
  given : WebIngressResponse
  outcome : Except RuntimeFailure Unit
  left : WebIngressResponse

inductive Call where
  | before (call : BeforeCall)
  | dispatch (seen : WebIngressRequest) (response : WebIngressResponse)
  | after (call : AfterCall)

/-- The request once these hooks have seen it. -/
def requestAfter (request : WebIngressRequest) (calls : List BeforeCall) : WebIngressRequest :=
  (calls.getLast?.map BeforeCall.left).getD request

/-- The response once these hooks have seen it. -/
def responseAfter (response : WebIngressResponse) (calls : List AfterCall) : WebIngressResponse :=
  (calls.getLast?.map AfterCall.left).getD response

/-- The first hooks of the layers from `start` on, in declaration order. A hook runs only
where the one before it continued, and it sees the request as that one left it. -/
structure BeforePass (start count : Nat) (request : WebIngressRequest) (calls : List BeforeCall) :
    Prop where
  order : calls.map BeforeCall.index = List.range' start calls.length
  bound : calls.length ≤ count
  first : ∀ call ∈ calls.head?, call.seen = request
  linked : calls.IsChain fun earlier later =>
    earlier.outcome = .ok .continue ∧ later.seen = earlier.left

/-- The second hooks of the layers in the given order. All see the same request, and each
sees the response as the one before it left it, if that one did not fail. -/
structure AfterPass (order : List Nat) (request : WebIngressRequest)
    (response : WebIngressResponse) (calls : List AfterCall) : Prop where
  order : calls.map AfterCall.index = order.take calls.length
  seen : ∀ call ∈ calls, call.seen = request
  first : ∀ call ∈ calls.head?, call.given = response
  linked : calls.IsChain fun earlier later =>
    earlier.outcome = .ok () ∧ later.given = earlier.left

/-- How the second hooks end the run: with the first failure, or after all layers. -/
inductive Leaves (count : Nat) (response : WebIngressResponse) (calls : List AfterCall) :
    Except RuntimeFailure WebIngressResponse → Prop
  | failed (last : AfterCall) (failure : RuntimeFailure) (final : last ∈ calls.getLast?)
      (outcome : last.outcome = .error failure) : Leaves count response calls (.error failure)
  | left (all : calls.length = count) (fine : ∀ call ∈ calls, call.outcome = .ok ()) :
      Leaves count response calls (.ok (responseAfter response calls))

/-- The traces of a run over `count` layers, with the result of the run. -/
inductive Onion (count : Nat) (request : WebIngressRequest) :
    List Call → Except RuntimeFailure WebIngressResponse → Prop
  | failed (befores : List BeforeCall) (last : BeforeCall) (failure : RuntimeFailure)
      (entered : BeforePass 0 count request befores) (final : last ∈ befores.getLast?)
      (outcome : last.outcome = .error failure) :
      Onion count request (befores.map .before) (.error failure)
  | responded (befores : List BeforeCall) (last : BeforeCall) (response : WebIngressResponse)
      (afters : List AfterCall) (result : Except RuntimeFailure WebIngressResponse)
      (entered : BeforePass 0 count request befores) (final : last ∈ befores.getLast?)
      (outcome : last.outcome = .ok (.respond response))
      (returned : AfterPass (List.range befores.length).reverse (requestAfter request befores)
        response afters)
      (leaves : Leaves befores.length response afters result) :
      Onion count request (befores.map .before ++ afters.map .after) result
  | dispatched (befores : List BeforeCall) (response : WebIngressResponse)
      (afters : List AfterCall) (result : Except RuntimeFailure WebIngressResponse)
      (entered : BeforePass 0 count request befores) (all : befores.length = count)
      (continued : ∀ call ∈ befores, call.outcome = .ok .continue)
      (returned : AfterPass (List.range count).reverse (requestAfter request befores)
        response afters)
      (leaves : Leaves count response afters result) :
      Onion count request
        (befores.map .before ++ .dispatch (requestAfter request befores) response ::
          afters.map .after) result

/-! ### Recording -/

variable {σ : Type}

/-- The layer at an index, with hooks that write their calls down. -/
def record (index : Nat) (layer : WebIngressMiddleware σ) :
    WebIngressMiddleware (σ × List Call) where
  identity := layer.identity
  beforeRequest request := fun (s, log) =>
    match layer.beforeRequest request s with
    | (.ready (outcome, left), t) =>
        (.ready (outcome, left), (t, log ++ [.before ⟨index, request, outcome, left⟩]))
    | (.pending, t) => (.pending, (t, log))
    | (.panicked, t) => (.panicked, (t, log))
  afterResponse request response := fun (s, log) =>
    match layer.afterResponse request response s with
    | (.ready (outcome, left), t) =>
        (.ready (outcome, left), (t, log ++ [.after ⟨index, request, response, outcome, left⟩]))
    | (.pending, t) => (.pending, (t, log))
    | (.panicked, t) => (.panicked, (t, log))

/-- All layers, counted from `start`. -/
def recordAll (start : Nat) (middleware : List (WebIngressMiddleware σ)) :
    List (WebIngressMiddleware (σ × List Call)) :=
  (middleware.zipIdx start).map fun entry => record entry.2 entry.1

/-- The dispatch, written down as well. -/
def recordDispatch (dispatch : WebIngressRequest → Task σ WebIngressResponse) :
    WebIngressRequest → Task (σ × List Call) WebIngressResponse := fun request (s, log) =>
  match dispatch request s with
  | (.ready response, t) => (.ready response, (t, log ++ [.dispatch request response]))
  | (.pending, t) => (.pending, (t, log))
  | (.panicked, t) => (.panicked, (t, log))

/-- Both hooks always return. -/
structure Returning (layer : WebIngressMiddleware σ) : Prop where
  beforeRequest : ∀ request s, ∃ answer t, layer.beforeRequest request s = (.ready answer, t)
  afterResponse : ∀ request response s, ∃ answer t,
    layer.afterResponse request response s = (.ready answer, t)

section Calls

variable {layer : WebIngressMiddleware σ} {s t : σ}

theorem record_beforeRequest (index : Nat) (log : List Call) {request left : WebIngressRequest}
    {outcome : Except RuntimeFailure WebIngressMiddlewareOutcome}
    (returned : layer.beforeRequest request s = (.ready (outcome, left), t)) :
    (record index layer).beforeRequest request (s, log) =
      (.ready (outcome, left), (t, log ++ [.before ⟨index, request, outcome, left⟩])) := by
  simp only [record, returned]

theorem record_afterResponse (index : Nat) (log : List Call) {request : WebIngressRequest}
    {response left : WebIngressResponse} {outcome : Except RuntimeFailure Unit}
    (returned : layer.afterResponse request response s = (.ready (outcome, left), t)) :
    (record index layer).afterResponse request response (s, log) =
      (.ready (outcome, left), (t, log ++ [.after ⟨index, request, response, outcome, left⟩])) := by
  simp only [record, returned]

end Calls

/-! ### The first pass -/

/-- How the first hooks end the first pass. -/
inductive Enters (count : Nat) (request : WebIngressRequest) (calls : List BeforeCall) :
    Except RuntimeFailure Entered → Prop
  | failed (last : BeforeCall) (failure : RuntimeFailure) (final : last ∈ calls.getLast?)
      (outcome : last.outcome = .error failure) : Enters count request calls (.error failure)
  | responded (last : BeforeCall) (response : WebIngressResponse) (final : last ∈ calls.getLast?)
      (outcome : last.outcome = .ok (.respond response)) :
      Enters count request calls (.ok ⟨calls.length, some response, requestAfter request calls⟩)
  | continued (all : calls.length = count)
      (fine : ∀ call ∈ calls, call.outcome = .ok .continue) :
      Enters count request calls (.ok ⟨calls.length, none, requestAfter request calls⟩)

theorem getLast?_cons_of_mem {α : Type} {last first : α} {rest : List α}
    (final : last ∈ rest.getLast?) : last ∈ (first :: rest).getLast? := by
  rw [Option.mem_def] at final ⊢
  rw [List.getLast?_cons, final, Option.getD_some]

theorem requestAfter_cons (request : WebIngressRequest) (call : BeforeCall)
    (calls : List BeforeCall) :
    requestAfter request (call :: calls) = requestAfter call.left calls := by
  rw [requestAfter, requestAfter, List.getLast?_cons]
  cases calls.getLast? <;> rfl

/-- A single call is a pass. -/
theorem beforePass_single {start count : Nat} {request : WebIngressRequest} {call : BeforeCall}
    (index : call.index = start) (seen : call.seen = request) (room : 0 < count) :
    BeforePass start count request [call] where
  order := by rw [List.map_singleton, index]; rfl
  bound := room
  first := by
    rintro _ ⟨⟩
    exact seen
  linked := List.isChain_singleton _

/-- A layer that continues runs before the rest of the pass. -/
theorem BeforePass.cons {start count : Nat} {request : WebIngressRequest} {call : BeforeCall}
    {calls : List BeforeCall} (rest : BeforePass (start + 1) count call.left calls)
    (index : call.index = start) (seen : call.seen = request)
    (continued : call.outcome = .ok .continue) :
    BeforePass start (count + 1) request (call :: calls) where
  order := by rw [List.map_cons, rest.order, index, List.length_cons, List.range'_succ]
  bound := Nat.succ_le_succ rest.bound
  first := by
    rintro _ ⟨⟩
    exact seen
  linked := List.isChain_cons.mpr ⟨fun later next => ⟨continued, rest.first later next⟩, rest.linked⟩

theorem Enters.cons {count : Nat} {request : WebIngressRequest} {call : BeforeCall}
    {calls : List BeforeCall} {entered : Entered}
    (rest : Enters count call.left calls (.ok entered)) (continued : call.outcome = .ok .continue) :
    Enters (count + 1) request (call :: calls)
      (.ok { entered with entered := entered.entered + 1 }) := by
  cases rest with
  | responded last response final outcome =>
      have whole : Enters (count + 1) request (call :: calls) _ :=
        .responded last response (getLast?_cons_of_mem final) outcome
      rwa [requestAfter_cons] at whole
  | continued all fine =>
      have whole : Enters (count + 1) request (call :: calls) _ :=
        .continued (by rw [List.length_cons, all]) (List.forall_mem_cons.mpr ⟨continued, fine⟩)
      rwa [requestAfter_cons] at whole

/-- The first pass, with and without the recording. -/
theorem enter_records {middleware : List (WebIngressMiddleware σ)}
    (returning : ∀ layer ∈ middleware, Returning layer) (start : Nat)
    (request : WebIngressRequest) (s : σ) (log : List Call) :
    ∃ calls result t, enter middleware request s = (.ready result, t) ∧
      enter (recordAll start middleware) request (s, log) =
        (.ready result, (t, log ++ calls.map .before)) ∧
      BeforePass start middleware.length request calls ∧
      Enters middleware.length request calls result := by
  induction middleware generalizing start request s log with
  | nil =>
      refine ⟨[], .ok ⟨0, none, request⟩, s, rfl, ?_, ⟨rfl, le_rfl, by simp, .nil⟩,
        .continued rfl (by simp)⟩
      rw [List.map_nil, List.append_nil]
      rfl
  | cons layer rest ih =>
      obtain ⟨⟨outcome, left⟩, t, returned⟩ :=
        (returning layer List.mem_cons_self).beforeRequest request s
      have noted := record_beforeRequest start log returned
      have stopped : BeforePass start (rest.length + 1) request [⟨start, request, outcome, left⟩] :=
        beforePass_single rfl rfl (Nat.succ_pos _)
      obtain failure | _ | response := outcome
      · refine ⟨[⟨start, request, .error failure, left⟩], _, t, ?_, ?_, stopped,
          .failed _ failure rfl rfl⟩
        · rw [enter, Task.bind_of_ready returned]
          rfl
        · rw [recordAll, List.zipIdx_cons, List.map_cons, enter, Task.bind_of_ready noted]
          rfl
      · obtain ⟨calls, result, u, plain, recorded, pass, enters⟩ :=
          ih (fun other member => returning other (List.mem_cons_of_mem _ member)) (start + 1)
            left t (log ++ [.before ⟨start, request, .ok .continue, left⟩])
        have logged : log ++ [.before ⟨start, request, .ok .continue, left⟩] ++ calls.map .before =
            log ++ ((⟨start, request, .ok .continue, left⟩ :: calls : List BeforeCall).map .before) := by
          rw [List.append_assoc, List.map_cons, List.singleton_append]
        rw [logged] at recorded
        cases result with
        | error failure =>
            refine ⟨⟨start, request, .ok .continue, left⟩ :: calls, .error failure, u, ?_, ?_,
              pass.cons rfl rfl rfl, ?_⟩
            · rw [enter, Task.bind_of_ready returned]
              exact Task.bind_of_ready plain
            · rw [recordAll, List.zipIdx_cons, List.map_cons, enter, Task.bind_of_ready noted]
              exact Task.bind_of_ready recorded
            · obtain ⟨last, _, final, outcome⟩ := enters
              exact .failed last failure (getLast?_cons_of_mem final) outcome
        | ok entered =>
            refine ⟨⟨start, request, .ok .continue, left⟩ :: calls, _, u, ?_, ?_,
              pass.cons rfl rfl rfl, enters.cons rfl⟩
            · rw [enter, Task.bind_of_ready returned]
              exact Task.bind_of_ready plain
            · rw [recordAll, List.zipIdx_cons, List.map_cons, enter, Task.bind_of_ready noted]
              exact Task.bind_of_ready recorded
      · refine ⟨[⟨start, request, .ok (.respond response), left⟩], _, t, ?_, ?_, stopped,
          .responded _ response rfl rfl⟩
        · rw [enter, Task.bind_of_ready returned]
          rfl
        · rw [recordAll, List.zipIdx_cons, List.map_cons, enter, Task.bind_of_ready noted]
          rfl

/-! ### The second pass -/

theorem responseAfter_cons (response : WebIngressResponse) (call : AfterCall)
    (calls : List AfterCall) :
    responseAfter response (call :: calls) = responseAfter call.left calls := by
  rw [responseAfter, responseAfter, List.getLast?_cons]
  cases calls.getLast? <;> rfl

theorem AfterPass.cons {order : List Nat} {request : WebIngressRequest}
    {response : WebIngressResponse} {call : AfterCall} {calls : List AfterCall}
    {index : Nat} (rest : AfterPass order request call.left calls) (named : call.index = index)
    (seen : call.seen = request) (given : call.given = response) (fine : call.outcome = .ok ()) :
    AfterPass (index :: order) request response (call :: calls) where
  order := by rw [List.map_cons, rest.order, List.length_cons, List.take_succ_cons, named]
  seen := List.forall_mem_cons.mpr ⟨seen, rest.seen⟩
  first := by
    rintro _ ⟨⟩
    exact given
  linked := List.isChain_cons.mpr ⟨fun later next => ⟨fine, rest.first later next⟩, rest.linked⟩

theorem Leaves.cons {count : Nat} {response : WebIngressResponse} {call : AfterCall}
    {calls : List AfterCall} {result : Except RuntimeFailure WebIngressResponse}
    (rest : Leaves count call.left calls result) (fine : call.outcome = .ok ()) :
    Leaves (count + 1) response (call :: calls) result := by
  cases rest with
  | failed last failure final outcome =>
      exact .failed last failure (getLast?_cons_of_mem final) outcome
  | left all others =>
      have whole : Leaves (count + 1) response (call :: calls) _ :=
        .left (by rw [List.length_cons, all]) (List.forall_mem_cons.mpr ⟨fine, others⟩)
      rwa [responseAfter_cons] at whole

/-- The second pass over layers with their indices, with and without the recording. -/
theorem leave_records {entries : List (WebIngressMiddleware σ × Nat)}
    (returning : ∀ entry ∈ entries, Returning entry.1) (request : WebIngressRequest)
    (response : WebIngressResponse) (s : σ) (log : List Call) :
    ∃ calls result t, leave (entries.map Prod.fst) request response s = (.ready result, t) ∧
      leave (entries.map fun entry => record entry.2 entry.1) request response (s, log) =
        (.ready result, (t, log ++ calls.map .after)) ∧
      AfterPass (entries.map Prod.snd) request response calls ∧
      Leaves entries.length response calls result := by
  induction entries generalizing response s log with
  | nil =>
      refine ⟨[], .ok response, s, rfl, ?_, ⟨rfl, by simp, by simp, .nil⟩, .left rfl (by simp)⟩
      rw [List.map_nil, List.map_nil, List.append_nil]
      rfl
  | cons entry rest ih =>
      obtain ⟨⟨outcome, left⟩, t, returned⟩ :=
        (returning entry List.mem_cons_self).afterResponse request response s
      have noted := record_afterResponse entry.2 log returned
      obtain failure | _ := outcome
      · refine ⟨[⟨entry.2, request, response, .error failure, left⟩], .error failure, t, ?_, ?_,
          ⟨rfl, by simp, by simp, List.isChain_singleton _⟩, .failed _ failure rfl rfl⟩
        · rw [List.map_cons, leave, Task.bind_of_ready returned]
          rfl
        · rw [List.map_cons, leave, Task.bind_of_ready noted]
          rfl
      · obtain ⟨calls, result, u, plain, recorded, pass, leaves⟩ :=
          ih (fun other member => returning other (List.mem_cons_of_mem _ member)) left t
            (log ++ [.after ⟨entry.2, request, response, .ok (), left⟩])
        rw [List.append_assoc, List.singleton_append, ← List.map_cons] at recorded
        have called : AfterPass (entry.2 :: rest.map Prod.snd) request response
            (⟨entry.2, request, response, .ok (), left⟩ :: calls) := pass.cons rfl rfl rfl rfl
        refine ⟨⟨entry.2, request, response, .ok (), left⟩ :: calls, result, u, ?_, ?_, called,
          leaves.cons rfl⟩
        · rw [List.map_cons, leave, Task.bind_of_ready returned]
          exact plain
        · rw [List.map_cons, leave, Task.bind_of_ready noted]
          exact recorded

/-! ### Whole runs -/

/-- The layers that have been entered, innermost first. -/
theorem entered_layers (middleware : List (WebIngressMiddleware σ)) {entered : Nat}
    (bound : entered ≤ middleware.length) :
    ∃ entries : List (WebIngressMiddleware σ × Nat),
      (middleware.take entered).reverse = entries.map Prod.fst ∧
      ((recordAll 0 middleware).take entered).reverse =
        entries.map (fun entry => record entry.2 entry.1) ∧
      entries.map Prod.snd = (List.range entered).reverse ∧
      ∀ entry ∈ entries, entry.1 ∈ middleware := by
  refine ⟨((middleware.zipIdx 0).take entered).reverse, ?_, ?_, ?_, ?_⟩
  · rw [List.map_reverse, List.map_take, List.zipIdx_map_fst]
  · rw [List.map_reverse, List.map_take, recordAll]
  · rw [List.map_reverse, List.map_take, List.zipIdx_map_snd, ← List.range_eq_range',
      List.take_range, Nat.min_eq_left bound]
  · intro entry member
    exact List.fst_mem_of_mem_zipIdx (List.mem_of_mem_take (List.mem_reverse.mp member))

/-- The response half of a run, once the layers have been entered. -/
theorem leave_entered {middleware : List (WebIngressMiddleware σ)}
    (returning : ∀ layer ∈ middleware, Returning layer) {entered : Nat}
    (bound : entered ≤ middleware.length) (request : WebIngressRequest)
    (response : WebIngressResponse) (s : σ) (log : List Call) :
    ∃ calls result t,
      leave (middleware.take entered).reverse request response s = (.ready result, t) ∧
      leave ((recordAll 0 middleware).take entered).reverse request response (s, log) =
        (.ready result, (t, log ++ calls.map .after)) ∧
      AfterPass (List.range entered).reverse request response calls ∧
      Leaves entered response calls result := by
  obtain ⟨entries, layers, recorded, indices, members⟩ := entered_layers middleware bound
  have count : entries.length = entered := by
    have lengths := congrArg List.length indices
    simpa using lengths
  rw [layers, recorded, ← indices, ← count]
  exact leave_records (fun entry member => returning entry.1 (members entry member))
    request response s log

/-- Every run of layers that return is an onion, and recording it changes nothing else. -/
theorem run_onion (middleware : List (WebIngressMiddleware σ)) (request : WebIngressRequest)
    (dispatch : WebIngressRequest → Task σ WebIngressResponse)
    (returning : ∀ layer ∈ middleware, Returning layer)
    (dispatched : ∀ request s, ∃ response t, dispatch request s = (.ready response, t)) (s : σ) :
    ∃ result t trace, run middleware request dispatch s = (.ready result, t) ∧
      run (recordAll 0 middleware) request (recordDispatch dispatch) (s, []) =
        (.ready result, (t, trace)) ∧
      Onion middleware.length request trace result := by
  obtain ⟨befores, entered, t, plain, recorded, pass, enters⟩ :=
    enter_records returning 0 request s []
  rw [List.nil_append] at recorded
  cases enters with
  | failed last failure final outcome =>
      refine ⟨.error failure, t, befores.map .before, ?_, ?_,
        .failed befores last failure pass final outcome⟩
      · rw [run, Task.bind_of_ready plain]
        rfl
      · rw [run, Task.bind_of_ready recorded]
        rfl
  | responded last response final outcome =>
      obtain ⟨afters, result, u, left, leftRecorded, returned, leaves⟩ :=
        leave_entered returning pass.bound (requestAfter request befores) response t
          (befores.map .before)
      refine ⟨result, u, _, ?_, ?_,
        .responded befores last response afters result pass final outcome returned leaves⟩
      · rw [run, Task.bind_of_ready plain]
        exact left
      · rw [run, Task.bind_of_ready recorded]
        exact leftRecorded
  | continued all fine =>
      obtain ⟨response, u, answered⟩ := dispatched (requestAfter request befores) t
      have noted : recordDispatch dispatch (requestAfter request befores) (t, befores.map .before) =
          (.ready response, (u, befores.map .before ++
            [.dispatch (requestAfter request befores) response])) := by
        simp only [recordDispatch, answered]
      obtain ⟨afters, result, v, left, leftRecorded, returned, leaves⟩ :=
        leave_entered returning pass.bound (requestAfter request befores) response u
          (befores.map .before ++ [.dispatch (requestAfter request befores) response])
      rw [List.append_assoc, List.singleton_append] at leftRecorded
      rw [all] at returned leaves
      refine ⟨result, v, _, ?_, ?_,
        .dispatched befores response afters result pass all fine returned leaves⟩
      · rw [run, Task.bind_of_ready plain]
        exact (Task.bind_of_ready answered).trans left
      · rw [run, Task.bind_of_ready recorded]
        exact (Task.bind_of_ready noted).trans leftRecorded

/-- A layer that lets the request through and fails on the response. -/
def failing : WebIngressMiddleware Unit where
  identity := ascii "failing"
  beforeRequest request := pure (.ok .continue, request)
  afterResponse _ response := pure (.error .deadlineExceeded, response)

/-- A layer that answers every request itself. -/
def answering : WebIngressMiddleware Unit where
  identity := ascii "answering"
  beforeRequest request := pure (.ok (.respond ⟨.noContent, ∅, []⟩), request)
  afterResponse _ response := pure (.ok (), response)

/-- The second layer answers, and the first one fails on the answer. -/
theorem run_onion_answered :
    ∃ result t trace, run [failing, answering] ⟨.get, .originForm rootPath none, .http11, ∅, []⟩
        (fun _ => pure ⟨.ok, ∅, []⟩) () = (.ready result, t) ∧
      run (recordAll 0 [failing, answering]) ⟨.get, .originForm rootPath none, .http11, ∅, []⟩
        (recordDispatch fun _ => pure ⟨.ok, ∅, []⟩) ((), []) = (.ready result, (t, trace)) ∧
      Onion 2 ⟨.get, .originForm rootPath none, .http11, ∅, []⟩ trace result :=
  run_onion [failing, answering] ⟨.get, .originForm rootPath none, .http11, ∅, []⟩
    (fun _ => pure ⟨.ok, ∅, []⟩)
    (by
      intro layer member
      obtain rfl | rfl := List.mem_pair.mp member
      · exact ⟨fun _ _ => ⟨_, _, rfl⟩, fun _ _ _ => ⟨_, _, rfl⟩⟩
      · exact ⟨fun _ _ => ⟨_, _, rfl⟩, fun _ _ _ => ⟨_, _, rfl⟩⟩)
    (fun _ _ => ⟨_, _, rfl⟩) ()

end Middleware

end Ingress
