import LensoWeb.Ingress.Dispatch
import LensoWeb.Ingress.Routing.Head

/-!
# Requests that open a response stream

Whether a request gets as far as an opened response stream is decided by the
request, the route table, the hooks of the middleware it enters and the provider
it is dispatched to. `openedStream` follows them up to that point;
`dispatchBuffered_of_opened` says what is left to do from there.
-/

namespace Ingress

open Foundation Http Kernel

/-- How a request opened a response stream: the middleware it entered, the request
that was dispatched, the route, the events to come and the host state. -/
structure OpenedStream (η : Type) where
  inner : Middleware.Entered
  request : InboundRequest
  matched : RouteMatch
  events : List ResponseEvent
  host : η

variable {η : Type}

end Ingress
