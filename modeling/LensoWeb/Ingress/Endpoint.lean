import LensoWeb.Foundation.Task
import LensoWeb.Ingress.Request
import LensoWeb.Ingress.WebSocket

/-!
# Endpoint Capabilities

The requests, responses and clients of the three Endpoint Capabilities that an
Ingress dispatches to. A client is an arbitrary call on the state of the host
that runs providers and middleware. A stream is known by the events which its
provider is going to produce.
-/

namespace Ingress

open Foundation Http Kernel

/-- A header item of an Endpoint request or response. -/
structure HeaderItem where
  name : Bytes
  value : Bytes
deriving DecidableEq

/-- `HandleRequestPathParametersItem`. -/
structure PathParameter where
  name : Bytes
  value : Bytes
deriving DecidableEq

/-- `HandleRequest`, which both HTTP Endpoint Capabilities declare with the same fields. -/
structure HandleRequest where
  body : Bytes
  credential : Option CredentialEvidence
  headers : List HeaderItem
  method : Bytes
  path : Bytes
  pathParameters : List PathParameter
  query : Option Bytes
  requestId : Bytes
  routeId : Bytes
deriving DecidableEq

/-- `HandleResponse` of a buffered Endpoint; the status is an `i64`. -/
structure HandleResponse where
  body : Bytes
  headers : List HeaderItem
  status : Int
deriving DecidableEq

/-- `HandleError`. -/
inductive HandleError where
  | rejected
  | unknown (code : Bytes)
deriving DecidableEq

/-- `HandleStreamResponseKind`. -/
inductive HandleStreamResponseKind where
  | head
  | chunk
deriving DecidableEq

/-- `HandleStreamResponse`, one frame of a streaming Endpoint. -/
structure HandleStreamResponse where
  kind : HandleStreamResponseKind
  status : Option Int
  headers : Option (List HeaderItem)
  body : Option Bytes
deriving DecidableEq

/-- `ConnectWebsocketRequest`. -/
structure ConnectWebsocketRequest where
  credential : Option CredentialEvidence
  headers : List HeaderItem
  path : Bytes
  pathParameters : List PathParameter
  protocols : List Bytes
  query : Option Bytes
  requestId : Bytes
  routeId : Bytes
deriving DecidableEq

/-- Why an invocation returned no response. -/
inductive InvocationError (ε : Type) where
  | domain (error : ε)
  | runtime (failure : RuntimeFailure)
deriving DecidableEq

/-- What one receive on a response stream yields. -/
abbrev ResponseEvent := Except RuntimeFailure (StreamEvent HandleStreamResponse HandleError)

/-- What one receive on a WebSocket stream yields. -/
abbrev SocketEvent := Except RuntimeFailure (StreamEvent Frame ConnectWebsocketError)

abbrev ResponseStream := NativeStream HandleStreamResponse HandleError

/-- `EndpointClient`. -/
abbrev EndpointClient (η : Type) :=
  HandleRequest → Task η (Except (InvocationError HandleError) HandleResponse)

/-- `StreamEndpointClient`. -/
abbrev StreamEndpointClient (η : Type) :=
  HandleRequest → Task η (Except (InvocationError HandleError) (List ResponseEvent))

/-- `websocket_endpoint::EndpointClient`. -/
abbrev WebsocketEndpointClient (η : Type) :=
  ConnectWebsocketRequest → Task η (Except (InvocationError ConnectWebsocketError) (List SocketEvent))

/-- `WebIngressEndpointFailure`. -/
structure WebIngressEndpointFailure where
  requestId : Bytes
  routeId : Bytes
  providerIndex : Nat
  failure : RuntimeFailure
deriving DecidableEq

/-- `WebIngressDiagnostics::endpoint_runtime_failure`, which does not suspend;
`none` is an unwinding observer. -/
abbrev WebIngressDiagnostics (η : Type) := WebIngressEndpointFailure → η → Option η

end Ingress
