import LensoWeb.Egress.Authority
import LensoWeb.Egress.Calls
import LensoWeb.Egress.Config
import LensoWeb.Egress.EventFetch
import LensoWeb.Egress.Parity
import LensoWeb.Egress.Policy
import LensoWeb.Egress.Provider
import LensoWeb.Egress.Workers
import LensoWeb.Endpoint.Attribute
import LensoWeb.Endpoint.Authoring
import LensoWeb.Endpoint.Describe
import LensoWeb.Endpoint.Dispatch
import LensoWeb.Endpoint.Expand
import LensoWeb.Endpoint.Extract
import LensoWeb.Endpoint.Operation
import LensoWeb.Endpoint.Serving
import LensoWeb.Endpoint.Strict
import LensoWeb.Endpoint.Testing
import LensoWeb.Foundation.Assoc
import LensoWeb.Foundation.Base64
import LensoWeb.Foundation.Base64.Forgiving
import LensoWeb.Foundation.BoundedRead
import LensoWeb.Foundation.Budget
import LensoWeb.Foundation.Census
import LensoWeb.Foundation.Channel
import LensoWeb.Foundation.Codec
import LensoWeb.Foundation.Decimal
import LensoWeb.Foundation.Json
import LensoWeb.Foundation.JsonSchema
import LensoWeb.Foundation.MultiMap
import LensoWeb.Foundation.Ranking
import LensoWeb.Foundation.Refines
import LensoWeb.Foundation.Render
import LensoWeb.Foundation.Replace
import LensoWeb.Foundation.Replace.Holes
import LensoWeb.Foundation.Replace.LastRound
import LensoWeb.Foundation.Replace.Orders
import LensoWeb.Foundation.Replace.Separate
import LensoWeb.Foundation.Result
import LensoWeb.Foundation.Task
import LensoWeb.Foundation.Terminated
import LensoWeb.Foundation.Text
import LensoWeb.Foundation.Transition
import LensoWeb.Host.Plan
import LensoWeb.Host.Replicated
import LensoWeb.Host.Root
import LensoWeb.Host.Simulated
import LensoWeb.Host.Tower
import LensoWeb.Http.Header
import LensoWeb.Http.Message
import LensoWeb.Ingress.Config
import LensoWeb.Ingress.Config.Plan
import LensoWeb.Ingress.Dispatch
import LensoWeb.Ingress.Dispatch.Fresh
import LensoWeb.Ingress.Dispatch.Isolation
import LensoWeb.Ingress.Dispatch.Opened
import LensoWeb.Ingress.Dispatch.Ownership
import LensoWeb.Ingress.Dispatch.Sockets
import LensoWeb.Ingress.Dispatch.Streaming
import LensoWeb.Ingress.Endpoint
import LensoWeb.Ingress.Event
import LensoWeb.Ingress.Event.Conservation
import LensoWeb.Ingress.Event.Factory
import LensoWeb.Ingress.Event.Permits
import LensoWeb.Ingress.Handshake
import LensoWeb.Ingress.Handshake.Grammar
import LensoWeb.Ingress.Manifest
import LensoWeb.Ingress.Middleware
import LensoWeb.Ingress.Middleware.Onion
import LensoWeb.Ingress.Parity
import LensoWeb.Ingress.Replication
import LensoWeb.Ingress.Replication.Acceptor
import LensoWeb.Ingress.Replication.Agreement
import LensoWeb.Ingress.Replication.Allocation
import LensoWeb.Ingress.Replication.Capacity
import LensoWeb.Ingress.Replication.HandOff
import LensoWeb.Ingress.Replication.Transition
import LensoWeb.Ingress.Request
import LensoWeb.Ingress.Request.Envelope
import LensoWeb.Ingress.Request.RoundTrip
import LensoWeb.Ingress.Response
import LensoWeb.Ingress.ResponseStream
import LensoWeb.Ingress.ResponseStream.Reading
import LensoWeb.Ingress.Routing
import LensoWeb.Ingress.Routing.Ending
import LensoWeb.Ingress.Routing.Exact
import LensoWeb.Ingress.Routing.Head
import LensoWeb.Ingress.Routing.Invariant
import LensoWeb.Ingress.Routing.Matchit
import LensoWeb.Ingress.Routing.Resolve
import LensoWeb.Ingress.Server
import LensoWeb.Ingress.Server.Activity
import LensoWeb.Ingress.Server.Admission
import LensoWeb.Ingress.Server.Budget
import LensoWeb.Ingress.Server.Collect
import LensoWeb.Ingress.Server.Idle
import LensoWeb.Ingress.Server.Serve
import LensoWeb.Ingress.Server.Watchdog
import LensoWeb.Ingress.SessionCookie
import LensoWeb.Ingress.SessionCookie.Folding
import LensoWeb.Ingress.SessionCookie.Selection
import LensoWeb.Ingress.Transport
import LensoWeb.Ingress.Transport.HeadLength
import LensoWeb.Ingress.Transport.Integrity
import LensoWeb.Ingress.Transport.Ownership
import LensoWeb.Ingress.Transport.RequestIds
import LensoWeb.Ingress.WebSocket
import LensoWeb.Ingress.WebSocket.Codec
import LensoWeb.Ingress.WebSocket.Native
import LensoWeb.Ingress.WebSocket.Session
import LensoWeb.Ingress.WebSocket.Workers
import LensoWeb.Ingress.WebSocket.WorkersQueue
import LensoWeb.Kernel
import LensoWeb.OpenApi.Assemble
import LensoWeb.OpenApi.Assemble.Order
import LensoWeb.OpenApi.Assemble.Parameters
import LensoWeb.OpenApi.Assemble.Template
import LensoWeb.OpenApi.Builder
import LensoWeb.OpenApi.Builder.Accepted
import LensoWeb.OpenApi.Config
import LensoWeb.OpenApi.Contract
import LensoWeb.OpenApi.Contract.Accepted
import LensoWeb.OpenApi.Cycle
import LensoWeb.OpenApi.Depth
import LensoWeb.OpenApi.Drift
import LensoWeb.OpenApi.Form
import LensoWeb.OpenApi.Grounded
import LensoWeb.OpenApi.Recursion
import LensoWeb.OpenApi.Schema
import LensoWeb.OpenApi.Transparency
import LensoWeb.Relay
