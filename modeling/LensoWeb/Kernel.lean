import LensoWeb.Foundation.Text

/-!
# Kernel streams

What Ingress sees of the runtime kernel: failures, and Capability streams that
yield events one receive at a time. A stream is represented by the events that
its provider will still produce; a receive on a stream without further events
stays suspended.
-/

namespace Kernel

/-- The runtime failures that Ingress tells apart. -/
inductive RuntimeFailure where
  | pluginFailure (detail : String)
  | deadlineExceeded
  | other (detail : String)
deriving DecidableEq

/-- One event of a stream with frames `φ` and domain errors `ε`. -/
inductive StreamEvent (φ ε : Type) where
  | message (frame : φ)
  | peerHalfClosed
  | terminal (result : Except ε Unit)
deriving DecidableEq

abbrev StreamId := Nat

/-- An opened stream and what its provider will still produce. -/
structure NativeStream (φ ε : Type) where
  id : StreamId
  events : List (Except RuntimeFailure (StreamEvent φ ε))

/-- `plugin_failure`. -/
def pluginFailure (detail : String) : RuntimeFailure := .pluginFailure detail

end Kernel
