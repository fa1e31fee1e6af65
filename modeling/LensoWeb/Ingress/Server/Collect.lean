import LensoWeb.Egress.Provider
import LensoWeb.Foundation.Budget
import LensoWeb.Ingress.Server

/-!
# Bounded bodies on both sides

`collect_bounded_body` with the capacity it reserves for its buffer, and the read of a
body by Ingress and by Egress against the same specification. The declared length of a
request body moves the reserved capacity only.
-/

namespace Ingress

open Foundation

/-- `BytesMut`: what it holds and how much it has reserved. -/
structure BytesMut where
  contents : Bytes
  capacity : Nat
  reserved : contents.length ≤ capacity

namespace BytesMut

/-- `BytesMut::with_capacity`. -/
def withCapacity (capacity : Nat) : BytesMut := ⟨[], capacity, Nat.zero_le _⟩

/-- `BytesMut::extend_from_slice`; a buffer that is too small grows to what is needed. -/
def extendFromSlice (buffer : BytesMut) (data : Bytes) : BytesMut where
  contents := buffer.contents ++ data
  capacity := max buffer.capacity (buffer.contents.length + data.length)
  reserved := by
    rw [List.length_append]
    exact le_max_right _ _

end BytesMut

/-- The variables of the loop in `collect_bounded_body`, with the buffer as it is
reserved. -/
structure Collector where
  first : Option Bytes
  combined : Option BytesMut
  total : Nat

namespace Collector

/-- Add the data of one frame, the first two frames with data to a new buffer. -/
def extend (contentLength : Option Nat) (limit : Nat) (state : Collector) (data : Bytes)
    (total : Nat) : Collector :=
  match state.combined, state.first with
  | some buffer, first => ⟨first, some (buffer.extendFromSlice data), total⟩
  | none, some initial =>
      let capacity := max (min (contentLength.getD total) limit) total
      let buffer := (BytesMut.withCapacity capacity).extendFromSlice initial
      ⟨none, some (buffer.extendFromSlice data), total⟩
  | none, none => ⟨some data, none, total⟩

/-- One round of `collect_bounded_body`. -/
def collectFrame (contentLength : Option Nat) (limit : Nat) (state : Collector)
    (frame : Except Unit BodyFrame) : Except BodyReadError Collector :=
  match frame with
  | .error _ => .error .invalid
  | .ok .trailers => .ok state
  | .ok (.data data) =>
      match checkedAdd 64 state.total data.length with
      | none => .error .tooLarge
      | some total =>
          if limit < total then .error .tooLarge
          else if data.isEmpty then .ok { state with total := total }
          else .ok (state.extend contentLength limit data total)

/-- `BytesMut::freeze`, or the one retained chunk. -/
def freeze (state : Collector) : Bytes :=
  match state.combined, state.first with
  | some buffer, _ => buffer.contents
  | none, some data => data
  | none, none => []

/-- `collect_bounded_body`. -/
def collectBoundedBody (frames : List (Except Unit BodyFrame)) (contentLength : Option Nat)
    (limit : Nat) : Except BodyReadError Bytes := do
  let state ← frames.foldlM (collectFrame contentLength limit) ⟨none, none, 0⟩
  return state.freeze

/-! ### The reserved capacity does not show -/

/-- The variables without what the buffer has reserved. -/
def erase (state : Collector) : Collecting :=
  ⟨state.first, state.combined.map BytesMut.contents, state.total⟩

variable {contentLength : Option Nat} {limit : Nat}

theorem erase_extend (state : Collector) (data : Bytes) (total : Nat) :
    (state.extend contentLength limit data total).erase = state.erase.extend data total := by
  obtain ⟨_ | first, _ | combined, count⟩ := state <;> rfl

theorem contents_erase (state : Collector) : state.erase.contents = state.freeze := by
  obtain ⟨_ | first, _ | combined, count⟩ := state <;> rfl

theorem collectFrame_erase (state : Collector) (frame : Except Unit BodyFrame) :
    (state.collectFrame contentLength limit frame).map erase =
      Ingress.collectFrame limit state.erase frame := by
  rcases frame with _ | data | _
  · rfl
  · have total : state.erase.total = state.total := rfl
    simp only [collectFrame, Ingress.collectFrame, checkedAdd, total]
    by_cases fits : state.total + data.length < 2 ^ 64
    · rw [if_pos fits, if_neg (Nat.not_le.mpr fits)]
      dsimp only
      split
      · rfl
      · split
        · rfl
        · exact congrArg Except.ok (state.erase_extend _ _)
    · rw [if_neg fits, if_pos (Nat.not_lt.mp fits)]
      rfl
  · rfl

theorem collectFrames_erase (frames : List (Except Unit BodyFrame)) (state : Collector) :
    (frames.foldlM (collectFrame contentLength limit) state).map erase =
      frames.foldlM (Ingress.collectFrame limit) state.erase := by
  induction frames generalizing state with
  | nil => rfl
  | cons frame rest ih =>
      rw [List.foldlM_cons, List.foldlM_cons, ← @collectFrame_erase contentLength]
      cases state.collectFrame contentLength limit frame with
      | error failure => rfl
      | ok next => exact ih next

/-- The model without a declared length reads the same body. -/
theorem collectBoundedBody_erase (frames : List (Except Unit BodyFrame))
    (contentLength : Option Nat) (limit : Nat) :
    collectBoundedBody frames contentLength limit = Ingress.collectBoundedBody frames limit := by
  have loop := @collectFrames_erase contentLength limit frames ⟨none, none, 0⟩
  unfold collectBoundedBody Ingress.collectBoundedBody
  rw [show (⟨none, none, 0⟩ : Collecting) = erase ⟨none, none, 0⟩ from rfl, ← loop]
  cases frames.foldlM (collectFrame contentLength limit) ⟨none, none, 0⟩ with
  | error failure => rfl
  | ok last => exact congrArg Except.ok (contents_erase last).symm

end Collector

/-! ### Both sides -/

/-- For every limit, a body is read in order with exact sums: to the first error before
the limit is exceeded, to the first data that exceeds it, or else as the concatenation of
all data, whatever length was declared. Sums that do not fit a word exceed the limit. -/
theorem bounded_bodies_read {limit : Nat} (word : limit < 2 ^ 64) :
    (∀ (contentLength : Option Nat) (frames : List (Except Unit BodyFrame)),
      (∃! outcome, BoundedRead.Reads BodyFrame.bytes limit frames outcome) ∧
      ∀ outcome, BoundedRead.Reads BodyFrame.bytes limit frames outcome →
        Collector.collectBoundedBody frames contentLength limit = bodyResult outcome) ∧
    (∀ chunks : List (Except Egress.TransportError Bytes),
      Egress.HttpEgressProvider.Measurable limit [] chunks →
      (∃! outcome, BoundedRead.Reads id limit chunks outcome) ∧
      ∀ outcome, BoundedRead.Reads id limit chunks outcome →
        Egress.HttpEgressProvider.readBoundedBody limit chunks =
          Egress.HttpEgressProvider.bodyResult outcome) ∧
    ∀ total length, checkedAdd 64 total length = none ∨
      saturatingAdd 64 total length ≠ total + length → limit < total + length := by
  refine ⟨?_, ?_, ?_⟩
  · intro contentLength frames
    refine ⟨BoundedRead.existsUnique_reads _ _ _, fun outcome read => ?_⟩
    rw [Collector.collectBoundedBody_erase, collectBoundedBody_readFrom word,
      BoundedRead.reads_iff.mp read]
  · intro chunks measurable
    refine ⟨BoundedRead.existsUnique_reads _ _ _, fun outcome read => ?_⟩
    rw [Egress.HttpEgressProvider.readBoundedBody_eq measurable, BoundedRead.reads_iff.mp read]
  · rintro total length (overflow | saturated)
    · rw [checkedAdd] at overflow
      split at overflow
      · cases overflow
      · omega
    · by_contra small
      exact saturated (saturatingAdd_eq (by omega))

/-- A body in two frames around an empty one, with trailers and a wrong length. -/
def splitBody : List (Except Unit BodyFrame) :=
  [.ok (.data (ascii "len")), .ok (.data []), .ok (.data (ascii "so")), .ok .trailers]

theorem bounded_bodies_read_split :
    Collector.collectBoundedBody splitBody (some 1) 5 = .ok (ascii "lenso") ∧
      Collector.collectBoundedBody splitBody none 4 = .error .tooLarge ∧
      Egress.HttpEgressProvider.readBoundedBody 4 [.ok (ascii "len"), .error .timeout] =
        .error .timeout := by
  have within := @bounded_bodies_read 5 (by decide)
  have below := @bounded_bodies_read 4 (by decide)
  refine ⟨?_, ?_, ?_⟩
  · exact (within.1 (some 1) splitBody).2 (.whole (ascii "lenso"))
      (BoundedRead.reads_iff.mpr (by decide +kernel))
  · exact (below.1 none splitBody).2 .tooLarge (BoundedRead.reads_iff.mpr (by decide +kernel))
  · exact (below.2.1 _ (.inl (by decide))).2 (.failed .timeout)
      (BoundedRead.reads_iff.mpr (by decide +kernel))

end Ingress
