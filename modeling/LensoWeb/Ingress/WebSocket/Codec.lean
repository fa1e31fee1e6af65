import LensoWeb.Foundation.Base64.Forgiving
import LensoWeb.Ingress.WebSocket.Workers

/-!
# The codec of the Workers transport

Binary frames cross the host boundary as Base64 text. `atob` is forgiving, so `binary`
encodes what it has decoded and compares. Both payload kinds are measured twice: a cheap
length in code units comes first, and the exact length in bytes decides.

`btoa`, `atob` and `TextEncoder` are the platform's and follow their standards.
-/

namespace Ingress

open Foundation

/-- A surrogate takes up at least as many bytes as code units, and so does everything else. -/
theorem length_le_utf8Length (text : JsString) : text.length ≤ utf8Length text := by
  fun_induction utf8Length text with
  | case1 => exact Nat.le_refl 0
  | case2 unit _ => rw [List.length_singleton]
  | case3 unit _ _ =>
      rw [List.length_singleton]
      omega
  | case4 unit _ _ =>
      rw [List.length_singleton]
      omega
  | case5 unit next rest paired ih =>
      rw [List.length_cons, List.length_cons]
      omega
  | case6 unit next rest unpaired ih =>
      rw [List.length_cons]
      split
      · omega
      · split <;> omega

namespace WorkersCodec

/-! ### Platform functions -/

/-- The string whose code units are these bytes. -/
def widen (bytes : Bytes) : JsString := bytes.map (·.toUInt16)

/-- The bytes of a string that has no other code units. -/
def narrow (text : JsString) : Option Bytes :=
  if text.all (· < 256) then some (text.map (·.toUInt8)) else none

/-- `btoa`, which throws on a code unit that is no byte. -/
def btoa (text : JsString) : Option JsString :=
  (narrow text).map fun bytes => widen (Base64.encode bytes)

/-- `atob`. A code unit that is no byte is neither white space nor padding nor a digit, so
that it throws as well. -/
def atob (text : JsString) : Option JsString := do
  let bytes ← Base64.decodeForgiving (← narrow text)
  return widen bytes

/-! ### The codec -/

/-- The loop of `base64`: the slices of the array, each behind the text so far. -/
def sliceLoop (bytes : Bytes) (offset : Nat) (text : JsString) : JsString :=
  if offset < bytes.length then
    sliceLoop bytes (offset + 16384) (text ++ widen ((bytes.drop offset).take 16384))
  else text
termination_by bytes.length - offset
decreasing_by omega

/-- `base64`. -/
def base64 (bytes : Bytes) : Option JsString := btoa (sliceLoop bytes 0 [])

/-- The body of a provider's frame, which may be any value. -/
inductive FrameBody where
  | string (text : JsString)
  | other

/-- The exact check of `binary`; `none` is an exception. Every code unit of a decoded text
is a byte, and none is a surrogate that `Uint8Array.from` would join with another. -/
def checked (text : JsString) (limit : Nat) : Option Bytes := do
  let decoded ← atob text
  if limit < decoded.length then none
  else
    let encoded ← btoa decoded
    if encoded ≠ text then none else some (decoded.map (·.toUInt8))

/-- `binary`. A third of a safe integer is off by less than a third when it is rounded, so
that `Math.ceil` finds the ceiling of the exact quotient. -/
def binary (body : FrameBody) (limit : Nat) : Option Bytes :=
  match body with
  | .string text => if 4 * ((limit + 2) / 3) < text.length then none else checked text limit
  | .other => none

/-! ### Encoding -/

theorem toUInt8_toUInt16 (byte : UInt8) : byte.toUInt16.toUInt8 = byte := by
  apply UInt8.toNat_inj.mp
  have bound := byte.toNat_lt
  rw [UInt16.toNat_toUInt8, UInt8.toNat_toUInt16]
  omega

theorem narrow_eq_some_iff {text : JsString} {bytes : Bytes} :
    narrow text = some bytes ↔ text = widen bytes := by
  constructor
  · intro narrowed
    rw [narrow, Option.ite_none_right_eq_some, Option.some.injEq] at narrowed
    obtain ⟨small, rfl⟩ := narrowed
    rw [widen, List.map_map, ← List.map_id text, List.map_map]
    refine List.map_congr_left fun unit member => ?_
    have bound : unit < 256 := of_decide_eq_true (List.all_eq_true.mp small unit member)
    rw [UInt16.lt_iff_toNat_lt] at bound
    apply UInt16.toNat_inj.mp
    simp only [Function.comp_apply, id, UInt8.toNat_toUInt16, UInt16.toNat_toUInt8]
    exact (Nat.mod_eq_of_lt bound).symm
  · rintro rfl
    have small : (widen bytes).all (· < 256) = true := by
      rw [widen, List.all_map, List.all_eq_true]
      intro byte _
      refine decide_eq_true (UInt16.lt_iff_toNat_lt.mpr ?_)
      rw [UInt8.toNat_toUInt16]
      exact byte.toNat_lt
    rw [narrow, if_pos small, widen, List.map_map, Option.some.injEq]
    refine (List.map_congr_left fun byte _ => toUInt8_toUInt16 byte).trans ?_
    exact List.map_id bytes

theorem narrow_widen (bytes : Bytes) : narrow (widen bytes) = some bytes :=
  narrow_eq_some_iff.mpr rfl

theorem widen_injective : Function.Injective widen := by
  intro left right same
  apply Option.some.inj
  rw [← narrow_widen left, same, narrow_widen]

theorem btoa_widen (bytes : Bytes) : btoa (widen bytes) = some (widen (Base64.encode bytes)) := by
  rw [btoa, narrow_widen, Option.map_some]

/-- The slices put together are the rest of the array. -/
theorem sliceLoop_eq (bytes : Bytes) (offset : Nat) (text : JsString) :
    sliceLoop bytes offset text = text ++ widen (bytes.drop offset) := by
  induction offset, text using sliceLoop.induct bytes with
  | case1 offset text inside ih =>
      have joined : widen ((bytes.drop offset).take 16384) ++ widen (bytes.drop (offset + 16384)) =
          widen (bytes.drop offset) := by
        rw [widen, widen, widen, ← List.map_append, ← List.drop_drop, List.take_append_drop]
      rw [sliceLoop, if_pos inside, ih, List.append_assoc, joined]
  | case2 offset text outside =>
      rw [sliceLoop, if_neg outside, List.drop_eq_nil_of_le (by omega)]
      exact (List.append_nil text).symm

/-- The slices do not show: the whole array is encoded. -/
theorem base64_eq (bytes : Bytes) : base64 bytes = some (widen (Base64.encode bytes)) := by
  rw [base64, sliceLoop_eq, List.nil_append, List.drop_zero, btoa_widen]

/-! ### Decoding -/

/-- The exact check accepts canonical texts of short arrays and nothing else. -/
theorem checked_eq_some_iff {text : JsString} {limit : Nat} {bytes : Bytes} :
    checked text limit = some bytes ↔
      text = widen (Base64.encode bytes) ∧ bytes.length ≤ limit := by
  constructor
  · intro accepted
    obtain ⟨decoded, read, rest⟩ := Option.bind_eq_some_iff.mp accepted
    obtain ⟨narrowed, -, read⟩ := Option.bind_eq_some_iff.mp read
    obtain ⟨found, -, read⟩ := Option.bind_eq_some_iff.mp read
    obtain rfl : widen found = decoded := Option.some.inj read
    split at rest
    · cases rest
    · next short =>
      rw [btoa_widen] at rest
      simp only [Option.bind_eq_bind, Option.bind_some, Option.ite_none_left_eq_some,
        Option.some.injEq, not_not] at rest
      obtain ⟨same, shown⟩ := rest
      have whole : (widen found).map (·.toUInt8) = found := by
        have again := narrow_widen found
        rw [narrow, Option.ite_none_right_eq_some, Option.some.injEq] at again
        exact again.2
      rw [whole] at shown
      rw [widen, List.length_map] at short
      rw [← shown, ← same]
      exact ⟨rfl, by omega⟩
  · rintro ⟨rfl, short⟩
    have read : atob (widen (Base64.encode bytes)) = some (widen bytes) := by
      rw [atob, narrow_widen]
      simp only [Option.bind_eq_bind, Option.bind_some, Base64.decodeForgiving_encode]
      rfl
    have small : ¬ limit < (widen bytes).length := by
      rw [widen, List.length_map]
      omega
    have whole : (widen bytes).map (·.toUInt8) = bytes := by
      have again := narrow_widen bytes
      rw [narrow, Option.ite_none_right_eq_some, Option.some.injEq] at again
      exact again.2
    rw [checked, read]
    simp only [Option.bind_eq_bind, Option.bind_some, if_neg small, btoa_widen, ne_eq,
      not_true_eq_false, if_false, whole]

/-- The length of the text says nothing that the exact check does not say. -/
theorem binary_eq_checked (text : JsString) (limit : Nat) :
    binary (.string text) limit = checked text limit := by
  rw [binary]
  split
  · next long =>
    symm
    rw [Option.eq_none_iff_forall_ne_some]
    intro bytes accepted
    obtain ⟨rfl, short⟩ := checked_eq_some_iff.mp accepted
    rw [widen, List.length_map, Base64.length_encode] at long
    omega
  · rfl

/-- The codec of the transport's model, whose frames hold the bytes of a body. -/
def codec : BinaryCodec where
  base64 := Base64.encode
  binary body limit := binary (.string (widen body)) limit

end WorkersCodec

/-! ### Lengths in code units -/

namespace WorkersTransport

variable (limits : WebSocketLimits) (codec : BinaryCodec)

/-- A text that is too long in code units is refused by the budget as well. -/
theorem budget_of_long {s : WorkersTransport} {text : JsString}
    (long : limits.maxMessageBytes < text.length) : s.budget limits (utf8Length text) = none := by
  have bound := length_le_utf8Length text
  exact if_pos (.inl (by omega))

/-- The handler of a text message, without the check of its length in code units. -/
theorem message_text (s : WorkersTransport) (text : JsString) :
    s.message limits codec (.text text) =
      if !s.active || s.peerClosed || s.scopeClosed then s
      else
        match s.budget limits (utf8Length text) with
        | none => s.fail 1009
        | some s => s.enqueue limits (.text text) (utf8Length text) := by
  rw [message, hostFrame]
  by_cases long : limits.maxMessageBytes < text.length
  · rw [if_pos long, budget_of_long limits long]
  · cases budgeted : s.budget limits (utf8Length text) with
    | none => simp only [if_neg long, budgeted]
    | some next => simp only [if_neg long, budgeted]

/-- The read loop on a text, without the check of its length in code units. -/
theorem provided_text (s : WorkersTransport) (text : JsString) (throws : Bool) :
    s.provided limits codec (.text text) throws =
      if !s.active || s.scopeClosed then { s with reading := false }
      else s.sendToPeer limits (utf8Length text) throws := by
  rw [provided]
  by_cases long : limits.maxMessageBytes < text.length
  · rw [sendToPeer, budget_of_long limits long]
    simp only [if_pos long]
  · simp only [if_neg long]

end WorkersTransport

/-- `base64` encodes the whole array in the standard way, and `binary` reads what `base64`
writes for an array of at most `limit` bytes, and no other value. The checks of a length in
code units refuse nothing that the exact checks of the length in bytes accept: without them
`binary`, the handler of messages and the read loop do the same. -/
theorem workers_codec_canonical :
    (∀ bytes, WorkersCodec.base64 bytes = some (WorkersCodec.widen (Base64.encode bytes))) ∧
    (∀ bytes limit, ∃ text, WorkersCodec.base64 bytes = some text ∧
      WorkersCodec.binary (.string text) limit =
        if bytes.length ≤ limit then some bytes else none) ∧
    (∀ body limit bytes, WorkersCodec.binary body limit = some bytes ↔
      ∃ text, body = .string text ∧ WorkersCodec.base64 bytes = some text ∧
        bytes.length ≤ limit) ∧
    (∀ text limit, WorkersCodec.binary (.string text) limit = WorkersCodec.checked text limit) ∧
    (∀ text : JsString, text.length ≤ utf8Length text) ∧
    ∀ (limits : WebSocketLimits) (s : WorkersTransport) (text : JsString) (throws : Bool),
      (s.message limits WorkersCodec.codec (.text text) =
        if !s.active || s.peerClosed || s.scopeClosed then s
        else
          match s.budget limits (utf8Length text) with
          | none => s.fail 1009
          | some s => s.enqueue limits (.text text) (utf8Length text)) ∧
      s.provided limits WorkersCodec.codec (.text text) throws =
        if !s.active || s.scopeClosed then { s with reading := false }
        else s.sendToPeer limits (utf8Length text) throws := by
  have accepts : ∀ text limit bytes, WorkersCodec.binary (.string text) limit = some bytes ↔
      text = WorkersCodec.widen (Base64.encode bytes) ∧ bytes.length ≤ limit := by
    intro text limit bytes
    rw [WorkersCodec.binary_eq_checked, WorkersCodec.checked_eq_some_iff]
  refine ⟨WorkersCodec.base64_eq, ?_, ?_, WorkersCodec.binary_eq_checked, length_le_utf8Length,
    fun limits s text throws => ⟨s.message_text limits _ text, s.provided_text limits _ text _⟩⟩
  · intro bytes limit
    refine ⟨_, WorkersCodec.base64_eq bytes, ?_⟩
    split
    · next short => exact (accepts _ _ _).mpr ⟨rfl, short⟩
    · next long =>
      rw [Option.eq_none_iff_forall_ne_some]
      intro other accepted
      obtain ⟨same, short⟩ := (accepts _ _ _).mp accepted
      have encoded := WorkersCodec.widen_injective same
      have decoded := Base64.decode_encode bytes
      rw [encoded, Base64.decode_encode] at decoded
      cases decoded
      exact long short
  · intro body limit bytes
    cases body with
    | string text =>
        rw [accepts, WorkersCodec.base64_eq]
        constructor
        · rintro ⟨rfl, short⟩
          exact ⟨_, rfl, rfl, short⟩
        · rintro ⟨_, ⟨⟩, encoded, short⟩
          exact ⟨(Option.some.inj encoded).symm, short⟩
    | other =>
        constructor
        · intro impossible
          cases impossible
        · rintro ⟨_, ⟨⟩, -⟩

end Ingress
