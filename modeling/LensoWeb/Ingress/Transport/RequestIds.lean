import LensoWeb.Foundation.Decimal
import LensoWeb.Foundation.Transition
import LensoWeb.Ingress.Dispatch.Isolation
import LensoWeb.Ingress.Transport

/-!
# Request identifiers

An identifier is a number drawn from a counter, written from its last digit into a
buffer that the largest number fills to the first byte. The lanes of a replicated
listener share one counter. Drawing is atomic, but between drawing and writing into
its request a lane may be overtaken by any other.
-/

namespace Ingress

open Foundation Http Kernel

/-! ### Writing an identifier -/

theorem writeDigits_succ (start value : Nat) (buffer : Bytes) :
    writeDigits (start + 1) value buffer =
      if value / 10 = 0 then some (start, buffer.set start (Decimal.digit (value % 10)))
      else writeDigits start (value / 10) (buffer.set start (Decimal.digit (value % 10))) := rfl

/-- The digit loop writes the numeral right below `start` and nothing else. -/
theorem writeDigits_eq {start value : Nat} {buffer : Bytes}
    (room : (Decimal.digits value).length ≤ start) (inside : start ≤ buffer.length) :
    writeDigits start value buffer =
      some (start - (Decimal.digits value).length,
        buffer.take (start - (Decimal.digits value).length) ++ Decimal.digits value ++
          buffer.drop start) := by
  induction start generalizing value buffer with
  | zero =>
      have positive := Decimal.length_digits_pos value
      omega
  | succ start ih =>
      have last : buffer.set start (Decimal.digit (value % 10)) =
          buffer.take start ++ Decimal.digit (value % 10) :: buffer.drop (start + 1) := by
        rw [List.set_eq_take_append_cons_drop, if_pos (by omega)]
      rw [writeDigits_succ]
      by_cases small : value < 10
      · rw [if_pos (by omega), last, Decimal.digits_of_lt small, Nat.mod_eq_of_lt small]
        simp
      · rw [Decimal.digits_of_le (by omega), List.length_append, List.length_singleton] at room ⊢
        rw [if_neg (by omega), ih (by omega) (by rw [List.length_set]; omega)]
        have shorter : start + 1 - ((Decimal.digits (value / 10)).length + 1) =
            start - (Decimal.digits (value / 10)).length := by omega
        have front : (buffer.set start (Decimal.digit (value % 10))).take
            (start - (Decimal.digits (value / 10)).length) =
              buffer.take (start - (Decimal.digits (value / 10)).length) := by
          rw [List.take_set_of_le (by omega)]
        have back : (buffer.set start (Decimal.digit (value % 10))).drop start =
            Decimal.digit (value % 10) :: buffer.drop (start + 1) := by
          rw [last, List.drop_left' (by rw [List.length_take]; omega)]
        rw [shorter, front, back]
        simp

/-- The numeral of a 64-bit number has at most twenty digits. -/
theorem length_digits_le (value : UInt64) : (Decimal.digits value.toNat).length ≤ 20 := by
  have bound := value.toNat_lt
  apply (Decimal.length_digits_le_iff (by omega)).mpr
  omega

/-- The text of an identifier. -/
def requestIdText (value : UInt64) : Bytes := ascii "lenso-" ++ Decimal.digits value.toNat

/-- The number in an identifier. -/
def drawnNumber (text : Bytes) : Option Nat :=
  if ascii "lenso-" <+: text then Text.decimal (text.drop 6) else none

theorem drawnNumber_requestIdText (value : UInt64) :
    drawnNumber (requestIdText value) = some value.toNat := by
  have front : ascii "lenso-" <+: requestIdText value := List.prefix_append _ _
  have rest : (requestIdText value).drop 6 = Decimal.digits value.toNat := List.drop_left' rfl
  rw [drawnNumber, if_pos front, rest, Decimal.decimal_digits]

theorem requestIdText_injective : Function.Injective requestIdText := by
  intro left right same
  apply UInt64.toNat_inj.mp
  apply Option.some.inj
  rw [← drawnNumber_requestIdText, same, drawnNumber_requestIdText]

theorem length_requestIdText (value : UInt64) :
    7 ≤ (requestIdText value).length ∧ (requestIdText value).length ≤ 26 := by
  have positive := Decimal.length_digits_pos value.toNat
  have bounded := length_digits_le value
  have six : (ascii "lenso-").length = 6 := rfl
  rw [requestIdText, List.length_append]
  omega

theorem visible_requestIdText (value : UInt64) :
    (requestIdText value).all isVisibleAscii = true := by
  have digital : ∀ byte, Text.isDigit byte = true → isVisibleAscii byte = true :=
    Text.forall_byte (by decide +kernel)
  rw [requestIdText, List.all_append, Bool.and_eq_true]
  exact ⟨by decide, List.all_eq_true.mpr fun byte member =>
    digital byte (Decimal.isDigit_of_mem member)⟩

/-- The digit loop ends inside the buffer, with room for the text before the digits. -/
theorem writeDigits_request (value : UInt64) :
    ∃ start buffer, writeDigits 26 value.toNat (List.replicate 26 0) = some (start, buffer) ∧
      6 ≤ start ∧ start < 26 ∧ buffer.length = 26 ∧
      buffer.drop start = Decimal.digits value.toNat := by
  have positive := Decimal.length_digits_pos value.toNat
  have bounded := length_digits_le value
  refine ⟨_, _, writeDigits_eq (by omega) (by simp), by omega, by omega, ?_, ?_⟩
  · simp only [List.length_append, List.length_take, List.length_drop, List.length_replicate]
    omega
  · have front : ((List.replicate 26 (0 : UInt8)).take
        (26 - (Decimal.digits value.toNat).length)).length =
          26 - (Decimal.digits value.toNat).length := by
      rw [List.length_take, List.length_replicate]
      omega
    rw [List.append_assoc, List.drop_left' front]
    simp

theorem requestIdHeaderValue_eq (value : UInt64) :
    ∃ requestId, requestIdHeaderValue value = some requestId ∧
      requestId.bytes = requestIdText value := by
  obtain ⟨start, buffer, looped, room, inside, whole, digits⟩ := writeDigits_request value
  have front : (buffer.take (start - 6)).length = start - 6 := by
    rw [List.length_take]
    omega
  have written : (buffer.take (start - 6) ++ ascii "lenso-" ++ buffer.drop (start - 6 + 6)).drop
      (start - 6) = requestIdText value := by
    rw [List.append_assoc, List.drop_left' front, Nat.sub_add_cancel room, digits]
    rfl
  have valid : (requestIdText value).all isValueByte = true :=
    List.all_eq_true.mpr fun byte member =>
      HeaderValue.isValueByte_of_visible byte
        (List.all_eq_true.mp (visible_requestIdText value) byte member)
  refine ⟨⟨requestIdText value, valid⟩, ?_, rfl⟩
  rw [requestIdHeaderValue, looped]
  simp only [Option.bind_eq_bind, Option.bind_some, if_neg (Nat.not_lt.mpr room), written]
  exact dif_pos valid

/-! ### Requests -/

/-- The identifier replaces what the client sent, whatever that was, and is read back. -/
theorem requestId_insert (received : HeaderMap) {value : UInt64} {identifier : HeaderValue}
    (text : identifier.bytes = requestIdText value) :
    (received.insert requestIdHeader identifier).getAll requestIdHeader = [identifier] ∧
      requestId (received.insert requestIdHeader identifier) = .ok identifier.bytes := by
  have only : (received.insert requestIdHeader identifier).getAll requestIdHeader =
      [identifier] := by
    rw [MultiMap.getAll_insert, if_pos rfl]
  have visible : identifier.toStr = some identifier.bytes :=
    HeaderValue.toStr_eq_some_iff.mpr ⟨rfl, by rw [text]; exact visible_requestIdText value⟩
  obtain ⟨positive, bounded⟩ := length_requestIdText value
  have nonempty : identifier.bytes.isEmpty = false := by
    rw [text, List.isEmpty_eq_false_iff, ← List.length_pos_iff]
    omega
  have short : ¬ 128 < identifier.bytes.length := by
    rw [text]
    omega
  refine ⟨only, ?_⟩
  rw [requestId, MultiMap.get?, only]
  simp only [List.head?_cons, Option.bind_some, visible, nonempty, Bool.false_or,
    decide_eq_true_iff, if_neg short]

/-- `replace_request_id` returns, and the identifier depends on the counter alone. -/
theorem replaceRequestId_eq {η : Type} (world : World η) :
    ∃ identifier : HeaderValue, identifier.bytes = requestIdText world.requestIds ∧
      ∀ received : HeaderMap, replaceRequestId received world =
        (.ready (received.insert requestIdHeader identifier, identifier),
          { world with requestIds := world.requestIds + 1 }) := by
  obtain ⟨identifier, written, text⟩ := requestIdHeaderValue_eq world.requestIds
  refine ⟨identifier, text, fun received => ?_⟩
  have drawn : World.drawRequestId world =
      (.ready world.requestIds, { world with requestIds := world.requestIds + 1 }) := rfl
  rw [replaceRequestId, Task.bind_of_ready drawn, written]
  rfl

/-! ### Lanes -/

/-- A request with its identifier: the number drawn for it, the fields as the client sent
them, and the fields with the identifier. -/
structure Identified (ι : Type) where
  lane : ι
  number : UInt64
  received : HeaderMap
  headers : HeaderMap
  identifier : HeaderValue
deriving DecidableEq

/-- The counter, the number that a lane has drawn for the request it is at, and a record of
all numbers drawn and of all requests identified. A lane with a counter of its own is the
only lane of that counter. -/
structure RequestIds (ι : Type) where
  counter : UInt64
  drawn : List (ι × UInt64)
  issued : List UInt64
  identified : List (Identified ι)
deriving DecidableEq

/-- The two halves of `replace_request_id`. -/
inductive RequestIdAction (ι : Type) where
  | draws (lane : ι)
  | replaces (lane : ι) (received : HeaderMap)

namespace RequestIds

variable {ι : Type}

def start : RequestIds ι := ⟨0, [], [], []⟩

def step [DecidableEq ι] (s : RequestIds ι) : RequestIdAction ι → Option (RequestIds ι)
  | .draws lane =>
      if lane ∈ s.drawn.map Prod.fst then none
      else
        let (number, counter) := nextRequestId s.counter
        some { s with
          counter := counter
          drawn := (lane, number) :: s.drawn
          issued := s.issued ++ [number] }
  | .replaces lane received => do
      let (lane, number) ← s.drawn.find? fun entry => entry.1 = lane
      let identifier ← requestIdHeaderValue number
      some { s with
        drawn := s.drawn.erase (lane, number)
        identified := s.identified ++
          [⟨lane, number, received, received.insert requestIdHeader identifier, identifier⟩] }

/-- All interleavings of the lanes of one counter. -/
def machine (ι : Type) [DecidableEq ι] : Machine (RequestIds ι) (RequestIdAction ι) where
  initial s := s = start
  step := step

/-- What one action does. -/
theorem step_cases [DecidableEq ι] {s t : RequestIds ι} {action : RequestIdAction ι}
    (stepped : s.step action = some t) :
    (∃ lane, action = .draws lane ∧ t = { s with
        counter := s.counter + 1
        drawn := (lane, s.counter) :: s.drawn
        issued := s.issued ++ [s.counter] }) ∨
      ∃ lane number received identifier, (lane, number) ∈ s.drawn ∧
        requestIdHeaderValue number = some identifier ∧ action = .replaces lane received ∧
        t = { s with
          drawn := s.drawn.erase (lane, number)
          identified := s.identified ++
            [⟨lane, number, received, received.insert requestIdHeader identifier, identifier⟩] } := by
  cases action with
  | draws lane =>
      rw [step] at stepped
      split at stepped
      · cases stepped
      · cases stepped
        exact .inl ⟨lane, rfl, rfl⟩
  | replaces lane received =>
      obtain ⟨⟨owner, number⟩, found, rest⟩ := Option.bind_eq_some_iff.mp stepped
      obtain ⟨identifier, written, built⟩ := Option.bind_eq_some_iff.mp rest
      obtain rfl : owner = lane := by simpa using List.find?_some found
      cases built
      exact .inr ⟨owner, number, received, identifier, List.mem_of_find?_eq_some found, written,
        rfl, rfl⟩

/-- The numbers drawn are counted up from zero. Each is in the hands of one lane or in one
request, and a request carries the identifier of its number. -/
structure Accounted (s : RequestIds ι) : Prop where
  counted : s.issued = (List.range s.issued.length).map UInt64.ofNat
  counter : s.counter = UInt64.ofNat s.issued.length
  shared : (s.drawn.map Prod.snd ++ s.identified.map (·.number)).Perm s.issued
  written : ∀ one ∈ s.identified, requestIdHeaderValue one.number = some one.identifier ∧
    one.headers = one.received.insert requestIdHeader one.identifier

theorem accounted_start : (start : RequestIds ι).Accounted where
  counted := rfl
  counter := rfl
  shared := .nil
  written := List.forall_mem_nil _

/-- The counter does not repeat a number before it has gone round. -/
theorem Accounted.nodup {s : RequestIds ι} (accounted : s.Accounted)
    (few : s.issued.length ≤ 2 ^ 64) : s.issued.Nodup := by
  rw [accounted.counted]
  refine List.Nodup.map_on ?_ List.nodup_range
  intro left leftBelow right rightBelow same
  rw [List.mem_range] at leftBelow rightBelow
  have numbers := congrArg UInt64.toNat same
  rw [UInt64.toNat_ofNat', UInt64.toNat_ofNat', Nat.mod_eq_of_lt (by omega),
    Nat.mod_eq_of_lt (by omega)] at numbers
  exact numbers

/-- Until then, numbers have different identifiers, and so have their requests. -/
theorem Accounted.distinct {s : RequestIds ι} (accounted : s.Accounted)
    (few : s.issued.length ≤ 2 ^ 64) :
    (s.issued.map requestIdHeaderValue).Nodup ∧ (s.identified.map (·.identifier)).Nodup := by
  have injective : Function.Injective requestIdHeaderValue := by
    intro left right same
    obtain ⟨identifier, written, text⟩ := requestIdHeaderValue_eq left
    obtain ⟨other, rewritten, otherText⟩ := requestIdHeaderValue_eq right
    rw [written, rewritten, Option.some.injEq] at same
    exact requestIdText_injective (by rw [← text, ← otherText, same])
  have apart := (accounted.nodup few).map injective
  refine ⟨apart, ?_⟩
  have used : (s.identified.map (·.number)).Nodup :=
    (List.nodup_append.mp (accounted.shared.nodup_iff.mpr (accounted.nodup few))).2.1
  have shown : s.identified.map (fun one => some one.identifier) =
      (s.identified.map (·.number)).map requestIdHeaderValue := by
    rw [List.map_map]
    exact List.map_congr_left fun one member => (accounted.written one member).1.symm
  have numbered := used.map injective
  rw [← shown] at numbered
  apply List.Nodup.of_map some
  rw [List.map_map]
  exact numbered

theorem Accounted.step [DecidableEq ι] {s t : RequestIds ι} {action : RequestIdAction ι}
    (accounted : s.Accounted) (stepped : s.step action = some t) : t.Accounted := by
  obtain ⟨lane, -, rfl⟩ | ⟨lane, number, received, identifier, held, known, -, rfl⟩ :=
    step_cases stepped
  · refine ⟨?_, ?_, ?_, accounted.written⟩
    · rw [List.length_append, List.length_singleton, List.range_succ, List.map_append,
        ← accounted.counted, accounted.counter]
      rfl
    · rw [accounted.counter, List.length_append, List.length_singleton, UInt64.ofNat_add]
      rfl
    · rw [List.map_cons, List.cons_append]
      exact (accounted.shared.cons s.counter).trans (List.perm_append_singleton _ _).symm
  · refine ⟨accounted.counted, accounted.counter, ?_, ?_⟩
    · -- The number moves from the lane to the request.
      have moved := (List.perm_cons_erase held).map Prod.snd
      refine List.Perm.trans ?_ accounted.shared
      rw [List.map_append, List.map_singleton, ← List.append_assoc]
      refine (List.perm_append_singleton _ _).trans ?_
      rw [← List.cons_append]
      exact moved.symm.append_right _
    · intro one member
      obtain earlier | last := List.mem_append.mp member
      · exact accounted.written one earlier
      · rw [List.mem_singleton.mp last]
        exact ⟨known, rfl⟩

theorem accounted_of_reachable [DecidableEq ι] {s : RequestIds ι}
    (reached : (machine ι).Reachable s) : s.Accounted := by
  refine reached.invariant ?_ ?_
  · rintro s rfl
    exact accounted_start
  · intro s action t _ accounted stepped
    exact accounted.step stepped

/-- A lane that has drawn a number can always go on. -/
theorem replaces_isSome [DecidableEq ι] {s : RequestIds ι} {lane : ι}
    (busy : lane ∈ s.drawn.map Prod.fst) (received : HeaderMap) :
    (s.step (.replaces lane received)).isSome = true := by
  obtain ⟨entry, member, owned⟩ := List.mem_map.mp busy
  have present : (s.drawn.find? fun entry => entry.1 = lane).isSome = true :=
    List.find?_isSome.mpr ⟨entry, member, decide_eq_true owned⟩
  obtain ⟨⟨owner, number⟩, found⟩ := Option.isSome_iff_exists.mp present
  obtain ⟨identifier, written, -⟩ := requestIdHeaderValue_eq number
  rw [step, found]
  simp only [Option.bind_eq_bind, Option.bind_some, written, Option.isSome_some]

end RequestIds

/-- An identifier is the numeral of a number behind `lenso-`, and the number can be read
back. The numbers that the lanes of a counter draw have different identifiers until the
counter has gone round; a request carries the identifier of one of them as its only field
of that name, whatever the client sent, and shows it to the Endpoint. -/
theorem request_ids_distinct (ι : Type) [DecidableEq ι] :
    (∀ value : UInt64,
      (∃ start buffer, writeDigits 26 value.toNat (List.replicate 26 0) = some (start, buffer) ∧
        6 ≤ start ∧ start < 26 ∧ buffer.length = 26 ∧
        buffer.drop start = Decimal.digits value.toNat) ∧
      (∃ identifier, requestIdHeaderValue value = some identifier ∧
        identifier.bytes = ascii "lenso-" ++ Decimal.digits value.toNat ∧
        drawnNumber identifier.bytes = some value.toNat) ∧
      ((Decimal.digits value.toNat).head? = some 48 → value = 0)) ∧
    (∀ s : RequestIds ι, (RequestIds.machine ι).Reachable s →
      (s.issued.length ≤ 2 ^ 64 → (s.issued.map requestIdHeaderValue).Nodup ∧
        (s.identified.map (·.identifier)).Nodup) ∧
      ∀ one ∈ s.identified, one.number ∈ s.issued ∧
        requestIdHeaderValue one.number = some one.identifier ∧
        one.identifier.bytes ≠ [] ∧ one.identifier.bytes.length ≤ 26 ∧
        one.headers.getAll requestIdHeader = [one.identifier] ∧
        requestId one.headers = .ok one.identifier.bytes) ∧
    ∀ (η : Type) (world : World η), ∃ identifier : HeaderValue, ∀ received : HeaderMap,
      (∃ after, replaceRequestId received world =
        (.ready (received.insert requestIdHeader identifier, identifier), after)) ∧
      ∀ (external : External) (request : Request Bytes) (policy : Option SessionCookiePolicy)
        (routes : RouteTable η) (middleware : List (WebIngressMiddleware η)) (host : η)
        (requestIds : UInt64) (nextStream : StreamId) (visible : WebIngressRequest)
        (inbound : InboundRequest),
        request.headers = received.insert requestIdHeader identifier →
        .dispatched visible inbound ∈ (dispatchBuffered external request policy routes
          middleware (.start host requestIds nextStream)).2.effects →
        inbound.requestId = identifier.bytes := by
  refine ⟨fun value => ⟨writeDigits_request value, ?_, ?_⟩, fun s reached => ⟨?_, ?_⟩, ?_⟩
  · obtain ⟨identifier, written, text⟩ := requestIdHeaderValue_eq value
    exact ⟨identifier, written, text, by rw [text, drawnNumber_requestIdText]⟩
  · intro leading
    exact UInt64.toNat_inj.mp (Decimal.head?_digits_eq_zero_iff.mp leading)
  · exact (RequestIds.accounted_of_reachable reached).distinct
  · intro one member
    have accounted := RequestIds.accounted_of_reachable reached
    obtain ⟨written, replaced⟩ := accounted.written one member
    obtain ⟨identifier, rewritten, text⟩ := requestIdHeaderValue_eq one.number
    obtain rfl : one.identifier = identifier := Option.some.inj (written.symm.trans rewritten)
    obtain ⟨positive, bounded⟩ := length_requestIdText one.number
    obtain ⟨only, identified⟩ := requestId_insert one.received text
    refine ⟨?_, written, ?_, ?_, ?_, ?_⟩
    · apply accounted.shared.subset
      exact List.mem_append_right _ (List.mem_map_of_mem member)
    · rw [← List.length_pos_iff, text]
      omega
    · rw [text]
      exact bounded
    · rw [replaced, only]
    · rw [replaced, identified]
  · intro η world
    obtain ⟨identifier, text, replaces⟩ := replaceRequestId_eq world
    refine ⟨identifier, fun received => ⟨⟨_, replaces received⟩, ?_⟩⟩
    intro external request policy routes middleware host requestIds nextStream visible inbound
      renamed dispatched
    obtain ⟨client, accepted, restored⟩ := restored_of_dispatched rfl dispatched
    obtain ⟨identified, -⟩ := inboundRequest_eq_ok accepted
    obtain ⟨-, -, kept⟩ := restoreInboundRequest_eq_ok restored
    rw [renamed, (requestId_insert received text).2, Except.ok.injEq] at identified
    rw [kept, identified]
    rfl

/-- Two lanes: the first one draws, the second one overtakes it with a request that
already carries the first one's identifier. -/
def overtaking : List (RequestIdAction Bool) :=
  [.draws true, .draws false, .replaces false bareHeaders, .replaces true ∅]

theorem request_ids_distinct_overtaking :
    ∃ s, (RequestIds.machine Bool).run overtaking .start = some s ∧
      s.identified.map (·.identifier.bytes) = [ascii "lenso-1", ascii "lenso-0"] ∧
      (s.identified.map (·.identifier)).Nodup := by
  obtain ⟨s, ran⟩ := Option.isSome_iff_exists.mp
    (show ((RequestIds.machine Bool).run overtaking .start).isSome = true by decide +kernel)
  have reached : (RequestIds.machine Bool).Reachable s := ⟨_, _, rfl, ran⟩
  have shape : ((RequestIds.machine Bool).run overtaking .start).map (fun s =>
      (s.issued.length, s.identified.map (·.identifier.bytes))) =
        some (2, [ascii "lenso-1", ascii "lenso-0"]) := by decide +kernel
  rw [ran, Option.map_some, Option.some.injEq, Prod.mk.injEq] at shape
  have distinct := ((request_ids_distinct Bool).2.1 s reached).1
  exact ⟨s, ran, shape.2, (distinct (by omega)).2⟩

end Ingress
