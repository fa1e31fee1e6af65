import LensoWeb.Foundation.ObjectMap
import LensoWeb.Foundation.Result

/-!
# Derived JSON codecs

What `derive(Serialize, Deserialize)` makes of a type. A codec carries its own laws: the
values that fit the type are read back as they were written, and only such values are read.

A record is a list of fields, each with a codec and with what stands in for it when it is
absent. It is written as an object whose map orders the fields in its own way, and read from
an object whose fields come in any order, or by position from an array. A derived deserializer
goes through the fields of the object first, and decides afterwards about those that are
missing. Where a field does not fit its codec, the record is read back exactly as its fields
are, one by one.
-/

namespace Foundation

/-- What a derived deserializer refuses. -/
inductive DecodeError where
  | invalidType
  | invalidValue
  | unknownField (name : Str)
  | duplicateField (name : Str)
  | missingField (name : Str)
  | invalidLength
deriving DecidableEq

/-- A serializer and a deserializer that agree on the values of a type. -/
structure Codec (α : Type) where
  Fits : α → Prop
  encode : [FieldOrder] → α → Json
  decode : Json → Except DecodeError α
  decode_encode : ∀ [FieldOrder] value, Fits value → decode (encode value) = .ok value
  fits_of_decode : ∀ json value, decode json = .ok value → Fits value

namespace Codec

variable {α β : Type}

/-- A type that is written as another one. -/
def via (codec : Codec α) (into : α → β) (back : β → α) (fits : β → Prop)
    (retract : ∀ value, fits value → codec.Fits (back value) ∧ into (back value) = value)
    (image : ∀ value, codec.Fits value → fits (into value)) : Codec β where
  Fits := fits
  encode value := codec.encode (back value)
  decode json := (codec.decode json).map into
  decode_encode value held := by
    rw [codec.decode_encode _ (retract value held).1, Except.map, (retract value held).2]
  fits_of_decode json value read := by
    obtain ⟨inner, first, rfl⟩ := Result.map_eq_ok.mp read
    exact image inner (codec.fits_of_decode json inner first)

/-! ### Scalars -/

/-- The value of a number that is written with digits only. -/
def naturalOf (number : Number) : Option Nat :=
  if number.text.all Char.isDigit then some (Nat.ofDigitChars 10 number.text 0) else none

theorem naturalOf_ofNat (value : Nat) : naturalOf (Number.ofNat value) = some value := by
  have digits : (Number.ofNat value).text.all Char.isDigit = true := by
    rw [List.all_eq_true]
    intro c member
    exact Nat.isDigit_of_mem_toDigits (by decide) (by decide) member
  rw [naturalOf, if_pos digits, Number.ofNat, Nat.ofDigitChars_ten_toDigits]

/-- An unsigned integer of some width. -/
def unsigned (bits : Nat) : Codec Nat where
  Fits value := value < 2 ^ bits
  encode value := .number (.ofNat value)
  decode
    | .number number =>
        match naturalOf number with
        | some value => if value < 2 ^ bits then .ok value else .error .invalidValue
        | none => .error .invalidType
    | _ => .error .invalidType
  decode_encode value small := by
    simp only [naturalOf_ofNat]
    rw [if_pos small]
  fits_of_decode json value read := by
    cases json with
    | number number =>
        simp only at read
        split at read
        · split at read
          · next small =>
            cases read
            exact small
          · cases read
        · cases read
    | _ => cases read

/-- A `String`. -/
def text : Codec Str where
  Fits _ := True
  encode := .string
  decode
    | .string text => .ok text
    | _ => .error .invalidType
  decode_encode _ _ := rfl
  fits_of_decode _ _ _ := trivial

/-! ### Containers -/

/-- A `Vec`. -/
def list (item : Codec α) : Codec (List α) where
  Fits values := ∀ value ∈ values, item.Fits value
  encode values := .array (values.map item.encode)
  decode
    | .array items => items.mapM item.decode
    | _ => .error .invalidType
  decode_encode values fits := by
    refine Result.mapM_eq_ok.mpr ?_
    rw [List.forall₂_map_left_iff, List.forall₂_same]
    exact fun value member => item.decode_encode value (fits value member)
  fits_of_decode json values read := by
    cases json with
    | array items =>
        intro value member
        obtain ⟨source, -, made⟩ := Result.exists_of_mem_mapM read member
        exact item.fits_of_decode source value made
    | _ => cases read

/-- An `Option`, for a type that is never written as `null`. -/
def option (item : Codec α) (visible : ∀ [FieldOrder] value, item.encode value ≠ .null) :
    Codec (Option α) where
  Fits value := ∀ inner, value = some inner → item.Fits inner
  encode value := value.elim .null item.encode
  decode
    | .null => .ok none
    | json => (item.decode json).map some
  decode_encode value fits := by
    cases value with
    | none => rfl
    | some inner =>
        have read := item.decode_encode inner (fits inner rfl)
        have seen := visible inner
        rw [Option.elim_some]
        split
        · next absent => exact absurd absent seen
        · rw [read]
          rfl
  fits_of_decode json value read := by
    rintro inner rfl
    split at read
    · cases read
    · obtain ⟨held, first, same⟩ := Result.map_eq_ok.mp read
      cases same
      exact item.fits_of_decode _ _ first

end Codec

/-! ### Records -/

/-- A field of a record: whether a value is left out when it is written, and what is read
when the field is missing from an object or from an array. -/
structure RecordField (α : Type) where
  name : Str
  codec : Codec α
  skip : α → Bool
  missing : Option α
  absent : Option α
  missing_of_skip : ∀ value, skip value = true → missing = some value
  fits_missing : ∀ value, missing = some value → codec.Fits value
  fits_absent : ∀ value, absent = some value → codec.Fits value

namespace RecordField

variable {α : Type}

/-- A field that has to be there. -/
def required (name : Str) (codec : Codec α) : RecordField α where
  name := name
  codec := codec
  skip _ := false
  missing := none
  absent := none
  missing_of_skip _ impossible := (by cases impossible)
  fits_missing _ impossible := (by cases impossible)
  fits_absent _ impossible := (by cases impossible)

/-- A field with a default. -/
def withDefault (name : Str) (codec : Codec α) (default : α) (fits : codec.Fits default) :
    RecordField α where
  name := name
  codec := codec
  skip _ := false
  missing := some default
  absent := some default
  missing_of_skip _ impossible := (by cases impossible)
  fits_missing value same := (by cases same; exact fits)
  fits_absent value same := (by cases same; exact fits)

/-- An optional field that is left out when it is `None`. Reading by position accepts its
absence only if the field has a default. -/
def optional (name : Str) (codec : Codec α)
    (visible : ∀ [FieldOrder] value, codec.encode value ≠ .null) (defaulted : Bool) :
    RecordField (Option α) where
  name := name
  codec := codec.option visible
  skip value := value.isNone
  missing := some none
  absent := if defaulted then some none else none
  missing_of_skip value skipped := by rw [Option.isNone_iff_eq_none.mp skipped]
  fits_missing value same := by
    cases same
    rintro inner impossible
    cases impossible
  fits_absent value same := by
    cases defaulted with
    | false => cases same
    | true =>
        cases same
        rintro inner impossible
        cases impossible

/-- What is read back of a component. -/
def reread [FieldOrder] (field : RecordField α) (value : α) : Except DecodeError α :=
  if field.skip value then .ok value else field.codec.decode (field.codec.encode value)

theorem reread_of_fits [FieldOrder] {field : RecordField α} {value : α}
    (fits : field.codec.Fits value) : field.reread value = .ok value := by
  rw [reread]
  split
  · rfl
  · exact field.codec.decode_encode value fits

end RecordField

/-- The fields of a record, in the order of their declaration. -/
inductive Fields : Type → Type 1 where
  | nil : Fields Unit
  | cons {α β : Type} (field : RecordField α) (rest : Fields β) : Fields (α × β)

namespace Fields

variable {α β : Type}

/-- The names of the fields. -/
def names : {α : Type} → Fields α → List Str
  | _, nil => []
  | _, cons field rest => field.name :: names rest

/-- Every component fits its field. -/
def Fits : {α : Type} → Fields α → α → Prop
  | _, nil, _ => True
  | _, cons field rest, value => field.codec.Fits value.1 ∧ Fits rest value.2

/-- What is written, in the order of declaration. -/
def entries [FieldOrder] : {α : Type} → Fields α → α → List (Str × Json)
  | _, nil, _ => []
  | _, cons field rest, value =>
      if field.skip value.1 then entries rest value.2
      else (field.name, field.codec.encode value.1) :: entries rest value.2

/-- What the visitor makes of one field of an object, if it knows the name. -/
def probe : {α : Type} → Fields α → Str → Json → Option (Except DecodeError Unit)
  | _, nil, _, _ => none
  | _, cons field rest, key, json =>
      if key = field.name then some ((field.codec.decode json).map fun _ => ())
      else probe rest key json

/-- The visitor's way through an object. -/
def visit (fields : Fields α) (deny : Bool) : List Str → List (Str × Json) →
    Except DecodeError Unit
  | _, [] => .ok ()
  | seen, (key, json) :: rest =>
      match fields.probe key json with
      | none => if deny then .error (.unknownField key) else fields.visit deny seen rest
      | some outcome =>
          if key ∈ seen then .error (.duplicateField key)
          else outcome >>= fun () => fields.visit deny (key :: seen) rest

/-- The component of a field in an object, or what stands in for it. -/
def component (field : RecordField α) (object : List (Str × Json)) : Except DecodeError α :=
  match Assoc.find field.name object with
  | some json => field.codec.decode json
  | none => field.missing.elim (.error (.missingField field.name)) .ok

/-- The components, and what stands in for those that are missing. -/
def collect : {α : Type} → Fields α → List (Str × Json) → Except DecodeError α
  | _, nil, _ => .ok ()
  | _, cons field rest, object => do
      let value ← component field object
      return (value, ← collect rest object)

/-- The components by position. -/
def positional : {α : Type} → Fields α → List Json → Except DecodeError α
  | _, nil, [] => .ok ()
  | _, nil, _ :: _ => .error .invalidLength
  | _, cons field rest, [] => do
      let value ← field.absent.elim (.error .invalidLength) .ok
      return (value, ← positional rest [])
  | _, cons field rest, json :: items => do
      let value ← field.codec.decode json
      return (value, ← positional rest items)

/-- The components as they are read back, if each of them is. -/
def reread [FieldOrder] : {α : Type} → Fields α → α → Except DecodeError α
  | _, nil, _ => .ok ()
  | _, cons field rest, value => do
      let first ← field.reread value.1
      return (first, ← reread rest value.2)

/-- The derived deserializer. -/
def decode (fields : Fields α) (deny : Bool) : Json → Except DecodeError α
  | .object object => do
      fields.visit deny [] object
      fields.collect object
  | .array items => fields.positional items
  | _ => .error .invalidType

/-! ### Reading what was written -/

section Written

variable [FieldOrder]

theorem mem_entries {fields : Fields α} {value : α} {key : Str} {json : Json}
    (member : (key, json) ∈ fields.entries value) : key ∈ fields.names := by
  induction fields with
  | nil => cases member
  | cons field rest ih =>
      rw [entries] at member
      split at member
      · exact List.mem_cons_of_mem _ (ih member)
      · obtain same | later := List.mem_cons.mp member
        · cases same
          exact List.mem_cons_self
        · exact List.mem_cons_of_mem _ (ih later)

theorem nodup_entries {fields : Fields α} (distinct : fields.names.Nodup) (value : α) :
    ((fields.entries value).map Prod.fst).Nodup := by
  induction fields with
  | nil => exact List.nodup_nil
  | cons field rest ih =>
      rw [names, List.nodup_cons] at distinct
      rw [entries]
      split
      · exact ih distinct.2 value.2
      · rw [List.map_cons, List.nodup_cons]
        refine ⟨fun member => ?_, ih distinct.2 value.2⟩
        obtain ⟨⟨key, json⟩, inside, rfl⟩ := List.mem_map.mp member
        exact distinct.1 (mem_entries inside)

/-- What fits is read back as it was. -/
theorem reread_of_fits {fields : Fields α} {value : α} (fits : fields.Fits value) :
    fields.reread value = .ok value := by
  induction fields with
  | nil => rfl
  | cons field rest ih =>
      rw [reread, field.reread_of_fits fits.1, ih fits.2]
      rfl

/-- Where only the first component may not fit, it alone decides. -/
theorem reread_cons_eq_ok {field : RecordField α} {rest : Fields β} {value read : α × β}
    (fits : rest.Fits value.2) :
    (cons field rest).reread value = .ok read ↔
      field.reread value.1 = .ok read.1 ∧ read.2 = value.2 := by
  rw [reread, reread_of_fits fits]
  constructor
  · intro whole
    obtain ⟨first, here, same⟩ := Result.bind_eq_ok.mp whole
    cases same
    exact ⟨here, rfl⟩
  · rintro ⟨here, same⟩
    rw [here, ← same]
    rfl

/-- The visitor knows what was written and can read it. -/
theorem probe_of_mem {fields : Fields α} (distinct : fields.names.Nodup) {value read : α}
    (back : fields.reread value = .ok read) {key : Str} {json : Json}
    (member : (key, json) ∈ fields.entries value) : fields.probe key json = some (.ok ()) := by
  induction fields with
  | nil => cases member
  | cons field rest ih =>
      rw [names, List.nodup_cons] at distinct
      rw [reread] at back
      obtain ⟨first, here, back⟩ := Result.bind_eq_ok.mp back
      obtain ⟨others, there, -⟩ := Result.bind_eq_ok.mp back
      have later : (key, json) ∈ rest.entries value.2 →
          (cons field rest).probe key json = some (.ok ()) := by
        intro inside
        have apart : key ≠ field.name := fun same => distinct.1 (same ▸ mem_entries inside)
        rw [probe, if_neg apart]
        exact ih distinct.2 there inside
      rw [entries] at member
      split at member
      · exact later member
      · next written =>
        obtain same | inside := List.mem_cons.mp member
        · cases same
          rw [RecordField.reread, if_neg written] at here
          rw [probe, if_pos rfl, here]
          rfl
        · exact later inside

omit [FieldOrder] in
/-- The visitor gets through an object with distinct names that it knows and can read. -/
theorem visit_eq_ok {fields : Fields α} {deny : Bool} {seen : List Str}
    {object : List (Str × Json)} (distinct : (object.map Prod.fst).Nodup)
    (fresh : ∀ entry ∈ object, entry.1 ∉ seen)
    (readable : ∀ entry ∈ object, fields.probe entry.1 entry.2 = some (.ok ())) :
    fields.visit deny seen object = .ok () := by
  induction object generalizing seen with
  | nil => rfl
  | cons entry rest ih =>
      obtain ⟨key, json⟩ := entry
      rw [List.map_cons, List.nodup_cons] at distinct
      rw [visit, readable _ List.mem_cons_self]
      simp only [if_neg (fresh _ List.mem_cons_self)]
      refine ih distinct.2 ?_ fun other member => readable other (List.mem_cons_of_mem _ member)
      intro other member
      rw [List.mem_cons, not_or]
      refine ⟨fun same => distinct.1 ?_, fresh other (List.mem_cons_of_mem _ member)⟩
      exact List.mem_map.mpr ⟨other, member, same⟩

theorem find_entries_of_notMem {fields : Fields α} {key : Str} (unknown : key ∉ fields.names)
    (value : α) : Assoc.find key (fields.entries value) = none := by
  rw [Assoc.find_eq_none_iff]
  intro member
  obtain ⟨⟨name, json⟩, inside, rfl⟩ := List.mem_map.mp member
  exact unknown (mem_entries inside)

/-- From every object in which the components are found as written, they are collected as they
are read back. -/
theorem collect_of_agree {fields : Fields α} (distinct : fields.names.Nodup) {value : α}
    {object : List (Str × Json)}
    (agree : ∀ key ∈ fields.names,
      Assoc.find key object = Assoc.find key (fields.entries value)) :
    fields.collect object = fields.reread value := by
  induction fields with
  | nil => rfl
  | cons field rest ih =>
      rw [names, List.nodup_cons] at distinct
      have later : rest.collect object = rest.reread value.2 := by
        refine ih distinct.2 fun key member => ?_
        have apart : field.name ≠ key := fun same => distinct.1 (same ▸ member)
        rw [agree key (List.mem_cons_of_mem _ member), entries]
        split
        · rfl
        · rw [Assoc.find_cons, if_neg apart]
      have here := agree field.name List.mem_cons_self
      rw [entries] at here
      have first : component field object = field.reread value.1 := by
        rw [component, here, RecordField.reread]
        by_cases skipped : field.skip value.1 = true
        · rw [if_pos skipped, if_pos skipped, find_entries_of_notMem distinct.1]
          simp only [field.missing_of_skip _ skipped, Option.elim_some]
        · rw [if_neg skipped, if_neg skipped, Assoc.find_cons, if_pos rfl]
      rw [collect, reread, first, later]

/-- A record that has been written is read back as its components are, whether or not unknown
fields are denied. -/
theorem decode_entries {fields : Fields α} (distinct : fields.names.Nodup) {value read : α}
    (deny : Bool) :
    fields.decode deny (.object (ObjectMap.ofList (fields.entries value))) = .ok read ↔
      fields.reread value = .ok read := by
  have keys := nodup_entries distinct value
  have collected : fields.collect (ObjectMap.ofList (fields.entries value)) =
      fields.reread value :=
    collect_of_agree distinct fun key _ => ObjectMap.find_ofList keys key
  rw [decode, ← collected]
  constructor
  · intro whole
    obtain ⟨_, -, whole⟩ := Result.bind_eq_ok.mp whole
    exact whole
  · intro back
    have visited : fields.visit deny [] (ObjectMap.ofList (fields.entries value)) = .ok () := by
      refine visit_eq_ok (ObjectMap.arranged_ofList _).nodup (fun _ _ => List.not_mem_nil)
        fun entry member => ?_
      exact probe_of_mem distinct (collected.symm.trans back)
        ((ObjectMap.mem_ofList keys).mp member)
    rw [visited]
    exact back

end Written

/-! ### What is read -/

theorem fits_of_collect {fields : Fields α} {object : List (Str × Json)} {value : α}
    (read : fields.collect object = .ok value) : fields.Fits value := by
  induction fields with
  | nil => trivial
  | cons field rest ih =>
      obtain ⟨first, here, read⟩ := Result.bind_eq_ok.mp read
      obtain ⟨others, later, same⟩ := Result.bind_eq_ok.mp read
      cases same
      refine ⟨?_, ih later⟩
      rw [component] at here
      split at here
      · exact field.codec.fits_of_decode _ _ here
      · cases missing : field.missing with
        | none =>
            rw [missing] at here
            cases here
        | some default =>
            rw [missing] at here
            cases here
            exact field.fits_missing _ missing

theorem fits_of_positional {fields : Fields α} {items : List Json} {value : α}
    (read : fields.positional items = .ok value) : fields.Fits value := by
  induction fields generalizing items with
  | nil => trivial
  | cons field rest ih =>
      cases items with
      | nil =>
          obtain ⟨first, here, read⟩ := Result.bind_eq_ok.mp read
          obtain ⟨others, later, same⟩ := Result.bind_eq_ok.mp read
          cases same
          refine ⟨?_, ih later⟩
          cases absent : field.absent with
          | none =>
              rw [absent] at here
              cases here
          | some default =>
              rw [absent] at here
              cases here
              exact field.fits_absent _ absent
      | cons json rest =>
          obtain ⟨first, here, read⟩ := Result.bind_eq_ok.mp read
          obtain ⟨others, later, same⟩ := Result.bind_eq_ok.mp read
          cases same
          exact ⟨field.codec.fits_of_decode _ _ here, ih later⟩

theorem fits_of_decode {fields : Fields α} {deny : Bool} {json : Json} {value : α}
    (read : fields.decode deny json = .ok value) : fields.Fits value := by
  cases json with
  | object object =>
      obtain ⟨-, -, collected⟩ := Result.bind_eq_ok.mp read
      exact fits_of_collect collected
  | array items => exact fits_of_positional read
  | _ => cases read

theorem mem_names_of_probe {fields : Fields α} {key : Str} {json : Json}
    (known : fields.probe key json ≠ none) : key ∈ fields.names := by
  induction fields with
  | nil => exact absurd rfl known
  | cons field rest ih =>
      rw [probe] at known
      split at known
      · next same => exact List.mem_cons.mpr (.inl same)
      · exact List.mem_cons_of_mem _ (ih known)

/-- An object that is visited without unknown fields has fields that are known and can be read,
each once. -/
theorem of_visit {fields : Fields α} {seen : List Str} {object : List (Str × Json)}
    (visited : fields.visit true seen object = .ok ()) :
    (object.map Prod.fst).Nodup ∧
      ∀ entry ∈ object, fields.probe entry.1 entry.2 = some (.ok ()) ∧ entry.1 ∉ seen := by
  induction object generalizing seen with
  | nil => exact ⟨List.nodup_nil, fun _ member => absurd member List.not_mem_nil⟩
  | cons entry rest ih =>
      obtain ⟨key, json⟩ := entry
      rw [visit] at visited
      split at visited
      · cases visited
      · next outcome known =>
        split at visited
        · cases visited
        next fresh =>
        obtain ⟨_, readable, later⟩ := Result.bind_eq_ok.mp visited
        obtain ⟨distinct, others⟩ := ih later
        refine ⟨List.nodup_cons.mpr ⟨fun member => ?_, distinct⟩, ?_⟩
        · obtain ⟨other, inside, same⟩ := List.mem_map.mp member
          exact (others other inside).2 (List.mem_cons.mpr (.inl same))
        · refine List.forall_mem_cons.mpr ⟨⟨by rw [known, readable], fresh⟩, ?_⟩
          intro other member
          exact ⟨(others other member).1, fun held =>
            (others other member).2 (List.mem_cons_of_mem _ held)⟩

/-- An object of a record that denies unknown fields. -/
def KnownOnly (fields : Fields α) (object : List (Str × Json)) : Prop :=
  (object.map Prod.fst).Nodup ∧ ∀ entry ∈ object, entry.1 ∈ fields.names

theorem knownOnly_of_decode {fields : Fields α} {object : List (Str × Json)} {value : α}
    (read : fields.decode true (.object object) = .ok value) : fields.KnownOnly object := by
  obtain ⟨_, visited, -⟩ := Result.bind_eq_ok.mp read
  obtain ⟨distinct, known⟩ := of_visit visited
  refine ⟨distinct, fun entry member => @mem_names_of_probe _ _ _ entry.2 ?_⟩
  rw [(known entry member).1]
  exact Option.some_ne_none _

/-- What a field of such an object holds can be read. -/
theorem probe_of_decode {fields : Fields α} {object : List (Str × Json)} {value : α}
    (read : fields.decode true (.object object) = .ok value) {key : Str} {json : Json}
    (held : Assoc.find key object = some json) : fields.probe key json = some (.ok ()) := by
  obtain ⟨_, visited, -⟩ := Result.bind_eq_ok.mp read
  exact ((of_visit visited).2 _ (Assoc.mem_of_find held)).1

/-- The codec of a record. -/
def codec (fields : Fields α) (deny : Bool) (distinct : fields.names.Nodup) : Codec α where
  Fits := fields.Fits
  encode value := .object (ObjectMap.ofList (fields.entries value))
  decode := fields.decode deny
  decode_encode _ fits := (decode_entries distinct deny).mpr (reread_of_fits fits)
  fits_of_decode _ _ read := fits_of_decode read

end Fields

end Foundation
