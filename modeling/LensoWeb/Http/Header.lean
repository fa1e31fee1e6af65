import LensoWeb.Foundation.MultiMap
import LensoWeb.Foundation.Text

/-!
# Header names, values and maps

The header types of the `http` crate as its documentation describes them. A name
is a lower-case token of at most `2^16 - 1` bytes; a value excludes control bytes
other than the tab, but may hold opaque bytes above ASCII; a map groups repeated
fields under their name in the order of first insertion. A map has at most `2^15`
slots, of which three quarters may be taken; a call that needs more unwinds. The
`sensitive` mark of a value is left out: no comparison and no transported byte
depends on it.
-/

namespace Http

open Foundation

/-- The token characters of a field name or a method. -/
def isTokenByte (byte : UInt8) : Bool :=
  (97 ≤ byte && byte ≤ 122) || (65 ≤ byte && byte ≤ 90) || (48 ≤ byte && byte ≤ 57) ||
    (ascii "!#$%&'*+-.^_`|~").contains byte

/-- Lower-case token text, which is how the crate stores and compares names. -/
structure HeaderName where
  text : Bytes
  nonempty : text ≠ []
  bounded : text.length ≤ 65535
  token : text.all isTokenByte = true
  lower : Text.lowercase text = text
deriving DecidableEq

namespace HeaderName

theorem ext_text {left right : HeaderName} (same : left.text = right.text) : left = right := by
  cases left
  cases right
  cases same
  rfl

theorem eq_iff_text {left right : HeaderName} : left = right ↔ left.text = right.text :=
  ⟨congrArg text, ext_text⟩

private theorem isTokenByte_toLower (byte : UInt8) :
    isTokenByte byte = true → isTokenByte (Text.toLower byte) = true :=
  Text.forall_byte (P := fun b => isTokenByte b = true → isTokenByte (Text.toLower b) = true)
    (by decide +kernel) byte

/-- `HeaderName::from_bytes`: letter case is normalised, anything else outside
the token alphabet is refused. -/
def fromBytes (source : Bytes) : Option HeaderName :=
  if valid : source ≠ [] ∧ source.length ≤ 65535 ∧ source.all isTokenByte = true then
    some
      { text := Text.lowercase source
        nonempty := by simpa [Text.lowercase] using valid.1
        bounded := by simpa [Text.lowercase] using valid.2.1
        token := by
          refine List.all_eq_true.mpr fun byte member => ?_
          obtain ⟨original, stored, rfl⟩ := List.mem_map.mp member
          exact isTokenByte_toLower original (List.all_eq_true.mp valid.2.2 original stored)
        lower := Text.lowercase_lowercase source }
  else none

/-- Parsing keeps the text up to letter case. -/
theorem text_of_fromBytes {source : Bytes} {name : HeaderName}
    (parsed : fromBytes source = some name) : name.text = Text.lowercase source := by
  unfold fromBytes at parsed
  split at parsed
  · cases parsed
    rfl
  · cases parsed

/-- A stored name parses back to itself. -/
@[simp] theorem fromBytes_text (name : HeaderName) : fromBytes name.text = some name := by
  unfold fromBytes
  rw [dif_pos ⟨name.nonempty, name.bounded, name.token⟩]
  exact congrArg some (ext_text name.lower)

end HeaderName

/-- A byte that a field value may carry. -/
def isValueByte (byte : UInt8) : Bool := (32 ≤ byte && byte != 127) || byte == 9

/-- A byte that `to_str` accepts. -/
def isVisibleAscii (byte : UInt8) : Bool := (32 ≤ byte && byte < 127) || byte == 9

/-- A field value, possibly with opaque bytes. -/
structure HeaderValue where
  bytes : Bytes
  valid : bytes.all isValueByte = true
deriving DecidableEq

namespace HeaderValue

/-- `HeaderValue::from_bytes`; `from_str` makes the same check on the bytes of its text. -/
def fromBytes (source : Bytes) : Option HeaderValue :=
  if valid : source.all isValueByte = true then some ⟨source, valid⟩ else none

theorem bytes_of_fromBytes {source : Bytes} {value : HeaderValue}
    (parsed : fromBytes source = some value) : value.bytes = source := by
  unfold fromBytes at parsed
  split at parsed
  · cases parsed
    rfl
  · cases parsed

/-- `HeaderValue::to_str`: the text of a value that is visible ASCII. -/
def toStr (value : HeaderValue) : Option Bytes :=
  if value.bytes.all isVisibleAscii then some value.bytes else none

theorem toStr_eq_some_iff {value : HeaderValue} {text : Bytes} :
    value.toStr = some text ↔ value.bytes = text ∧ text.all isVisibleAscii = true := by
  unfold toStr
  split
  · next visible =>
    rw [Option.some.injEq]
    constructor
    · rintro rfl
      exact ⟨rfl, visible⟩
    · exact fun whole => whole.1
  · next hidden =>
    constructor
    · intro impossible
      cases impossible
    · rintro ⟨rfl, visible⟩
      exact absurd visible hidden

/-- The text of a value is again a valid value, and it is the same one. -/
theorem fromBytes_of_toStr {value : HeaderValue} {text : Bytes} (visible : value.toStr = some text) :
    fromBytes text = some value := by
  obtain ⟨rfl, _⟩ := toStr_eq_some_iff.mp visible
  exact dif_pos value.valid

theorem visible_of_blank (byte : UInt8) : Text.isWhitespace byte = true →
    isValueByte byte = true → isVisibleAscii byte = true :=
  Text.forall_byte (P := fun b => Text.isWhitespace b = true → isValueByte b = true →
    isVisibleAscii b = true) (by decide +kernel) byte

theorem isValueByte_of_visible (byte : UInt8) :
    isVisibleAscii byte = true → isValueByte byte = true :=
  Text.forall_byte (P := fun b => isVisibleAscii b = true → isValueByte b = true)
    (by decide +kernel) byte

/-- A value is text exactly when its trimmed pieces are. -/
theorem visible_iff_pieces (value : HeaderValue) {separator : UInt8}
    (visible : isVisibleAscii separator = true) :
    value.bytes.all isVisibleAscii = true ↔
      ∀ piece ∈ Text.split separator value.bytes, (Text.trim piece).all isVisibleAscii = true := by
  simp only [List.all_eq_true]
  constructor
  · intro all piece split byte inside
    by_cases same : byte = separator
    · rw [same]
      exact visible
    · exact all byte ((Text.mem_split_iff same).mpr ⟨piece, split, Text.trim_subset piece inside⟩)
  · intro all byte member
    by_cases same : byte = separator
    · rw [same]
      exact visible
    · obtain ⟨piece, split, inside⟩ := (Text.mem_split_iff same).mp member
      obtain kept | blank := Text.mem_trim_or_isWhitespace inside
      · exact all piece split byte kept
      · exact visible_of_blank byte blank (List.all_eq_true.mp value.valid byte member)

end HeaderValue

/-- Header fields, grouped by name. -/
abbrev HeaderMap := MultiMap HeaderName HeaderValue

namespace HeaderMap

/-- How many names one map can hold. -/
def capacity : Nat := 24576

/-- The map can take one more field. Room is made before the name is looked up, so a
full map does not even take another value of a name that it has. -/
def HasRoom (headers : HeaderMap) : Prop := headers.keys.length < capacity

instance (headers : HeaderMap) : Decidable headers.HasRoom :=
  inferInstanceAs (Decidable (_ < _))

/-- `HeaderMap::with_capacity`; `none` is an unwinding. -/
def withCapacity? (names : Nat) : Option HeaderMap := if names ≤ capacity then some ∅ else none

/-- `HeaderMap::append`; `none` is an unwinding. -/
def append? (headers : HeaderMap) (name : HeaderName) (value : HeaderValue) : Option HeaderMap :=
  if headers.HasRoom then some (headers.append name value) else none

/-- `HeaderMap::insert`; `none` is an unwinding. -/
def insert? (headers : HeaderMap) (name : HeaderName) (value : HeaderValue) : Option HeaderMap :=
  if headers.HasRoom then some (headers.insert name value) else none

theorem insert?_eq_some_iff {headers next : HeaderMap} {name : HeaderName} {value : HeaderValue} :
    headers.insert? name value = some next ↔
      headers.HasRoom ∧ next = headers.insert name value := by
  rw [insert?, Option.ite_none_right_eq_some, Option.some.injEq, eq_comm (a := next)]

end HeaderMap

namespace HeaderName

def authorization : HeaderName := ⟨ascii "authorization", by decide, by decide, by decide, by decide⟩
def allow : HeaderName := ⟨ascii "allow", by decide, by decide, by decide, by decide⟩
def connection : HeaderName := ⟨ascii "connection", by decide, by decide, by decide, by decide⟩
def contentLength : HeaderName :=
  ⟨ascii "content-length", by decide, by decide, by decide, by decide⟩
def contentType : HeaderName := ⟨ascii "content-type", by decide, by decide, by decide, by decide⟩
def cookie : HeaderName := ⟨ascii "cookie", by decide, by decide, by decide, by decide⟩
def host : HeaderName := ⟨ascii "host", by decide, by decide, by decide, by decide⟩
def te : HeaderName := ⟨ascii "te", by decide, by decide, by decide, by decide⟩
def trailer : HeaderName := ⟨ascii "trailer", by decide, by decide, by decide, by decide⟩
def transferEncoding : HeaderName :=
  ⟨ascii "transfer-encoding", by decide, by decide, by decide, by decide⟩
def upgrade : HeaderName := ⟨ascii "upgrade", by decide, by decide, by decide, by decide⟩

end HeaderName

end Http
