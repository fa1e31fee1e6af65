import Mathlib

/-!
# Byte text

Wire text is a list of bytes, as a Rust `String` or `&str` is. The operations
are the `str` operations of the standard library, restricted to what they do on
ASCII text: a separator is one byte, and the white space that `trim` removes is
`U+0009..=U+000D` and the space.
-/

namespace Foundation

/-- Raw bytes. Text taken from the wire is kept in this form as well. -/
abbrev Bytes := List UInt8

/-- The bytes of an ASCII literal. -/
def ascii (literal : String) : Bytes :=
  literal.toList.map fun c => UInt8.ofNat c.toNat

namespace Text

/-- `char::is_whitespace` on the ASCII range. -/
def isWhitespace (byte : UInt8) : Bool :=
  byte == 32 || (9 ≤ byte && byte ≤ 13)

/-- `u8::is_ascii_whitespace`, which leaves out the vertical tab. -/
def isAsciiWhitespace (byte : UInt8) : Bool :=
  byte == 32 || byte == 9 || byte == 10 || byte == 12 || byte == 13

/-- `str::trim`. -/
def trim (text : Bytes) : Bytes :=
  (text.dropWhile isWhitespace).rdropWhile isWhitespace

/-- `str::split` at every occurrence of one byte; empty pieces are kept. -/
def split (separator : UInt8) (text : Bytes) : List Bytes :=
  text.splitOn separator

/-- `str::split_once`: the text around the first occurrence of the separator. -/
def splitOnce (separator : UInt8) : Bytes → Option (Bytes × Bytes)
  | [] => none
  | byte :: rest =>
      if byte = separator then some ([], rest)
      else (splitOnce separator rest).map fun parts => (byte :: parts.1, parts.2)

/-- `u8::to_ascii_lowercase`. -/
def toLower (byte : UInt8) : UInt8 :=
  if 65 ≤ byte ∧ byte ≤ 90 then byte + 32 else byte

/-- `u8::to_ascii_uppercase`. -/
def toUpper (byte : UInt8) : UInt8 :=
  if 97 ≤ byte ∧ byte ≤ 122 then byte - 32 else byte

/-- `str::to_ascii_lowercase`. -/
def lowercase (text : Bytes) : Bytes := text.map toLower

/-- `str::to_ascii_uppercase`. -/
def uppercase (text : Bytes) : Bytes := text.map toUpper

/-- The digits `0` to `9`. -/
def isDigit (byte : UInt8) : Bool := 48 ≤ byte && byte ≤ 57

/-- The number that a text of decimal digits denotes; other texts denote none. -/
def decimal (text : Bytes) : Option Nat :=
  if text ≠ [] ∧ text.all isDigit = true then
    some (text.foldl (fun number digit => number * 10 + (digit.toNat - 48)) 0)
  else none

/-- `str::parse::<usize>`: a leading plus sign is allowed, overflow is not. -/
def parseUsize (bits : Nat) (text : Bytes) : Option Nat :=
  (decimal (if text.head? = some 43 then text.tail else text)).filter (· < 2 ^ bits)

theorem head_ne_of_decimal {text : Bytes} {number : Nat} (read : decimal text = some number) :
    text.head? ≠ some 43 := by
  rw [decimal] at read
  split at read
  · next digits =>
    intro signed
    obtain ⟨rest, rfl⟩ := List.head?_eq_some_iff.mp signed
    exact absurd (List.all_eq_true.mp digits.2 43 List.mem_cons_self) (by decide)
  · cases read

/-- A text of digits is read as its number, if at all. -/
theorem parseUsize_of_decimal {bits : Nat} {text : Bytes} {number : Nat}
    (read : decimal text = some number) :
    parseUsize bits text = (some number).filter (· < 2 ^ bits) := by
  rw [parseUsize, if_neg (head_ne_of_decimal read), read]

/-- What byte-wise comparison of texts compares. -/
def codes (text : Bytes) : List Nat := text.map UInt8.toNat

theorem codes_injective : Function.Injective codes :=
  List.map_injective_iff.mpr fun _ _ => UInt8.toNat_inj.mp

/-- `str::eq_ignore_ascii_case`. -/
def eqIgnoreCase (left right : Bytes) : Bool := lowercase left == lowercase right

theorem eqIgnoreCase_iff {left right : Bytes} :
    eqIgnoreCase left right = true ↔ lowercase left = lowercase right := beq_iff_eq

/-- A decidable fact about single bytes is settled by going through all of them. -/
theorem forall_byte {P : UInt8 → Prop} (all : ∀ n : Fin 256, P (UInt8.ofFin n))
    (byte : UInt8) : P byte := by
  have here := all byte.toFin
  rwa [UInt8.ofFin_toFin] at here

theorem toLower_toLower (byte : UInt8) : toLower (toLower byte) = toLower byte :=
  forall_byte (P := fun b => toLower (toLower b) = toLower b) (by decide +kernel) byte

@[simp] theorem lowercase_lowercase (text : Bytes) :
    lowercase (lowercase text) = lowercase text := by
  simp only [lowercase, List.map_map, List.map_inj_left, Function.comp_apply]
  exact fun byte _ => toLower_toLower byte

theorem splitOnce_eq_none_iff {separator : UInt8} {text : Bytes} :
    splitOnce separator text = none ↔ separator ∉ text := by
  induction text with
  | nil => simp [splitOnce]
  | cons byte rest ih =>
      by_cases here : byte = separator
      · simp [splitOnce, here]
      · simp [splitOnce, here, ih, Ne.symm here]

/-- The first piece never contains the separator, so the split is unique. -/
theorem splitOnce_eq_some_iff {separator : UInt8} {text front back : Bytes} :
    splitOnce separator text = some (front, back) ↔
      text = front ++ separator :: back ∧ separator ∉ front := by
  induction text generalizing front with
  | nil => simp [splitOnce]
  | cons byte rest ih =>
      by_cases here : byte = separator
      · subst here
        constructor
        · intro found
          simp only [splitOnce, if_true, Option.some.injEq, Prod.mk.injEq] at found
          obtain ⟨rfl, rfl⟩ := found
          simp
        · rintro ⟨whole, absent⟩
          cases front with
          | nil => simpa [splitOnce] using whole
          | cons head tail =>
              simp only [List.cons_append, List.cons.injEq] at whole
              exact absurd (by simp [whole.1]) absent
      · constructor
        · intro found
          simp only [splitOnce, if_neg here, Option.map_eq_some_iff, Prod.mk.injEq] at found
          obtain ⟨⟨head, tail⟩, split, rfl, rfl⟩ := found
          obtain ⟨whole, absent⟩ := ih.mp split
          exact ⟨by simp [whole], by simp [absent, Ne.symm here]⟩
        · rintro ⟨whole, absent⟩
          cases front with
          | nil =>
              simp only [List.nil_append, List.cons.injEq] at whole
              exact absurd whole.1 here
          | cons head tail =>
              simp only [List.cons_append, List.cons.injEq] at whole
              obtain ⟨rfl, rest_eq⟩ := whole
              have inner := ih.mpr ⟨rest_eq, fun inside => absent (by simp [inside])⟩
              simp [splitOnce, here, inner]

/-! ### Trimming and splitting -/

theorem mem_dropWhile_or {α : Type} {p : α → Bool} {element : α} {list : List α}
    (member : element ∈ list) : element ∈ list.dropWhile p ∨ p element = true := by
  rw [← List.takeWhile_append_dropWhile (p := p) (l := list), List.mem_append] at member
  obtain early | late := member
  · exact .inr (List.mem_takeWhile_imp early)
  · exact .inl late

/-- Trimming takes away white space only. -/
theorem mem_trim_or_isWhitespace {byte : UInt8} {text : Bytes} (member : byte ∈ text) :
    byte ∈ trim text ∨ isWhitespace byte = true := by
  obtain inside | blank := mem_dropWhile_or (p := isWhitespace) member
  · obtain kept | blank := mem_dropWhile_or (p := isWhitespace) (List.mem_reverse.mpr inside)
    · exact .inl (List.mem_reverse.mpr kept)
    · exact .inr blank
  · exact .inr blank

theorem trim_subset (text : Bytes) : trim text ⊆ text := by
  intro byte member
  rw [trim, List.rdropWhile, List.mem_reverse] at member
  have inside := List.mem_reverse.mp ((List.dropWhile_sublist _).mem member)
  exact (List.dropWhile_sublist _).mem inside

theorem of_mem_intercalate {separator byte : UInt8} {pieces : List Bytes}
    (member : byte ∈ [separator].intercalate pieces) :
    byte = separator ∨ ∃ piece ∈ pieces, byte ∈ piece := by
  induction pieces with
  | nil => cases member
  | cons piece rest ih =>
      rcases rest with _ | ⟨next, rest⟩
      · rw [List.intercalate_singleton] at member
        exact .inr ⟨piece, List.mem_cons_self, member⟩
      · rw [List.intercalate_cons_cons, List.mem_append, List.mem_append] at member
        obtain (first | between) | later := member
        · exact .inr ⟨piece, List.mem_cons_self, first⟩
        · exact .inl (List.mem_singleton.mp between)
        · obtain same | ⟨other, among, inside⟩ := ih later
          · exact .inl same
          · exact .inr ⟨other, List.mem_cons_of_mem _ among, inside⟩

theorem mem_intercalate_of_mem {separator byte : UInt8} {pieces : List Bytes} {piece : Bytes}
    (among : piece ∈ pieces) (inside : byte ∈ piece) :
    byte ∈ [separator].intercalate pieces := by
  induction pieces with
  | nil => cases among
  | cons first rest ih =>
      rcases rest with _ | ⟨next, rest⟩
      · rw [List.mem_singleton.mp among] at inside
        rwa [List.intercalate_singleton]
      · rw [List.intercalate_cons_cons, List.mem_append]
        obtain rfl | later := List.mem_cons.mp among
        · exact .inl (List.mem_append_left _ inside)
        · exact .inr (ih later)

/-- A byte of a text is the separator or stands in one of the pieces. -/
theorem mem_split_iff {separator byte : UInt8} {text : Bytes} (other : byte ≠ separator) :
    byte ∈ text ↔ ∃ piece ∈ split separator text, byte ∈ piece := by
  have whole : [separator].intercalate (split separator text) = text :=
    List.intercalate_splitOn separator
  constructor
  · intro member
    rw [← whole] at member
    exact (of_mem_intercalate member).resolve_left other
  · rintro ⟨piece, among, inside⟩
    rw [← whole]
    exact mem_intercalate_of_mem among inside

end Text

end Foundation
