import LensoWeb.Foundation.Base64

/-!
# Forgiving Base64

The decoder of web platforms passes over white space, does without padding and drops
the bits that do not make up a byte, so several texts decode to the same bytes. The
encoder's own texts are among them, and decoding these and encoding again gives the
text back.
-/

namespace Foundation.Base64

/-- Take one or two padding characters off the end. -/
def stripPadding (text : Bytes) : Bytes :=
  match text.reverse with
  | 61 :: 61 :: rest => rest.reverse
  | 61 :: rest => rest.reverse
  | _ => text

/-- The bytes of a sequence of six-bit numbers. Four of them make three bytes; of what is
left over at the end, two make one byte and three make two. -/
def octets : List Nat → Bytes
  | first :: second :: third :: fourth :: rest =>
      let bits := first * 262144 + second * 4096 + third * 64 + fourth
      UInt8.ofNat (bits / 65536) :: UInt8.ofNat (bits / 256) :: UInt8.ofNat bits :: octets rest
  | [first, second, third] =>
      let bits := first * 4096 + second * 64 + third
      [UInt8.ofNat (bits / 1024), UInt8.ofNat (bits / 4)]
  | [first, second] => [UInt8.ofNat ((first * 64 + second) / 16)]
  | _ => []

/-- The forgiving decoder. -/
def decodeForgiving (text : Bytes) : Option Bytes :=
  let text := text.filter fun byte => !Text.isAsciiWhitespace byte
  let text := if text.length % 4 = 0 then stripPadding text else text
  if text.length % 4 = 1 then none else (text.mapM value).map octets

/-! ### Encoded text -/

/-- The six-bit numbers of some bytes. -/
def sextets : Bytes → List Nat
  | [] => []
  | [a] =>
      let bits := a.toNat * 16
      [bits / 64, bits % 64]
  | [a, b] =>
      let bits := (a.toNat * 256 + b.toNat) * 4
      [bits / 4096, bits / 64 % 64, bits % 64]
  | a :: b :: c :: rest =>
      let bits := a.toNat * 65536 + b.toNat * 256 + c.toNat
      bits / 262144 :: bits / 4096 % 64 :: bits / 64 % 64 :: bits % 64 :: sextets rest

/-- The number of padding characters. -/
def padding (bytes : Bytes) : Nat := (3 - bytes.length % 3) % 3

theorem encode_eq (bytes : Bytes) :
    encode bytes = (sextets bytes).map digit ++ List.replicate (padding bytes) 61 := by
  induction bytes using encode.induct with
  | case1 => rfl
  | case2 a => rfl
  | case3 a b => rfl
  | case4 a b c rest ih =>
      have same : padding (a :: b :: c :: rest) = padding rest := by
        simp only [padding, List.length_cons]
        omega
      rw [encode, sextets, same, ih]
      rfl

theorem sextets_lt {bytes : Bytes} {number : Nat} (member : number ∈ sextets bytes) :
    number < 64 := by
  induction bytes using sextets.induct with
  | case1 => cases member
  | case2 a =>
      have small : a.toNat < 256 := a.toNat_lt
      simp only [sextets, List.mem_cons, List.not_mem_nil, or_false] at member
      omega
  | case3 a b =>
      have smallA : a.toNat < 256 := a.toNat_lt
      have smallB : b.toNat < 256 := b.toNat_lt
      simp only [sextets, List.mem_cons, List.not_mem_nil, or_false] at member
      omega
  | case4 a b c rest ih =>
      have smallA : a.toNat < 256 := a.toNat_lt
      have smallB : b.toNat < 256 := b.toNat_lt
      have smallC : c.toNat < 256 := c.toNat_lt
      simp only [sextets, List.mem_cons] at member
      obtain rfl | rfl | rfl | rfl | later := member
      · omega
      · omega
      · omega
      · omega
      · exact ih later

theorem octets_sextets (bytes : Bytes) : octets (sextets bytes) = bytes := by
  induction bytes using sextets.induct with
  | case1 => rfl
  | case2 a =>
      have small : a.toNat < 256 := a.toNat_lt
      have first : UInt8.ofNat ((a.toNat * 16 / 64 * 64 + a.toNat * 16 % 64) / 16) = a :=
        ofNat_eq (by omega)
      rw [sextets, octets, first]
  | case3 a b =>
      obtain ⟨first, second⟩ := ofNat_two a b
      generalize bits_eq : (a.toNat * 256 + b.toNat) * 4 = bits at first second
      have whole : bits / 4096 * 4096 + bits / 64 % 64 * 64 + bits % 64 = bits := by omega
      simp only [sextets, bits_eq, octets, whole, first, second]
  | case4 a b c rest ih =>
      obtain ⟨first, second, third⟩ := ofNat_three a b c
      generalize bits_eq : a.toNat * 65536 + b.toNat * 256 + c.toNat = bits at first second third
      have whole := four_digits bits
      simp only [sextets, bits_eq, octets, whole, first, second, third, ih]

theorem length_sextets (bytes : Bytes) :
    (sextets bytes).length = bytes.length + (bytes.length + 2) / 3 := by
  induction bytes using sextets.induct with
  | case1 => rfl
  | case2 a => simp [sextets]
  | case3 a b => simp [sextets]
  | case4 a b c rest ih =>
      simp only [sextets, List.length_cons, ih]
      omega

/-- Every three bytes, or what is left of them, take up four characters. -/
theorem length_encode (bytes : Bytes) : (encode bytes).length = 4 * ((bytes.length + 2) / 3) := by
  rw [encode_eq, List.length_append, List.length_map, List.length_replicate, length_sextets,
    padding]
  omega

theorem isAsciiWhitespace_of_mem_encode {bytes : Bytes} {byte : UInt8}
    (member : byte ∈ encode bytes) : Text.isAsciiWhitespace byte = false := by
  have solid : (alphabet.all fun byte => !Text.isAsciiWhitespace byte) = true := by rfl
  obtain shown | rfl := mem_encode member
  · have here := List.all_eq_true.mp solid byte shown
    rwa [Bool.not_eq_true'] at here
  · rfl

/-- Padding comes off a text of digits, as long as there are no more than two. -/
theorem stripPadding_append {front : Bytes} {count : Nat} (few : count ≤ 2)
    (digits : ∀ byte ∈ front, byte ≠ 61) :
    stripPadding (front ++ List.replicate count 61) = front := by
  have last : ∀ rest : Bytes, front.reverse ≠ 61 :: rest := by
    intro rest reversed
    refine digits 61 ?_ rfl
    rw [← List.mem_reverse, reversed]
    exact List.mem_cons_self
  obtain rfl | rfl | rfl : count = 0 ∨ count = 1 ∨ count = 2 := by omega
  · rw [List.replicate_zero, List.append_nil, stripPadding]
    split
    · next rest reversed => exact absurd reversed (last _)
    · next rest _ reversed => exact absurd reversed (last _)
    · rfl
  · have reversed : (front ++ List.replicate 1 61).reverse = 61 :: front.reverse := by simp
    rw [stripPadding, reversed]
    split
    · next rest again => exact absurd (List.cons.inj again).2 (last _)
    · next rest _ again => rw [← (List.cons.inj again).2, List.reverse_reverse]
    · next _ other => exact absurd rfl (other front.reverse)
  · have reversed : (front ++ List.replicate 2 61).reverse = 61 :: 61 :: front.reverse := by
      simp
    rw [stripPadding, reversed]
    exact List.reverse_reverse front

theorem mapM_value_digits {numbers : List Nat} (small : ∀ number ∈ numbers, number < 64) :
    (numbers.map digit).mapM value = some numbers := by
  induction numbers with
  | nil => rfl
  | cons number rest ih =>
      rw [List.map_cons, List.mapM_cons, value_digit (small number List.mem_cons_self),
        ih fun other member => small other (List.mem_cons_of_mem _ member)]
      rfl

/-- The forgiving decoder reads what the encoder writes. -/
theorem decodeForgiving_encode (bytes : Bytes) : decodeForgiving (encode bytes) = some bytes := by
  have solid : (encode bytes).filter (fun byte => !Text.isAsciiWhitespace byte) = encode bytes := by
    rw [List.filter_eq_self]
    intro byte member
    rw [isAsciiWhitespace_of_mem_encode member]
    rfl
  have whole : (encode bytes).length % 4 = 0 := by
    rw [length_encode]
    omega
  have stripped : stripPadding (encode bytes) = (sextets bytes).map digit := by
    rw [encode_eq]
    apply stripPadding_append (by rw [padding]; omega)
    intro byte member
    obtain ⟨number, inside, rfl⟩ := List.mem_map.mp member
    exact digit_ne_padding (sextets_lt inside)
  have count : ¬ ((sextets bytes).map digit).length % 4 = 1 := by
    rw [List.length_map, length_sextets]
    omega
  simp only [decodeForgiving, solid, if_pos whole, stripped, if_neg count]
  rw [mapM_value_digits fun _ => sextets_lt, Option.map_some, octets_sextets]

end Foundation.Base64
