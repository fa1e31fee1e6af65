import LensoWeb.Foundation.Text

/-!
# Base64

The standard alphabet with padding. Three bytes are written as four digits of six
bits each; decoding is strict, so padding stands at the end only and the bits that it
cuts off are zero.
-/

namespace Foundation.Base64

/-- The digits in the order of their values. -/
def alphabet : Bytes := ascii "ABCDEFGHIJKLMNOPQRSTUVWXYZabcdefghijklmnopqrstuvwxyz0123456789+/"

/-- The digit with the given value. -/
def digit (number : Nat) : UInt8 := alphabet.getD number 65

/-- The value of a digit. -/
def value (byte : UInt8) : Option Nat := alphabet.idxOf? byte

theorem value_digit {number : Nat} (small : number < 64) : value (digit number) = some number := by
  have all : ∀ n : Fin 64, value (digit n) = some n.val := by decide +kernel
  exact all ⟨number, small⟩

theorem digit_ne_padding {number : Nat} (small : number < 64) : digit number ≠ 61 := by
  have all : ∀ n : Fin 64, digit n ≠ 61 := by decide +kernel
  exact all ⟨number, small⟩

theorem digit_mem {number : Nat} (small : number < 64) : digit number ∈ alphabet := by
  have all : ∀ n : Fin 64, digit n ∈ alphabet := by decide +kernel
  exact all ⟨number, small⟩

def encode : Bytes → Bytes
  | [] => []
  | [a] =>
      let bits := a.toNat * 16
      [digit (bits / 64), digit (bits % 64), 61, 61]
  | [a, b] =>
      let bits := (a.toNat * 256 + b.toNat) * 4
      [digit (bits / 4096), digit (bits / 64 % 64), digit (bits % 64), 61]
  | a :: b :: c :: rest =>
      let bits := a.toNat * 65536 + b.toNat * 256 + c.toNat
      digit (bits / 262144) :: digit (bits / 4096 % 64) :: digit (bits / 64 % 64) ::
        digit (bits % 64) :: encode rest

/-- The last four digits, of which at least the fourth is padding. -/
def decodePadded (first second third : UInt8) : Option Bytes := do
  let first ← value first
  let second ← value second
  if third = 61 then
    let bits := first * 64 + second
    if bits % 16 = 0 then some [UInt8.ofNat (bits / 16)] else none
  else
    let third ← value third
    let bits := first * 4096 + second * 64 + third
    if bits % 4 = 0 then some [UInt8.ofNat (bits / 1024), UInt8.ofNat (bits / 4)] else none

/-- Four digits without padding. -/
def decodeGroup (first second third fourth : UInt8) : Option Bytes := do
  let first ← value first
  let second ← value second
  let third ← value third
  let fourth ← value fourth
  let bits := first * 262144 + second * 4096 + third * 64 + fourth
  some [UInt8.ofNat (bits / 65536), UInt8.ofNat (bits / 256), UInt8.ofNat bits]

def decode : Bytes → Option Bytes
  | [] => some []
  | first :: second :: third :: fourth :: rest =>
      if fourth = 61 then
        if rest = [] then decodePadded first second third else none
      else do
        let bytes ← decodeGroup first second third fourth
        let others ← decode rest
        some (bytes ++ others)
  | _ => none

theorem ofNat_eq {byte : UInt8} {number : Nat} (same : number % 256 = byte.toNat) :
    UInt8.ofNat number = byte := by
  apply UInt8.toNat_inj.mp
  rw [UInt8.toNat_ofNat']
  exact same

/-- A number from its four digits of six bits, the first of which may be larger. -/
theorem four_digits (bits : Nat) :
    bits / 262144 * 262144 + bits / 4096 % 64 * 4096 + bits / 64 % 64 * 64 + bits % 64 = bits := by
  have low := Nat.div_add_mod bits 64
  have lower := Nat.div_add_mod (bits / 64) 64
  have upper := Nat.div_add_mod (bits / 4096) 64
  rw [Nat.div_div_eq_div_mul] at lower upper
  omega

/-- Two bytes read off the number that they make up, with two bits behind them. -/
theorem ofNat_two (a b : UInt8) :
    UInt8.ofNat ((a.toNat * 256 + b.toNat) * 4 / 1024) = a ∧
      UInt8.ofNat ((a.toNat * 256 + b.toNat) * 4 / 4) = b := by
  have smallA : a.toNat < 256 := a.toNat_lt
  have smallB : b.toNat < 256 := b.toNat_lt
  exact ⟨ofNat_eq (by omega), ofNat_eq (by omega)⟩

/-- Three bytes read off the number that they make up. -/
theorem ofNat_three (a b c : UInt8) :
    UInt8.ofNat ((a.toNat * 65536 + b.toNat * 256 + c.toNat) / 65536) = a ∧
      UInt8.ofNat ((a.toNat * 65536 + b.toNat * 256 + c.toNat) / 256) = b ∧
      UInt8.ofNat (a.toNat * 65536 + b.toNat * 256 + c.toNat) = c := by
  have smallA : a.toNat < 256 := a.toNat_lt
  have smallB : b.toNat < 256 := b.toNat_lt
  have smallC : c.toNat < 256 := c.toNat_lt
  exact ⟨ofNat_eq (by omega), ofNat_eq (by omega), ofNat_eq (by omega)⟩

/-- Decoding gives back what was encoded. -/
theorem decode_encode (bytes : Bytes) : decode (encode bytes) = some bytes := by
  induction bytes using encode.induct with
  | case1 => rfl
  | case2 a =>
      have small : a.toNat < 256 := a.toNat_lt
      have whole : a.toNat * 16 / 64 * 64 + a.toNat * 16 % 64 = a.toNat * 16 := by omega
      have first : UInt8.ofNat (a.toNat * 16 / 16) = a := ofNat_eq (by omega)
      rw [encode, decode, if_pos rfl, if_pos rfl, decodePadded, value_digit (by omega),
        value_digit (by omega)]
      simp only [Option.bind_eq_bind, Option.bind_some, if_true, whole]
      rw [if_pos (by omega), first]
  | case3 a b =>
      have smallA : a.toNat < 256 := a.toNat_lt
      have smallB : b.toNat < 256 := b.toNat_lt
      obtain ⟨first, second⟩ := ofNat_two a b
      generalize bits_eq : (a.toNat * 256 + b.toNat) * 4 = bits at first second
      have whole : bits / 4096 * 4096 + bits / 64 % 64 * 64 + bits % 64 = bits := by omega
      have third : digit (bits % 64) ≠ 61 := digit_ne_padding (by omega)
      have high : value (digit (bits / 4096)) = some (bits / 4096) := value_digit (by omega)
      have middle : value (digit (bits / 64 % 64)) = some (bits / 64 % 64) := value_digit (by omega)
      have low : value (digit (bits % 64)) = some (bits % 64) := value_digit (by omega)
      have cut : bits % 4 = 0 := by omega
      simp only [encode, bits_eq, decode, if_true, decodePadded, high, middle, low,
        Option.bind_eq_bind, Option.bind_some, if_neg third, whole, if_pos cut, first, second]
  | case4 a b c rest ih =>
      have smallA : a.toNat < 256 := a.toNat_lt
      have smallB : b.toNat < 256 := b.toNat_lt
      have smallC : c.toNat < 256 := c.toNat_lt
      obtain ⟨first, second, third⟩ := ofNat_three a b c
      generalize bits_eq : a.toNat * 65536 + b.toNat * 256 + c.toNat = bits at first second third
      have whole := four_digits bits
      have fourth : digit (bits % 64) ≠ 61 := digit_ne_padding (by omega)
      have high : value (digit (bits / 262144)) = some (bits / 262144) := value_digit (by omega)
      have upper : value (digit (bits / 4096 % 64)) = some (bits / 4096 % 64) :=
        value_digit (by omega)
      have lower : value (digit (bits / 64 % 64)) = some (bits / 64 % 64) := value_digit (by omega)
      have low : value (digit (bits % 64)) = some (bits % 64) := value_digit (by omega)
      simp only [encode, bits_eq, decode, if_neg fourth, decodeGroup, ih, high, upper, lower, low,
        Option.bind_eq_bind, Option.bind_some, whole, first, second, third]
      rfl

theorem mem_encode {bytes : Bytes} {byte : UInt8} (member : byte ∈ encode bytes) :
    byte ∈ alphabet ∨ byte = 61 := by
  induction bytes using encode.induct with
  | case1 => cases member
  | case2 a =>
      have small : a.toNat < 256 := a.toNat_lt
      simp only [encode, List.mem_cons, List.not_mem_nil, or_false] at member
      obtain rfl | rfl | padding := member
      · exact .inl (digit_mem (by omega))
      · exact .inl (digit_mem (by omega))
      · exact .inr (padding.elim id id)
  | case3 a b =>
      have smallA : a.toNat < 256 := a.toNat_lt
      have smallB : b.toNat < 256 := b.toNat_lt
      simp only [encode, List.mem_cons, List.not_mem_nil, or_false] at member
      obtain rfl | rfl | rfl | padding := member
      · exact .inl (digit_mem (by omega))
      · exact .inl (digit_mem (by omega))
      · exact .inl (digit_mem (by omega))
      · exact .inr padding
  | case4 a b c rest ih =>
      have smallA : a.toNat < 256 := a.toNat_lt
      have smallB : b.toNat < 256 := b.toNat_lt
      have smallC : c.toNat < 256 := c.toNat_lt
      simp only [encode, List.mem_cons] at member
      obtain rfl | rfl | rfl | rfl | later := member
      · exact .inl (digit_mem (by omega))
      · exact .inl (digit_mem (by omega))
      · exact .inl (digit_mem (by omega))
      · exact .inl (digit_mem (by omega))
      · exact ih later

end Foundation.Base64
