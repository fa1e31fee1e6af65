import LensoWeb.Foundation.Text

/-!
# Decimal numerals

The digits of a number as `Display` writes them: no sign and no leading zeros, and a
single zero for zero. Every digit but the last belongs to a tenth of the number, which
is how a numeral is written from its end.
-/

namespace Foundation.Decimal

/-- The decimal digits of a number. -/
def digits (number : Nat) : Bytes := ascii (toString number)

/-- The digit with the given value. -/
def digit (value : Nat) : UInt8 := 48 + UInt8.ofNat value

theorem ofNat_digitChar {value : Nat} (small : value < 10) :
    UInt8.ofNat value.digitChar.toNat = digit value := by
  have all : ∀ n : Fin 10, UInt8.ofNat (Nat.digitChar n).toNat = digit n := by decide
  exact all ⟨value, small⟩

theorem digits_of_lt {number : Nat} (small : number < 10) : digits number = [digit number] := by
  rw [digits, ascii, Nat.toString_eq_repr, Nat.toList_repr, Nat.toDigits_of_lt_base small,
    List.map_singleton, ofNat_digitChar small]

/-- The last digit comes off the end. -/
theorem digits_of_le {number : Nat} (large : 10 ≤ number) :
    digits number = digits (number / 10) ++ [digit (number % 10)] := by
  simp only [digits, ascii, Nat.toString_eq_repr, Nat.toList_repr]
  rw [Nat.toDigits_of_base_le (by omega) large, List.map_append, List.map_singleton,
    ofNat_digitChar (Nat.mod_lt _ (by omega))]

/-- Induction on the digits of a number. -/
@[elab_as_elim]
theorem induction {P : Nat → Prop} (single : ∀ number < 10, P number)
    (tenth : ∀ number, 10 ≤ number → P (number / 10) → P number) (number : Nat) : P number := by
  induction number using Nat.strongRecOn with
  | ind number ih =>
      by_cases small : number < 10
      · exact single number small
      · exact tenth number (by omega) (ih (number / 10) (by omega))

theorem length_digits_pos (number : Nat) : 0 < (digits number).length := by
  rw [digits, ascii, Nat.toString_eq_repr, Nat.toList_repr, List.length_map]
  exact Nat.length_toDigits_pos

/-- So many digits suffice exactly for the numbers below that power of ten. -/
theorem length_digits_le_iff {number count : Nat} (positive : 0 < count) :
    (digits number).length ≤ count ↔ number < 10 ^ count := by
  rw [digits, ascii, Nat.toString_eq_repr, Nat.toList_repr, List.length_map]
  exact Nat.length_toDigits_le_iff (by omega) positive

theorem toNat_digit {value : Nat} (small : value < 10) : (digit value).toNat = 48 + value := by
  have all : ∀ n : Fin 10, (digit n).toNat = 48 + n := by decide
  exact all ⟨value, small⟩

theorem isDigit_of_mem {number : Nat} {byte : UInt8} (member : byte ∈ digits number) :
    Text.isDigit byte = true := by
  have digital : ∀ value < 10, Text.isDigit (digit value) = true := by decide
  induction number using Decimal.induction with
  | single number small =>
      rw [digits_of_lt small, List.mem_singleton] at member
      rw [member]
      exact digital number small
  | tenth number large ih =>
      rw [digits_of_le large, List.mem_append, List.mem_singleton] at member
      obtain front | rfl := member
      · exact ih front
      · exact digital (number % 10) (by omega)

/-- Reading the digits gives the number back. -/
theorem decimal_digits (number : Nat) : Text.decimal (digits number) = some number := by
  have read : (digits number).foldl (fun number digit => number * 10 + (digit.toNat - 48)) 0 =
      number := by
    induction number using Decimal.induction with
    | single number small =>
        rw [digits_of_lt small, List.foldl_cons, List.foldl_nil, toNat_digit small]
        omega
    | tenth number large ih =>
        rw [digits_of_le large, List.foldl_append, ih, List.foldl_cons, List.foldl_nil,
          toNat_digit (by omega)]
        omega
  have shown : digits number ≠ [] := List.length_pos_iff.mp (length_digits_pos number)
  rw [Text.decimal, if_pos ⟨shown, List.all_eq_true.mpr fun _ => isDigit_of_mem⟩, read]

/-- Only the numeral of zero begins with a zero. -/
theorem head?_digits_eq_zero_iff {number : Nat} : (digits number).head? = some 48 ↔ number = 0 := by
  constructor
  · intro leading
    induction number using Decimal.induction with
    | single number small =>
        rw [digits_of_lt small, List.head?_cons, Option.some.injEq] at leading
        have value := toNat_digit small
        rw [leading] at value
        have zero : (48 : UInt8).toNat = 48 := rfl
        omega
    | tenth number large ih =>
        have front : digits (number / 10) ≠ [] := List.length_pos_iff.mp (length_digits_pos _)
        rw [digits_of_le large, List.head?_append_of_ne_nil _ front] at leading
        have none := ih leading
        omega
  · rintro rfl
    rfl

end Foundation.Decimal
