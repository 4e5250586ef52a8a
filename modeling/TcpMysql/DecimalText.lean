import TcpMysql.Buffer

/-!
# Numbers in texts

Replies and log lines hold numbers in decimal.  A number can be read back from its text,
and the text has no byte that could end it: it is made of digits and a minus sign.
-/

namespace TcpMysql

/-- The bytes of a text without characters beyond Latin-1. -/
def ascii (text : String) : Bytes :=
  text.toList.map fun char => char.toNat.toUInt8

/-- `std::to_string` of an unsigned number. -/
def decimal (value : Nat) : Bytes :=
  ascii value.repr

/-- `std::to_string` of an `int`. -/
def decimalString : Int → Bytes
  | .ofNat value => decimal value
  | .negSucc value => ascii "-" ++ decimal (value + 1)

theorem toUInt8_of_isDigit {char : Char} (isDigit : char.isDigit = true) :
    48 ≤ char.toNat.toUInt8 ∧ char.toNat.toUInt8 ≤ 57 ∧
      Char.ofNat char.toNat.toUInt8.toNat = char := by
  have bounds : 48 ≤ char.toNat ∧ char.toNat ≤ 57 := by
    simpa [Char.isDigit, UInt32.le_iff_toNat_le] using isDigit
  have toNatEq : char.toNat.toUInt8.toNat = char.toNat := by
    rw [UInt8.toNat_ofNat']
    omega
  rw [UInt8.le_iff_toNat_le, UInt8.le_iff_toNat_le, toNatEq]
  exact ⟨bounds.1, bounds.2, Char.ofNat_toNat char⟩

theorem isDigit_of_mem_repr {value : Nat} {char : Char}
    (member : char ∈ value.repr.toList) : char.isDigit = true := by
  rw [Nat.toList_repr] at member
  exact Nat.isDigit_of_mem_toDigits (by decide) (by decide) member

theorem mem_decimal {value : Nat} {byte : UInt8} (member : byte ∈ decimal value) :
    48 ≤ byte ∧ byte ≤ 57 := by
  obtain ⟨char, inText, rfl⟩ := List.mem_map.mp member
  have digit := toUInt8_of_isDigit (isDigit_of_mem_repr inText)
  exact ⟨digit.1, digit.2.1⟩

theorem decimal_injective {first second : Nat}
    (equal : decimal first = decimal second) : first = second := by
  have recovered (value : Nat) :
      (decimal value).map (fun byte => Char.ofNat byte.toNat) = value.repr.toList := by
    rw [decimal, ascii, List.map_map]
    conv_rhs => rw [← List.map_id value.repr.toList]
    apply List.map_congr_left
    intro char member
    exact (toUInt8_of_isDigit (isDigit_of_mem_repr member)).2.2
  have texts : first.repr.toList = second.repr.toList := by
    rw [← recovered first, equal, recovered second]
  rw [Nat.toList_repr, Nat.toList_repr] at texts
  have numbers := congrArg (Nat.ofDigitChars 10 · 0) texts
  simpa using numbers

theorem mem_decimalString {value : Int} {byte : UInt8}
    (member : byte ∈ decimalString value) : byte = 45 ∨ 48 ≤ byte ∧ byte ≤ 57 := by
  cases value with
  | ofNat value => exact .inr (mem_decimal member)
  | negSucc value =>
      rcases List.mem_append.mp member with sign | digits
      · left
        simpa [ascii] using sign
      · exact .inr (mem_decimal digits)

theorem decimal_ne_minus (value : Nat) (rest : Bytes) :
    decimal value ≠ ascii "-" ++ rest := by
  intro equal
  have member : (45 : UInt8) ∈ decimal value := by
    rw [equal]
    simp [ascii]
  have digit := (mem_decimal member).1
  simp at digit

theorem decimalString_injective {first second : Int}
    (equal : decimalString first = decimalString second) : first = second := by
  cases first with
  | ofNat first =>
      cases second with
      | ofNat second => exact congrArg Int.ofNat (decimal_injective equal)
      | negSucc second => exact absurd equal (decimal_ne_minus first _)
  | negSucc first =>
      cases second with
      | ofNat second => exact absurd equal.symm (decimal_ne_minus second _)
      | negSucc second =>
          have digits := decimal_injective (List.append_cancel_left equal)
          have same : first = second := by omega
          rw [same]

theorem newline_notMem_decimalString (value : Int) : 10 ∉ decimalString value := by
  intro member
  rcases mem_decimalString member with minus | digit
  · simp at minus
  · simp at digit

theorem colon_notMem_decimal (value : Nat) : 58 ∉ decimal value := by
  intro member
  have digit := (mem_decimal member).2
  simp at digit

end TcpMysql
