import Mathlib.Algebra.Group.Nat.Defs
import Mathlib.Data.List.Basic

/-!
# Integers in network byte order

An integer of `width` bytes is written with its most significant byte first.
-/

namespace BigEndian

/-- The lowest `width` bytes of a number, the most significant one first. -/
def encode : Nat → Nat → List UInt8
  | 0, _ => []
  | width + 1, number => UInt8.ofNat (number / 256 ^ width) :: encode width number

/-- The number that the bytes stand for. -/
def decode : List UInt8 → Nat
  | [] => 0
  | byte :: bytes => byte.toNat * 256 ^ bytes.length + decode bytes

@[simp]
theorem length_encode (width number : Nat) : (encode width number).length = width := by
  induction width with
  | zero => rfl
  | succ width ih => simp [encode, ih]

theorem decode_lt (bytes : List UInt8) : decode bytes < 256 ^ bytes.length := by
  induction bytes with
  | nil => simp [decode]
  | cons byte bytes ih =>
      have digit : byte.toNat < 256 := byte.toNat_lt
      calc byte.toNat * 256 ^ bytes.length + decode bytes
          < byte.toNat * 256 ^ bytes.length + 256 ^ bytes.length :=
            Nat.add_lt_add_left ih _
        _ = (byte.toNat + 1) * 256 ^ bytes.length := (Nat.succ_mul _ _).symm
        _ ≤ 256 * 256 ^ bytes.length := Nat.mul_le_mul_right _ digit
        _ = 256 ^ (byte :: bytes).length := by
            rw [List.length_cons, Nat.pow_succ, Nat.mul_comm]

theorem decode_encode (width number : Nat) :
    decode (encode width number) = number % 256 ^ width := by
  induction width with
  | zero => simp [encode, decode, Nat.mod_one]
  | succ width ih =>
      have digit : (UInt8.ofNat (number / 256 ^ width)).toNat = number / 256 ^ width % 256 := by
        simp
      rw [encode, decode, length_encode, ih, digit, Nat.pow_succ, Nat.mod_mul]
      rw [Nat.mul_comm, Nat.add_comm]

theorem decode_append (front back : List UInt8) :
    decode (front ++ back) = decode front * 256 ^ back.length + decode back := by
  induction front with
  | nil => simp [decode]
  | cons byte front ih =>
      rw [List.cons_append, decode, decode, ih, List.length_append, Nat.pow_add,
        Nat.add_mul, Nat.mul_assoc, Nat.add_assoc]

theorem decode_ne_of_changed {front back : List UInt8} {byte other : UInt8}
    (changed : other ≠ byte) :
    decode (front ++ other :: back) ≠ decode (front ++ byte :: back) := by
  intro same
  simp only [decode_append, decode, List.length_cons] at same
  have scaled : other.toNat * 256 ^ back.length = byte.toNat * 256 ^ back.length := by omega
  have positive : 0 < 256 ^ back.length := Nat.pow_pos (by decide)
  exact changed (UInt8.toNat_inj.mp (Nat.eq_of_mul_eq_mul_right positive scaled))

/-- A word of `width` bytes as it is sent. -/
def ofWord {width : Nat} (word : BitVec (8 * width)) : List UInt8 :=
  encode width word.toNat

/-- A word of `width` bytes as it is received. -/
def toWord (width : Nat) (bytes : List UInt8) : BitVec (8 * width) :=
  BitVec.ofNat (8 * width) (decode bytes)

theorem bytes_pow (width : Nat) : 256 ^ width = 2 ^ (8 * width) := by
  rw [Nat.pow_mul]

@[simp]
theorem length_ofWord {width : Nat} (word : BitVec (8 * width)) :
    (ofWord word).length = width :=
  length_encode _ _

@[simp]
theorem toWord_ofWord {width : Nat} (word : BitVec (8 * width)) :
    toWord width (ofWord word) = word := by
  rw [toWord, ofWord, decode_encode, bytes_pow, Nat.mod_eq_of_lt word.isLt,
    BitVec.ofNat_toNat, BitVec.setWidth_eq]

/-- A byte of a word cannot be changed without changing the word. -/
theorem toWord_ne_of_changed {front back : List UInt8} {byte other : UInt8}
    (changed : other ≠ byte) {width : Nat}
    (lengthEq : (front ++ byte :: back).length = width) :
    toWord width (front ++ other :: back) ≠ toWord width (front ++ byte :: back) := by
  intro same
  have otherLengthEq : (front ++ other :: back).length = width := by
    rw [← lengthEq]
    simp
  have bound := decode_lt (front ++ byte :: back)
  have otherBound := decode_lt (front ++ other :: back)
  rw [lengthEq, bytes_pow] at bound
  rw [otherLengthEq, bytes_pow] at otherBound
  have numbers := congrArg BitVec.toNat same
  simp only [toWord, BitVec.toNat_ofNat, Nat.mod_eq_of_lt bound,
    Nat.mod_eq_of_lt otherBound] at numbers
  exact decode_ne_of_changed changed numbers

end BigEndian
