import Mathlib.Algebra.GroupWithZero.Nat
import Mathlib.Data.List.Basic

/-!
# The Adler-32 checksum

Two sums modulo 65521 in the halves of a word, which go on from a start value: the low
one adds up the bytes, and the high one adds up the values that the low one takes.  A
changed byte changes the low sum, because bytes are smaller than the modulus.

What a user of a library's function relies on is a law about the low sum.  The function
as it is specified is the instance at the end.
-/

/-- A library's `adler32`: it takes the start value and the bytes, and returns the
checksum. -/
structure Adler32 where
  sum : BitVec 32 → List UInt8 → BitVec 32
  /-- The low half is the low half of the start value plus the bytes. -/
  sum_low : ∀ start bytes, start.toNat % 2 ^ 16 < 65521 →
    (sum start bytes).toNat % 2 ^ 16 =
      (start.toNat % 2 ^ 16 + (bytes.map UInt8.toNat).sum) % 65521

namespace Adler32

/-- No single byte can be changed without changing the checksum. -/
theorem sum_ne_of_changed (adler32 : Adler32) {start : BitVec 32}
    (valid : start.toNat % 2 ^ 16 < 65521) {front back : List UInt8} {byte other : UInt8}
    (changed : other ≠ byte) :
    adler32.sum start (front ++ other :: back) ≠ adler32.sum start (front ++ byte :: back) := by
  intro same
  have lowEq := adler32.sum_low start (front ++ other :: back) valid
  rw [same, adler32.sum_low start _ valid] at lowEq
  simp only [List.map_append, List.map_cons, List.sum_append, List.sum_cons] at lowEq
  have small : byte.toNat < 256 := byte.toNat_lt
  have otherSmall : other.toNat < 256 := other.toNat_lt
  have differ : other.toNat ≠ byte.toNat := fun equal => changed (UInt8.toNat_inj.mp equal)
  omega

/-! ## The algorithm -/

def modulus : Nat := 65521

structure Sums where
  low : Nat
  high : Nat
  deriving DecidableEq, Repr

def Sums.ofWord (word : BitVec 32) : Sums where
  low := word.toNat % 2 ^ 16
  high := word.toNat / 2 ^ 16

def Sums.toWord (sums : Sums) : BitVec 32 :=
  BitVec.ofNat 32 (sums.high * 2 ^ 16 + sums.low)

def Sums.add (sums : Sums) (byte : UInt8) : Sums where
  low := (sums.low + byte.toNat) % modulus
  high := (sums.high + (sums.low + byte.toNat) % modulus) % modulus

theorem low_foldl (bytes : List UInt8) {start : Sums} (valid : start.low < modulus) :
    (bytes.foldl Sums.add start).low =
      (start.low + (bytes.map UInt8.toNat).sum) % modulus := by
  induction bytes generalizing start with
  | nil => simp [Nat.mod_eq_of_lt valid]
  | cons byte bytes ih =>
      rw [List.foldl_cons, ih (Nat.mod_lt _ (by decide)), List.map_cons, List.sum_cons]
      simp only [Sums.add, Nat.mod_add_mod, Nat.add_assoc]

theorem toWord_low {sums : Sums} (valid : sums.low < modulus) :
    sums.toWord.toNat % 2 ^ 16 = sums.low := by
  unfold modulus at valid
  simp only [Sums.toWord, BitVec.toNat_ofNat]
  omega

def standard : Adler32 where
  sum start bytes := (bytes.foldl Sums.add (.ofWord start)).toWord
  sum_low start bytes valid := by
    have lowEq := low_foldl bytes (show (Sums.ofWord start).low < modulus from valid)
    rw [toWord_low (by rw [lowEq]; exact Nat.mod_lt _ (by decide)), lowEq]
    rfl

end Adler32
