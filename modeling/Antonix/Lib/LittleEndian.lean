import Mathlib.Algebra.Group.Nat.Defs

/-! # Records of little-endian numbers

A record in memory is a list of bytes: the bytes of its fields, one field after
the other, low byte first.  `field` reads the number at an offset; the two
lemmas about it follow the fields of a record from left to right. -/

namespace LittleEndian

/-- The `count` low bytes of a number. -/
def bytesOf : Nat → Nat → List (BitVec 8)
  | 0, _ => []
  | count + 1, n => BitVec.ofNat 8 n :: bytesOf count (n / 256)

/-- The number that bytes stand for. -/
def numberOf : List (BitVec 8) → Nat
  | [] => 0
  | byte :: bytes => byte.toNat + 256 * numberOf bytes

/-- The number of `count` bytes at an offset of a record. -/
def field (offset count : Nat) (record : List (BitVec 8)) : Nat :=
  numberOf ((record.drop offset).take count)

@[simp] theorem length_bytesOf (count n : Nat) : (bytesOf count n).length = count := by
  induction count generalizing n with
  | zero => rfl
  | succ count inductionHypothesis => simp [bytesOf, inductionHypothesis]

theorem numberOf_bytesOf (count n : Nat) : numberOf (bytesOf count n) = n % 256 ^ count := by
  induction count generalizing n with
  | zero => simp [bytesOf, numberOf, Nat.mod_one]
  | succ count inductionHypothesis =>
    have split := Nat.mod_mul (x := n) (a := 256) (b := 256 ^ count)
    rw [bytesOf, numberOf, inductionHypothesis, BitVec.toNat_ofNat,
      show 256 ^ (count + 1) = 256 * 256 ^ count from Nat.pow_succ', split]

theorem numberOf_lt (bytes : List (BitVec 8)) : numberOf bytes < 256 ^ bytes.length := by
  induction bytes with
  | nil => simp [numberOf]
  | cons byte bytes inductionHypothesis =>
    have small := byte.isLt
    rw [numberOf, List.length_cons, Nat.pow_succ]
    omega

theorem field_lt (offset count : Nat) (record : List (BitVec 8)) :
    field offset count record < 256 ^ count := by
  have small := numberOf_lt ((record.drop offset).take count)
  exact Nat.lt_of_lt_of_le small (Nat.pow_le_pow_right (by decide) (List.length_take_le _ _))

theorem field_here (count n : Nat) (rest : List (BitVec 8)) :
    field 0 count (bytesOf count n ++ rest) = n % 256 ^ count := by
  rw [field, List.drop_zero, List.take_left' (length_bytesOf count n), numberOf_bytesOf]

theorem field_skip (first offset count n : Nat) (rest : List (BitVec 8)) :
    field (first + offset) count (bytesOf first n ++ rest) = field offset count rest := by
  rw [field, field, ← List.drop_drop, List.drop_left' (length_bytesOf first n)]

/-- A word of a record of words. -/
theorem field_words {count i : Nat} {words : List Nat} (inside : i < words.length) :
    field (count * i) count (words.flatMap (bytesOf count)) = words[i] % 256 ^ count := by
  induction words generalizing i with
  | nil => cases inside
  | cons word words inductionHypothesis =>
    rw [List.flatMap_cons]
    cases i with
    | zero => rw [Nat.mul_zero, field_here, List.getElem_cons_zero]
    | succ i =>
      rw [Nat.mul_add_one, Nat.add_comm, field_skip, List.getElem_cons_succ]
      exact inductionHypothesis (Nat.lt_of_succ_lt_succ inside)

theorem length_words (count : Nat) (words : List Nat) :
    (words.flatMap (bytesOf count)).length = count * words.length := by
  induction words with
  | nil => rfl
  | cons word words inductionHypothesis =>
    rw [List.flatMap_cons, List.length_append, length_bytesOf, inductionHypothesis,
      List.length_cons, Nat.mul_add_one, Nat.add_comm]

end LittleEndian
