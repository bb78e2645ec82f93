import Mathlib.Algebra.Group.Nat.Defs
import Mathlib.Data.Set.Lattice
import Mathlib.Order.CompletePartialOrder
import Mathlib.Order.Interval.Set.Basic

/-! # Bitmaps stored in machine words

A bitmap of `w`-bit elements is read as one sequence of bits: bit `k` is bit
`k % w` of element `k / w`.  `bits` is the set of the positions that are set,
and every operation on elements has one lemma that says what it does to that
set:

* `setBit`, `clearBit`, `fillElement` are the three ways an element is written;
* `element_eq_zero_iff` and `masked_eq_zero_iff` are the two ways an element is
  tested: as a whole, and under a mask of its low bits. -/

/-- An array of `w`-bit elements. -/
abbrev Bitmap (w : Nat) := Nat → BitVec w

namespace Bitmap

variable {w : Nat}

/-- The positions of the bits that are set. -/
def bits (bitmap : Bitmap w) : Set Nat :=
  {k | (bitmap (k / w)).getLsbD (k % w) = true}

/-- `bitmap[k / w] |= 1 << (k % w)` -/
def setBit (bitmap : Bitmap w) (k : Nat) : Bitmap w := fun i =>
  if i = k / w then bitmap i ||| (1#w <<< (k % w)) else bitmap i

/-- `bitmap[k / w] &= ~(1 << (k % w))` -/
def clearBit (bitmap : Bitmap w) (k : Nat) : Bitmap w := fun i =>
  if i = k / w then bitmap i &&& ~~~(1#w <<< (k % w)) else bitmap i

/-- Write the element with all bits set. -/
def fillElement (bitmap : Bitmap w) (element : Nat) : Bitmap w := fun i =>
  if i = element then BitVec.allOnes w else bitmap i

/-- `(1 << count) - 1`, the mask of the `count` low bits. -/
def lowMask (w count : Nat) : BitVec w := (1#w <<< count) - 1#w

theorem mem_bits {bitmap : Bitmap w} {k : Nat} :
    k ∈ bitmap.bits ↔ (bitmap (k / w)).getLsbD (k % w) = true := Iff.rfl

/-- Bit `j` of element `i` is at position `w * i + j`. -/
theorem mem_bits_element {bitmap : Bitmap w} {i j : Nat} (inside : j < w) :
    w * i + j ∈ bitmap.bits ↔ (bitmap i).getLsbD j = true := by
  rw [mem_bits, Nat.mul_add_div (by omega), Nat.mul_add_mod, Nat.div_eq_of_lt inside,
    Nat.mod_eq_of_lt inside, Nat.add_zero]

@[simp] theorem bits_zero : bits (fun _ => 0#w) = ∅ := by
  ext k; simp [mem_bits]

/-- `1 << n` has bit `n` and no other. -/
theorem getLsbD_one_shift {n j : Nat} (inside : j < w) :
    (1#w <<< n).getLsbD j = decide (j = n) := by
  simp only [BitVec.getLsbD_shiftLeft, BitVec.getLsbD_one]
  by_cases same : j = n
  · subst same; simp [inside]; omega
  · simp only [same, decide_false]
    by_cases below : j < n
    · simp [below]
    · simp; omega

theorem eq_iff_div_mod {j k : Nat} : j = k ↔ j / w = k / w ∧ j % w = k % w := by
  refine ⟨fun same => by simp [same], fun ⟨element, position⟩ => ?_⟩
  rw [← Nat.div_add_mod j w, ← Nat.div_add_mod k w, element, position]

/-- `(bitmap[k / w] & (1 << (k % w))) != 0` tests the bit. -/
theorem mem_bits_iff_and (hw : 0 < w) {bitmap : Bitmap w} {k : Nat} :
    k ∈ bitmap.bits ↔ bitmap (k / w) &&& (1#w <<< (k % w)) ≠ 0#w := by
  have inside : k % w < w := Nat.mod_lt _ hw
  rw [mem_bits, Ne, BitVec.eq_of_getLsbD_eq_iff, not_forall]
  constructor
  · intro isSet
    exact ⟨k % w, by simp [inside, isSet]⟩
  · rintro ⟨j, differs⟩
    have insideJ : j < w := by
      by_contra outside
      exact differs fun inside => absurd inside outside
    rw [BitVec.getLsbD_and, getLsbD_one_shift insideJ] at differs
    by_cases same : j = k % w
    · subst same; simpa [insideJ] using differs
    · simp [same] at differs

/-- `bitmap[k / w] >> (k % w)` keeps the bits from `k` to the end of the element. -/
theorem shifted_eq_zero_iff (hw : 0 < w) {bitmap : Bitmap w} {k : Nat} :
    bitmap (k / w) >>> (k % w) = 0#w ↔ Disjoint (Set.Ico k (w * (k / w) + w)) bitmap.bits := by
  have inside : k % w < w := Nat.mod_lt _ hw
  have split : w * (k / w) + k % w = k := Nat.div_add_mod k w
  rw [BitVec.eq_of_getLsbD_eq_iff, Set.disjoint_left]
  simp only [BitVec.getLsbD_ushiftRight, BitVec.getLsbD_zero]
  constructor
  · rintro clear j ⟨low, high⟩ isSet
    obtain ⟨n, rfl⟩ := Nat.exists_eq_add_of_le low
    rw [show k + n = w * (k / w) + (k % w + n) by omega, mem_bits_element (by omega)] at isSet
    rw [clear n (by omega)] at isSet
    contradiction
  · intro apart n _
    by_cases within : k % w + n < w
    · have := apart (a := k + n) ⟨by omega, by omega⟩
      rw [show k + n = w * (k / w) + (k % w + n) by omega, mem_bits_element within] at this
      simpa using this
    · exact BitVec.getLsbD_of_ge _ _ (by omega)

/-- A set bit is still seen after shifting it down to position 0. -/
theorem shift_ne_zero_of_mem {bitmap : Bitmap w} {k : Nat} (isSet : k ∈ bitmap.bits) :
    bitmap (k / w) >>> (k % w) ≠ 0#w := by
  intro shifted
  have lowest := congrArg (·.getLsbD 0) shifted
  simp [mem_bits.mp isSet] at lowest

/-- A bitmap is determined by the set of its set bits. -/
theorem bits_injective : Function.Injective (bits : Bitmap w → Set Nat) := by
  intro bitmap other same
  funext i
  refine BitVec.eq_of_getLsbD_eq fun j inside => Bool.eq_iff_iff.mpr ?_
  rw [← mem_bits_element inside, ← mem_bits_element inside, same]

/-! ## Writing -/

theorem bits_setBit (hw : 0 < w) (bitmap : Bitmap w) (k : Nat) :
    (bitmap.setBit k).bits = insert k bitmap.bits := by
  ext j
  have inside : j % w < w := Nat.mod_lt _ hw
  rw [Set.mem_insert_iff, eq_iff_div_mod (w := w), mem_bits, mem_bits, setBit]
  by_cases sameElement : j / w = k / w
  · rw [if_pos sameElement, BitVec.getLsbD_or, getLsbD_one_shift inside]
    simp [sameElement, or_comm]
  · simp [sameElement]

theorem bits_clearBit (hw : 0 < w) (bitmap : Bitmap w) (k : Nat) :
    (bitmap.clearBit k).bits = bitmap.bits \ {k} := by
  ext j
  have inside : j % w < w := Nat.mod_lt _ hw
  rw [Set.mem_sdiff, Set.mem_singleton_iff, eq_iff_div_mod (w := w), mem_bits, mem_bits, clearBit]
  by_cases sameElement : j / w = k / w
  · rw [if_pos sameElement, BitVec.getLsbD_and, BitVec.getLsbD_not, getLsbD_one_shift inside]
    simp [sameElement, inside]
  · simp [sameElement]

theorem bits_fillElement (hw : 0 < w) (bitmap : Bitmap w) (i : Nat) :
    (bitmap.fillElement i).bits = bitmap.bits ∪ Set.Ico (w * i) (w * i + w) := by
  ext j
  have inside : j % w < w := Nat.mod_lt _ hw
  have within : j / w = i ↔ w * i ≤ j ∧ j < w * i + w := by
    rw [Nat.div_eq_iff hw, Nat.mul_comm i w]
    omega
  rw [Set.mem_union, Set.mem_Ico, mem_bits, mem_bits, fillElement, ← within]
  by_cases same : j / w = i
  · simp [same, inside]
  · simp [same]

/-- The positions of a run of `count + 1` bits, first bit first. -/
theorem Ico_run_succ (k count : Nat) :
    Set.Ico k (k + (count + 1)) = insert k (Set.Ico (k + 1) (k + 1 + count)) := by
  ext j
  simp only [Set.mem_insert_iff, Set.mem_Ico]
  omega

/-! ## Testing an element -/

theorem element_eq_zero_iff {bitmap : Bitmap w} {i : Nat} :
    bitmap i = 0#w ↔ Disjoint (Set.Ico (w * i) (w * i + w)) bitmap.bits := by
  rw [BitVec.eq_of_getLsbD_eq_iff, Set.disjoint_left]
  constructor
  · rintro clear k ⟨low, high⟩ isSet
    obtain ⟨j, rfl⟩ := Nat.exists_eq_add_of_le low
    have inside : j < w := by omega
    rw [mem_bits_element inside, clear j inside] at isSet
    simp at isSet
  · intro apart j inside
    have := apart (a := w * i + j) ⟨by omega, by omega⟩
    rw [mem_bits_element inside] at this
    simpa using this

theorem getLsbD_lowMask {count j : Nat} :
    (lowMask w count).getLsbD j = (decide (j < w) && decide (j < count)) := by
  by_cases inside : j < w
  · rw [lowMask, BitVec.getLsbD, BitVec.toNat_sub, BitVec.toNat_shiftLeft, BitVec.toNat_ofNat]
    have positive : 0 < w := by omega
    have oneMod : 1 % 2 ^ w = 1 := Nat.mod_eq_of_lt (Nat.one_lt_two_pow (by omega))
    rw [oneMod, Nat.shiftLeft_eq, Nat.one_mul]
    by_cases small : count < w
    · have : 2 ^ count < 2 ^ w := Nat.pow_lt_pow_right (by decide) small
      have pos := Nat.two_pow_pos count
      rw [Nat.mod_eq_of_lt this, show 2 ^ w - 1 + 2 ^ count = (2 ^ count - 1) + 2 ^ w by omega,
        Nat.add_mod_right, Nat.mod_eq_of_lt (by omega), Nat.testBit_two_pow_sub_one]
      simp [inside]
    · have divides : 2 ^ w ∣ 2 ^ count := Nat.pow_dvd_pow 2 (by omega)
      rw [Nat.mod_eq_zero_of_dvd divides, Nat.add_zero, Nat.mod_eq_of_lt
        (Nat.sub_lt (Nat.two_pow_pos w) (by decide)), Nat.testBit_two_pow_sub_one]
      simp [inside]; omega
  · rw [BitVec.getLsbD_of_ge _ _ (by omega)]
    simp [inside]

theorem masked_eq_zero_iff {bitmap : Bitmap w} {i count : Nat} (fits : count ≤ w) :
    bitmap i &&& lowMask w count = 0#w ↔
      Disjoint (Set.Ico (w * i) (w * i + count)) bitmap.bits := by
  rw [BitVec.eq_of_getLsbD_eq_iff, Set.disjoint_left]
  simp only [BitVec.getLsbD_and, getLsbD_lowMask, BitVec.getLsbD_zero]
  constructor
  · rintro clear k ⟨low, high⟩ isSet
    obtain ⟨j, rfl⟩ := Nat.exists_eq_add_of_le low
    have inside : j < w := by omega
    have := clear j inside
    rw [mem_bits_element inside] at isSet
    simp [isSet, inside] at this
    omega
  · intro apart j inside
    by_cases low : j < count
    · have := apart (a := w * i + j) ⟨by omega, by omega⟩
      rw [mem_bits_element inside] at this
      simp [this]
    · simp [low]

end Bitmap
