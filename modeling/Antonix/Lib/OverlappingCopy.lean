import Antonix.Lib.ByteMem

/-! # Copying between ranges that overlap

A loop that copies upwards has overwritten a byte before it reads it when the destination begins
inside of the source.  From there on it copies what it has written: the first bytes of the source,
as many as the ranges are apart, again and again. -/

namespace ByteMem

/-- The range has the bytes that the other one had before, and nothing else is changed. -/
structure Copied (before after : ByteMem) (dst src count : Nat) : Prop where
  inside : ∀ i < count, after (dst + i) = before (src + i)
  outside : ∀ b, b < dst ∨ dst + count ≤ b → after b = before b

/-- The bytes of a range repeat at a distance. -/
def Repeats (memory : ByteMem) (a distance count : Nat) : Prop :=
  ∀ i, i + distance < count → memory (a + i + distance) = memory (a + i)

section

variable {memory : ByteMem} {bits dst src count n i b : Nat}

/-- One turn more copies one byte more, from what memory is by then. -/
theorem copyUp_succ (n : Nat) : ∀ (memory : ByteMem) (dst src : Nat),
    copyUp bits memory dst src (n + 1) = fun b =>
      if b = (dst + n) % 2 ^ bits then copyUp bits memory dst src n ((src + n) % 2 ^ bits)
      else copyUp bits memory dst src n b := by
  induction n with
  | zero =>
    intro memory dst src
    rfl
  | succ n inductionHypothesis =>
    intro memory dst src
    rw [copyUp, inductionHypothesis, Nat.add_assoc, Nat.add_assoc, Nat.add_comm 1]
    rfl

/-- A turn in a range that does not wrap. -/
theorem copyUp_turn (dstFits : dst + n < 2 ^ bits) (srcFits : src + n < 2 ^ bits) (b : Nat) :
    copyUp bits memory dst src (n + 1) b =
      if b = dst + n then copyUp bits memory dst src n (src + n)
      else copyUp bits memory dst src n b := by
  rw [copyUp_succ, Nat.mod_eq_of_lt dstFits, Nat.mod_eq_of_lt srcFits]

theorem copyUp_outside (dstFits : dst + count ≤ 2 ^ bits) (srcFits : src + count ≤ 2 ^ bits)
    (outside : b < dst ∨ dst + count ≤ b) : copyUp bits memory dst src count b = memory b := by
  induction count with
  | zero => rfl
  | succ n inductionHypothesis =>
    rw [copyUp_turn (by omega) (by omega), if_neg (by omega)]
    exact inductionHypothesis (by omega) (by omega) (by omega)

/-- A byte that was written is not written again. -/
theorem copyUp_written (dstFits : dst + count ≤ 2 ^ bits) (srcFits : src + count ≤ 2 ^ bits)
    (inside : i < count) :
    copyUp bits memory dst src count (dst + i) = copyUp bits memory dst src i (src + i) := by
  induction count with
  | zero => contradiction
  | succ n inductionHypothesis =>
    rw [copyUp_turn (by omega) (by omega)]
    by_cases last : i = n
    · rw [if_pos (by rw [last]), last]
    · rw [if_neg (by omega)]
      exact inductionHypothesis (by omega) (by omega) (by omega)

/-- A byte of the source that is not in the destination before it is copied is what it was. -/
theorem copyUp_first (dstFits : dst + count ≤ 2 ^ bits) (srcFits : src + count ≤ 2 ^ bits)
    (inside : i < count) (unwritten : src + i < dst ∨ dst ≤ src) :
    copyUp bits memory dst src count (dst + i) = memory (src + i) := by
  rw [copyUp_written dstFits srcFits inside]
  exact copyUp_outside (by omega) (by omega) (by omega)

/-- A byte that is read from the destination was copied before. -/
theorem copyUp_again (dstFits : dst + count ≤ 2 ^ bits) (srcFits : src + count ≤ 2 ^ bits)
    (above : src < dst) (inside : i + (dst - src) < count) :
    copyUp bits memory dst src count (dst + (i + (dst - src))) =
      copyUp bits memory dst src count (dst + i) := by
  have place : src + (i + (dst - src)) = dst + i := by omega
  rw [copyUp_written dstFits srcFits inside, place,
    copyUp_written (by omega) (by omega) (by omega : i < i + (dst - src)),
    copyUp_written dstFits srcFits (by omega)]

/-- Where the source repeats at the distance of the ranges, what was copied is what is wanted:
by strong induction on the byte. -/
theorem copyUp_inside (dstFits : dst + count ≤ 2 ^ bits) (srcFits : src + count ≤ 2 ^ bits)
    (above : src < dst) (repeats : Repeats memory src (dst - src) count) (inside : i < count) :
    copyUp bits memory dst src count (dst + i) = memory (src + i) := by
  induction i using Nat.strong_induction_on with
  | h i inductionHypothesis =>
    by_cases early : i < dst - src
    · exact copyUp_first dstFits srcFits inside (.inl (by omega))
    · obtain ⟨j, rfl⟩ := Nat.exists_eq_add_of_le' (Nat.not_lt.mp early)
      rw [copyUp_again dstFits srcFits above inside,
        inductionHypothesis j (by omega) (by omega), ← repeats j inside, Nat.add_assoc]

/-- Copying upwards is right when the destination is not above the source, when the ranges do not
overlap, or when the bytes repeat, and in no other case. -/
theorem copied_copyUp_iff (dstFits : dst + count ≤ 2 ^ bits) (srcFits : src + count ≤ 2 ^ bits) :
    Copied memory (copyUp bits memory dst src count) dst src count ↔
      dst ≤ src ∨ src + count ≤ dst ∨ Repeats memory src (dst - src) count := by
  constructor
  · intro copied
    by_cases above : src < dst
    · right
      right
      intro i inside
      have again := @copyUp_again memory bits dst src count i dstFits srcFits above inside
      rw [copied.inside _ inside, copied.inside i (by omega), ← Nat.add_assoc] at again
      exact again
    · exact .inl (Nat.not_lt.mp above)
  · intro condition
    refine ⟨?_, fun b outside => copyUp_outside dstFits srcFits outside⟩
    intro i inside
    obtain below | apart | repeats := condition
    · exact copyUp_first dstFits srcFits inside (.inr below)
    · exact copyUp_first dstFits srcFits inside (.inl (by omega))
    · by_cases above : src < dst
      · exact copyUp_inside dstFits srcFits above repeats inside
      · exact copyUp_first dstFits srcFits inside (.inr (Nat.not_lt.mp above))

end

end ByteMem
