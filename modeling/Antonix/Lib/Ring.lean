import Antonix.Lib.Buffer

/-! # Ring windows

A ring of `cap` cells is a buffer whose positions run on from `cap - 1` to `0`.
A position may rest at `cap`, where it stands for `0`.  A window of the ring is
its first position and its length; it is copied out and in as at most two blocks.

`Holds buffer cap rp wp queue` says that the window between the two positions
holds `queue`.  Equal positions mean that nothing is stored, so the window is
never as long as the ring. -/

namespace Ring

open Buffer

variable {α : Type*} {buffer : Nat → α} {cap p rp wp n : Nat} {queue xs : List α}

/-- The cell of the window that starts at `p`, `i` cells on. -/
def index (cap p i : Nat) : Nat := if p + i < cap then p + i else p + i - cap

/-- The position `n` cells on, `cap` included. -/
def advance (cap p n : Nat) : Nat := if n ≤ cap - p then p + n else n - (cap - p)

/-- Copy `n` cells of the window out: a block up to the end, a block from the start. -/
def getWindow (buffer : Nat → α) (cap p n : Nat) : List α :=
  readAt buffer p (min n (cap - p)) ++ readAt buffer 0 (n - (cap - p))

/-- Copy `xs` into the window: a block up to the end, a block from the start. -/
def putWindow (buffer : Nat → α) (cap p : Nat) (xs : List α) : Nat → α :=
  writeAt (writeAt buffer p (xs.take (cap - p))) 0 (xs.drop (cap - p))

/-- The number of cells between two positions. -/
def stored (cap rp wp : Nat) : Nat := if wp < rp then cap - (rp - wp) else wp - rp

@[simp] theorem length_getWindow : (getWindow buffer cap p n).length = n := by
  simp only [getWindow, List.length_append, length_readAt]
  omega

theorem getElem_getWindow {i : Nat} (inside : i < (getWindow buffer cap p n).length)
    (bounded : p ≤ cap) : (getWindow buffer cap p n)[i] = buffer (index cap p i) := by
  have short : i < n := by simpa using inside
  simp only [getWindow, List.getElem_append, length_readAt, getElem_readAt, index]
  split
  · rw [if_pos (by omega)]
  · rw [if_neg (by omega)]
    congr 1
    omega

theorem putWindow_inside {i : Nat} (inside : i < xs.length) (bounded : p ≤ cap)
    (fits : xs.length ≤ cap) : putWindow buffer cap p xs (index cap p i) = xs[i] := by
  unfold putWindow index
  split
  case isTrue before =>
    -- the first block; the second one ends before it
    rw [writeAt_outside (Or.inr (by simp only [List.length_drop]; omega)),
      writeAt_inside (by simp only [List.length_take]; omega)]
    simp
  case isFalse wrapped =>
    have position : p + i - cap = 0 + (i - (cap - p)) := by omega
    rw [position, writeAt_inside (by simp only [List.length_drop]; omega)]
    simp only [List.getElem_drop]
    congr 1
    omega

/-- A cell that the window does not reach is left alone. -/
theorem putWindow_outside {i : Nat} (after : xs.length ≤ i) (inside : i < cap)
    (bounded : p ≤ cap) : putWindow buffer cap p xs (index cap p i) = buffer (index cap p i) := by
  have fits : xs.length ≤ cap := by omega
  unfold putWindow index
  split
  · rw [writeAt_outside (by simp only [List.length_drop]; omega),
      writeAt_outside (by simp only [List.length_take]; omega)]
  · rw [writeAt_outside (by simp only [List.length_drop]; omega),
      writeAt_outside (by simp only [List.length_take]; omega)]

/-- Nothing beyond the ring is written. -/
theorem putWindow_beyond {a : Nat} (beyond : cap ≤ a) (bounded : p ≤ cap)
    (fits : xs.length ≤ cap) : putWindow buffer cap p xs a = buffer a := by
  unfold putWindow
  rw [writeAt_outside (by simp only [List.length_drop]; omega),
    writeAt_outside (by simp only [List.length_take]; omega)]

/-- The cells between the positions `rp` and `wp` are `queue`. -/
structure Holds (buffer : Nat → α) (cap rp wp : Nat) (queue : List α) : Prop where
  readBounded : rp ≤ cap
  writeBounded : wp ≤ cap
  /-- The two positions are not the same place under two names. -/
  unambiguous : ¬ (rp = 0 ∧ wp = cap)
  length : queue.length = stored cap rp wp
  content : ∀ i (inside : i < queue.length), buffer (index cap rp i) = queue[i]

namespace Holds

theorem empty (positive : 0 < cap) : Holds buffer cap 0 0 [] where
  readBounded := Nat.zero_le cap
  writeBounded := Nat.zero_le cap
  unambiguous := by omega
  length := rfl
  content := by
    intro i inside
    contradiction

/-- One cell of the ring is always spare. -/
theorem length_lt (holds : Holds buffer cap rp wp queue) : queue.length < cap := by
  have length := holds.length
  have readBounded := holds.readBounded
  have writeBounded := holds.writeBounded
  have unambiguous := holds.unambiguous
  unfold stored at length
  split at length <;> omega

/-- The writing position is the end of the window. -/
theorem index_write (holds : Holds buffer cap rp wp queue) (i : Nat)
    (room : queue.length + i < cap) : index cap wp i = index cap rp (queue.length + i) := by
  have length := holds.length
  have readBounded := holds.readBounded
  have writeBounded := holds.writeBounded
  unfold stored at length
  unfold index
  split at length <;> split <;> split <;> omega

theorem append (holds : Holds buffer cap rp wp queue) (room : queue.length + xs.length < cap) :
    Holds (putWindow buffer cap wp xs) cap rp (advance cap wp xs.length) (queue ++ xs) where
  readBounded := holds.readBounded
  writeBounded := by
    have writeBounded := holds.writeBounded
    unfold advance
    split <;> omega
  unambiguous := by
    have length := holds.length
    have writeBounded := holds.writeBounded
    unfold stored at length
    unfold advance
    split at length <;> split <;> omega
  length := by
    have length := holds.length
    have readBounded := holds.readBounded
    have writeBounded := holds.writeBounded
    rw [List.length_append]
    unfold stored advance at *
    split at length <;> split <;> split <;> omega
  content := by
    intro i inside
    rw [List.length_append] at inside
    by_cases old : i < queue.length
    · -- an old cell lies `cap - wp` or more cells behind the writing position
      rw [List.getElem_append_left old, ← holds.content i old]
      obtain ⟨j, after, short, place⟩ : ∃ j, xs.length ≤ j ∧ j < cap ∧
          index cap rp i = index cap wp j := by
        have length := holds.length
        have readBounded := holds.readBounded
        have writeBounded := holds.writeBounded
        refine ⟨cap - queue.length + i, by omega, by omega, ?_⟩
        unfold stored at length
        unfold index
        split at length <;> split <;> split <;> omega
      rw [place, putWindow_outside after short holds.writeBounded]
    · have place : index cap rp i = index cap wp (i - queue.length) := by
        rw [holds.index_write (i - queue.length) (by omega)]
        congr 1
        omega
      rw [List.getElem_append_right (by omega), place,
        putWindow_inside (by omega) holds.writeBounded (by omega)]

theorem drop (holds : Holds buffer cap rp wp queue) (enough : n ≤ queue.length) :
    Holds buffer cap (advance cap rp n) wp (queue.drop n) where
  readBounded := by
    have readBounded := holds.readBounded
    have short := holds.length_lt
    unfold advance
    split <;> omega
  writeBounded := holds.writeBounded
  unambiguous := by
    have unambiguous := holds.unambiguous
    unfold advance
    split <;> omega
  length := by
    have length := holds.length
    have readBounded := holds.readBounded
    have writeBounded := holds.writeBounded
    rw [List.length_drop]
    unfold stored advance at *
    split at length <;> split <;> split <;> omega
  content := by
    intro i inside
    rw [List.length_drop] at inside
    have readBounded := holds.readBounded
    have place : index cap (advance cap rp n) i = index cap rp (n + i) := by
      have short := holds.length_lt
      unfold index advance
      split <;> split <;> split <;> omega
    rw [place, holds.content (n + i) (by omega), List.getElem_drop]

/-- The window is copied out oldest cell first. -/
theorem take (holds : Holds buffer cap rp wp queue) (enough : n ≤ queue.length) :
    getWindow buffer cap rp n = queue.take n := by
  apply List.ext_getElem
  · simp [enough]
  · intro i inside _
    have short : i < n := by simpa using inside
    rw [getElem_getWindow inside holds.readBounded, holds.content i (by omega), List.getElem_take]

end Holds

end Ring
