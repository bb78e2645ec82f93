import Antonix.MmSkheap.Spec
import Mathlib.Order.Nat

/-! # What the searches of `mm_skheap.c` find

Both searches return the lowest of the starts that they may use, or fail when
none of these has enough free blocks.  The plain search uses the starts at a
multiple of 8; the aligned one uses the block before each 4 KB boundary but
the first and the end of the heap, as the payload begins at the boundary. -/

namespace Antonix

open Bitmap Set

/-- The blocks from `start` on are clear, and the heap has them all. -/
def SkhFits (bitmap : Bitmap 8) (blocks start : Nat) : Prop :=
  Disjoint (Ico start (start + blocks)) bitmap.bits ∧ start + blocks ≤ skheapBlockCount

/-- The starts of `skheap_find_free_region`. -/
def plainStarts (bitmap : Bitmap 8) (blocks : Nat) : Set Nat :=
  {start | start % 8 = 0 ∧ SkhFits bitmap blocks start}

/-- The blocks before the boundaries `1 ≤ k < limit`. -/
def alignedStarts (limit : Set Nat) (bitmap : Bitmap 8) (blocks : Nat) : Set Nat :=
  {start | (∃ k ∈ limit, start = 16 * k - 1) ∧ SkhFits bitmap blocks start}

/-- The boundaries that have a block of the heap behind them. -/
def boundariesInside : Set Nat := {k | 1 ≤ k ∧ k < 256}

/-- The search fails when there is no start, and returns the lowest one otherwise. -/
def ReturnsLowest (heap : SkHeap) (starts : Set Nat) (answer : Except Halt (Option Nat)) : Prop :=
  (∃ start, IsLeast starts start ∧
    answer = .ok (some (heap.regionStart + start * skheapBlockSize))) ∨
  starts = ∅ ∧ answer = .ok none

theorem skheapFindLoop_found {bitmap : Bitmap 8} {blocks start : Nat} (positive : 0 < blocks) :
    skheapFindLoop bitmap blocks skheapBitmapElements 0 blocks 0 = some start ↔
      IsLeast (plainStarts bitmap blocks) start := by
  rw [skheapFindLoop_eq_some_iff positive (.init bitmap positive), Nat.zero_add]
  constructor
  · rintro ⟨free, multiple, inside, first⟩
    refine ⟨⟨multiple, free, inside⟩, ?_⟩
    rintro t ⟨multipleToo, freeToo, -⟩
    by_contra below
    exact first t (by omega) multipleToo freeToo
  · rintro ⟨⟨multiple, free, inside⟩, least⟩
    refine ⟨free, multiple, inside, fun t below multipleToo freeToo => ?_⟩
    have fits : t + blocks ≤ skheapBlockCount := by omega
    have := least ⟨multipleToo, freeToo, fits⟩
    omega

theorem skheapFindAlignedLoop_found {bitmap : Bitmap 8} {blocks start : Nat}
    (positive : 0 < blocks) :
    skheapFindAlignedLoop bitmap blocks (skheapBitmapElements - 2) 2 blocks 0 = some start ↔
      IsLeast (alignedStarts boundariesInside bitmap blocks) start := by
  rw [skheapFindAlignedLoop_eq_some_iff positive (by decide) (.init bitmap positive)]
  have last : 8 * (2 + (skheapBitmapElements - 2)) = skheapBlockCount := rfl
  have count : skheapBlockCount = 4096 := rfl
  rw [last]
  constructor
  · rintro ⟨free, aligned, inside, boundary, first⟩
    refine ⟨⟨⟨(start + 1) / 16, ⟨by omega, by omega⟩, by omega⟩, free, inside⟩, ?_⟩
    rintro t ⟨⟨k, ⟨positiveK, -⟩, rfl⟩, freeToo, -⟩
    by_contra below
    exact first (16 * k - 1) (by omega) (by omega) freeToo
  · rintro ⟨⟨⟨k, ⟨positiveK, small⟩, rfl⟩, free, inside⟩, least⟩
    refine ⟨free, by omega, inside, by omega, fun t below aligned freeToo => ?_⟩
    have boundary : ∃ j ∈ boundariesInside, t = 16 * j - 1 :=
      ⟨(t + 1) / 16, ⟨by omega, by omega⟩, by omega⟩
    have := least ⟨boundary, freeToo, by omega⟩
    omega

/-- A search whose outcome is the least element of a set returns the lowest start. -/
theorem returnsLowest_of_found {heap : SkHeap} {starts : Set Nat} {found : Option Nat}
    (exact_found : ∀ start, found = some start ↔ IsLeast starts start) :
    ReturnsLowest heap starts
      (.ok (found.map fun start => heap.regionStart + start * skheapBlockSize)) := by
  classical
  cases found with
  | some start => exact .inl ⟨start, (exact_found start).mp rfl, rfl⟩
  | none =>
    refine .inr ⟨?_, rfl⟩
    rw [eq_empty_iff_forall_notMem]
    intro start member
    have least := Nat.isLeast_find (p := (· ∈ starts)) ⟨start, member⟩
    have := (exact_found _).mpr least
    contradiction

/-- Both searches are sound and complete for their starts, and return the lowest one. -/
theorem skheap_search_lowest (heap : SkHeap) (size : Nat) (positive : 0 < size)
    (whole : size % skheapBlockSize = 0) :
    ReturnsLowest heap (plainStarts heap.bitmap (size / skheapBlockSize))
      (skheapFindFreeRegion heap size) ∧
    ReturnsLowest heap (alignedStarts boundariesInside heap.bitmap (size / skheapBlockSize))
      (skheapFindFreeRegionAligned heap size) := by
  have blocksPositive : 0 < size / skheapBlockSize := by
    simp only [skheapBlockSize] at whole ⊢
    omega
  rw [skheapFindFreeRegion, skheapFindFreeRegionAligned, if_neg (not_not.mpr whole),
    if_neg (not_not.mpr whole)]
  exact ⟨returnsLowest_of_found fun _ => skheapFindLoop_found blocksPositive,
    returnsLowest_of_found fun _ => skheapFindAlignedLoop_found blocksPositive⟩

/-- A heap in which all blocks but the last are in use. -/
def fullButLastBlock : SkHeap where
  regionStart := 0x200000
  bitmap := fun i => if i = 511 then 0x7F#8 else 0xFF#8
  memory := fun _ => 0
  fits := by decide

theorem skheap_search_lowest_last :
    ReturnsLowest fullButLastBlock (plainStarts fullButLastBlock.bitmap 2)
      (skheapFindFreeRegion fullButLastBlock 0x200) :=
  (skheap_search_lowest fullButLastBlock 0x200 (by decide) (by decide)).1

/-- Block 4095 is clear and is the block before the boundary at the end of the heap; the
aligned search does not return it. -/
theorem skheap_search_not_lowest :
    ¬ReturnsLowest fullButLastBlock (alignedStarts {k | 1 ≤ k} fullButLastBlock.bitmap 1)
      (skheapFindFreeRegionAligned fullButLastBlock 0x100) := by
  have lastFits : 4095 ∈ alignedStarts {k | 1 ≤ k} fullButLastBlock.bitmap 1 := by
    refine ⟨⟨256, by decide, rfl⟩, ?_, by decide⟩
    rw [disjoint_left]
    rintro b ⟨low, high⟩ isSet
    obtain rfl : b = 4095 := by omega
    exact absurd isSet (by simp [mem_bits, fullButLastBlock])
  rintro (⟨start, -, answer⟩ | ⟨none, -⟩)
  · rw [skheapFindFreeRegionAligned, if_neg (by decide)] at answer
    obtain ⟨found, searched, -⟩ := Option.map_eq_some_iff.mp (Except.ok.inj answer)
    -- the starts that the search uses are all taken
    change skheapFindAlignedLoop _ 1 _ 2 1 0 = _ at searched
    obtain ⟨⟨⟨k, ⟨positive, inside⟩, rfl⟩, free, -⟩, -⟩ :=
      (skheapFindAlignedLoop_found (by decide)).mp searched
    rw [disjoint_left] at free
    refine free (a := 16 * k - 1) ⟨le_rfl, by omega⟩ ?_
    rw [mem_bits, fullButLastBlock, show (16 * k - 1) % 8 = 7 by omega]
    simp only [if_neg (by omega : ¬(16 * k - 1) / 8 = 511)]
    rfl
  · exact (none ▸ lastFits : 4095 ∈ (∅ : Set Nat))

end Antonix
