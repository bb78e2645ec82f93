import Antonix.MmSkheap.LastBlock

/-! # Reallocation in the static kernel heap

`skheap_realloc` gets a new block, copies into it, frees the old block and then
returns the old pointer.  What it returns is never live, and the new block is
lost. -/

namespace Antonix

open Bitmap Set

/-- `skheap_realloc`.  The copy goes to address 0 when there is no new region. -/
def skheapRealloc (heap : SkHeap) (p : Option Nat) (newSize : Int) :
    Except Halt (Option Nat × SkHeap) :=
  match p with
  | none => .ok (none, heap)
  | some p =>
    if newSize ≤ 0 then .ok (none, heap)
    else do
      let (new, heap) ← skheapMalloc heap newSize
      let cs := u32 (p + (2 ^ 32 - skhControlSize))
      let count := (SkhControlStruct.load heap.memory cs).size
      let memory := heap.memory.copyUp 32 (new.getD 0) p count
      let heap ← skheapFree { heap with memory } (some p)
      .ok (some p, heap)

/-- The allocation can be used and freed. -/
structure SkHeap.Live (heap : SkHeap) (alloc : SkhAllocation) : Prop where
  placed : alloc.Placed heap.regionStart
  intact : heap.Intact alloc
  marked : alloc.blocks heap.regionStart ⊆ heap.bitmap.bits

/-- What a caller expects of a reallocation: `NULL` and the old block as it was, or a block of
the new size with the old bytes, the old block freed and the other blocks' bytes unchanged. -/
def SkhReallocated (history : SkhHistory) (alloc : SkhAllocation) (newSize : Int)
    (outcome : Except Halt (Option Nat × SkHeap)) : Prop :=
  (∃ heap', outcome = .ok (none, heap') ∧ heap'.Live alloc ∧
    EqOn heap'.memory history.heap.memory alloc.payload) ∨
  ∃ new heap', outcome = .ok (some new.ptr, heap') ∧ new.size = newSize ∧ heap'.Live new ∧
    (∀ k < min alloc.size.toNat newSize.toNat,
      heap'.memory (new.ptr + k) = history.heap.memory (alloc.ptr + k)) ∧
    (∀ other ∈ history.live.erase alloc,
      EqOn heap'.memory history.heap.memory other.payload) ∧
    Disjoint (alloc.blocks heap'.regionStart \ new.blocks heap'.regionStart) heap'.bitmap.bits

/-! ## Freeing -/

/-- Freeing marks no block. -/
theorem skheapMarkLoop_false_subset : ∀ {numBlocks blockId : Nat} {bitmap cleared : Bitmap 8},
    skheapMarkLoop false numBlocks blockId bitmap = .ok cleared → cleared.bits ⊆ bitmap.bits
  | 0, blockId, bitmap, cleared, result => by
    obtain rfl := Except.ok.inj result
    exact Subset.rfl
  | numBlocks + 1, blockId, bitmap, cleared, result => by
    simp only [skheapMarkLoop, Bool.false_eq_true, if_false] at result
    split at result
    · contradiction
    · refine (skheapMarkLoop_false_subset result).trans ?_
      rw [bits_clearBit (by decide)]
      exact sdiff_subset

/-- Freeing changes the bitmap only. -/
theorem skheapFree_bitmap {heap heap' : SkHeap} {ptr : Nat}
    (freed : skheapFree heap (some ptr) = .ok heap') :
    ∃ bitmap, heap' = { heap with bitmap } ∧ bitmap.bits ⊆ heap.bitmap.bits := by
  simp only [skheapFree] at freed
  split at freed
  · contradiction
  split at freed
  · contradiction
  simp only [skheapMarkRegion] at freed
  iterate 4
    split at freed
    · contradiction
  obtain ⟨bitmap, cleared, stored⟩ := exists_of_bind freed
  exact ⟨bitmap, (Except.ok.inj stored).symm, skheapMarkLoop_false_subset cleared⟩

/-- What was freed is not live. -/
theorem skheapFree_not_live {heap heap' : SkHeap} {alloc : SkhAllocation}
    (freed : skheapFree heap (some alloc.ptr) = .ok heap') : ¬heap'.Live alloc := by
  rintro ⟨placed, intact, marked⟩
  obtain ⟨bitmap, rfl, fewer⟩ := skheapFree_bitmap freed
  -- the blocks were marked before, so that they were the ones freed
  have wasPlaced : alloc.Placed heap.regionStart := placed
  have wasIntact : heap.Intact alloc := intact
  have wasMarked : alloc.blocks heap.regionStart ⊆ heap.bitmap.bits := marked.trans fewer
  obtain ⟨cleared, freed', bits⟩ := skheapFree_live wasPlaced wasIntact wasMarked
  obtain rfl : cleared = bitmap := by
    have same := Except.ok.inj (freed'.symm.trans freed)
    exact congrArg SkHeap.bitmap same
  have first : alloc.blockId heap.regionStart ∈ alloc.blocks heap.regionStart :=
    ⟨le_rfl, by have := wasPlaced.numBlocks_pos; omega⟩
  have inBits : alloc.blockId heap.regionStart ∈ cleared.bits := marked first
  rw [bits] at inBits
  exact inBits.2 first

/-! ## Reallocating -/

/-- A reallocation that returns gives back the pointer that it has freed. -/
theorem skheapRealloc_returns_old {heap heap' : SkHeap} {p : Nat} {newSize : Int}
    {answer : Option Nat} (positive : 0 < newSize)
    (result : skheapRealloc heap (some p) newSize = .ok (answer, heap')) :
    answer = some p ∧ ∃ before, skheapFree before (some p) = .ok heap' := by
  simp only [skheapRealloc, if_neg (by omega : ¬newSize ≤ 0)] at result
  obtain ⟨⟨new, allocated⟩, -, rest⟩ := exists_of_bind result
  obtain ⟨freed, freeing, returned⟩ := exists_of_bind rest
  obtain ⟨rfl, rfl⟩ := eq_of_returned returned
  exact ⟨rfl, _, freeing⟩

/-- No reallocation meets the expectation. -/
theorem skheap_realloc_never_reallocates {history : SkhHistory} {alloc : SkhAllocation}
    {newSize : Int} (positive : 0 < newSize) :
    ¬SkhReallocated history alloc newSize
      (skheapRealloc history.heap (some alloc.ptr) newSize) := by
  rintro (⟨heap', result, -⟩ | ⟨new, heap', result, -, live, -⟩)
  · have returned := (skheapRealloc_returns_old positive result).1
    contradiction
  · obtain ⟨same, before, freed⟩ := skheapRealloc_returns_old positive result
    rw [← Option.some.inj same] at freed
    exact skheapFree_not_live freed live

theorem skheap_realloc_never_reallocates_grow :
    ∃ heap, skheapMalloc emptySkHeap 100 = .ok (some 0xC0200010, heap) ∧
      ¬SkhReallocated ⟨heap, [⟨0xC0200010, 100, false⟩]⟩ ⟨0xC0200010, 100, false⟩ 200
        (skheapRealloc heap (some 0xC0200010) 200) :=
  ⟨_, rfl, skheap_realloc_never_reallocates (by decide)⟩

/-- A block of 100 bytes is reallocated to 200: the pointer returned is the old one, whose block
is free, and the new block stays marked. -/
theorem skheap_realloc_returns_freed :
    ∃ heap heap', skheapMalloc emptySkHeap 100 = .ok (some 0xC0200010, heap) ∧
      skheapRealloc heap (some 0xC0200010) 200 = .ok (some 0xC0200010, heap') ∧
      heap'.bitmap 0 = 0#8 ∧ heap'.bitmap 1 = 1#8 ∧
      ¬SkhReallocated ⟨heap, [⟨0xC0200010, 100, false⟩]⟩ ⟨0xC0200010, 100, false⟩ 200
        (skheapRealloc heap (some 0xC0200010) 200) := by
  obtain ⟨heap, allocated⟩ :
      ∃ heap, skheapMalloc emptySkHeap 100 = .ok (some 0xC0200010, heap) := ⟨_, rfl⟩
  have bits : (skheapMalloc emptySkHeap 100 >>= fun result =>
      skheapRealloc result.2 (some 0xC0200010) 200).toOption.map
        (fun result => (result.1, result.2.bitmap 0, result.2.bitmap 1)) =
      some (some 0xC0200010, 0#8, 1#8) := by decide +kernel
  rw [allocated] at bits
  obtain ⟨⟨answer, heap'⟩, result, same⟩ := exists_of_known bits
  simp only [Prod.mk.injEq] at same
  obtain ⟨rfl, first, second⟩ := same
  refine ⟨heap, heap', allocated, result, first, second, ?_⟩
  rintro (⟨heap'', null, -⟩ | ⟨new, heap'', block, -, live, -⟩)
  · have returned := (skheapRealloc_returns_old (by decide) null).1
    contradiction
  · obtain ⟨same, before, freed⟩ := skheapRealloc_returns_old (by decide) block
    rw [← Option.some.inj same] at freed
    exact skheapFree_not_live freed live

end Antonix
