import Antonix.MmSkheap.Basic
import Mathlib.Order.CompletePartialOrder
import Mathlib.Order.Interval.Set.Disjoint

/-! # What the routines of `mm_skheap.c` do

The searches return a run of free blocks, the marking loop adds or removes
exactly a run of blocks, and the size arithmetic either rounds a request up to
whole blocks or leaves a size that no search can satisfy.  Both allocators are
then described by one structure, `SkhGrant`. -/

namespace Antonix

open Bitmap Set

/-! ## The plain search -/

/-- The blocks from `startBlId` up to element `i` are free and provide all but `blCntr`
of the blocks. -/
structure SkhSearch (bitmap : Bitmap 8) (blocks i blCntr startBlId : Nat) : Prop where
  started : startBlId ≤ 8 * i
  counted : startBlId + blocks = 8 * i + blCntr
  free : Disjoint (Ico startBlId (8 * i)) bitmap.bits

theorem SkhSearch.fresh (bitmap : Bitmap 8) (blocks i : Nat) :
    SkhSearch bitmap blocks i blocks (i * 8) where
  started := by omega
  counted := by omega
  free := by rw [Nat.mul_comm]; simp

theorem SkhSearch.advance {bitmap : Bitmap 8} {blocks i blCntr startBlId : Nat}
    (search : SkhSearch bitmap blocks i blCntr startBlId) (large : 8 < blCntr)
    (elementFree : bitmap i = 0#8) :
    SkhSearch bitmap blocks (i + 1) (blCntr - 8) startBlId where
  started := by have := search.started; omega
  counted := by have := search.counted; omega
  free := by
    have := search.started
    rw [element_eq_zero_iff] at elementFree
    rw [show 8 * (i + 1) = 8 * i + 8 by omega,
      ← Ico_union_Ico_eq_Ico (by omega : startBlId ≤ 8 * i) (by omega), disjoint_union_left]
    exact ⟨search.free, elementFree⟩

/-- The last element only has to provide its low bits. -/
theorem SkhSearch.finish {bitmap : Bitmap 8} {blocks i blCntr startBlId : Nat}
    (search : SkhSearch bitmap blocks i blCntr startBlId) (small : blCntr ≤ 8)
    (lowFree : bitmap i &&& lowMask 8 blCntr = 0#8) :
    Disjoint (Ico startBlId (startBlId + blocks)) bitmap.bits := by
  have := search.started
  rw [masked_eq_zero_iff small] at lowFree
  rw [search.counted, ← Ico_union_Ico_eq_Ico (by omega : startBlId ≤ 8 * i) (by omega),
    disjoint_union_left]
  exact ⟨search.free, lowFree⟩

/-- A marked block among those that element `i` still has to provide rules out every start
between the chosen one and itself. -/
theorem SkhSearch.reject {bitmap : Bitmap 8} {blocks i blCntr startBlId k t : Nat}
    (search : SkhSearch bitmap blocks i blCntr startBlId) (high : k < 8 * i + blCntr)
    (isSet : k ∈ bitmap.bits) (from_start : startBlId ≤ t) (upto : t ≤ k) :
    ¬Disjoint (Ico t (t + blocks)) bitmap.bits := by
  have counted := search.counted
  exact not_disjoint_iff.mpr ⟨k, ⟨upto, by omega⟩, isSet⟩

/-- Only one block of a residue class is the lowest of the class that starts a free run. -/
theorem lowest_unique {bitmap : Bitmap 8} {blocks n r a b : Nat} (classA : a % n = r)
    (freeA : Disjoint (Ico a (a + blocks)) bitmap.bits)
    (leastA : ∀ t < a, t % n = r → ¬Disjoint (Ico t (t + blocks)) bitmap.bits) (classB : b % n = r)
    (freeB : Disjoint (Ico b (b + blocks)) bitmap.bits)
    (leastB : ∀ t < b, t % n = r → ¬Disjoint (Ico t (t + blocks)) bitmap.bits) : a = b := by
  have notBefore : ¬b < a := fun before => leastA b before classB freeB
  have notAfter : ¬a < b := fun after => leastB a after classA freeA
  omega

/-- The search is under way, and no lower multiple of 8 starts a free run. -/
structure SkhFirst (bitmap : Bitmap 8) (blocks i blCntr startBlId : Nat) : Prop
    extends SkhSearch bitmap blocks i blCntr startBlId where
  pending : 0 < blCntr
  boundary : startBlId % 8 = 0
  first : ∀ t < startBlId, t % 8 = 0 → ¬Disjoint (Ico t (t + blocks)) bitmap.bits

theorem SkhFirst.init (bitmap : Bitmap 8) {blocks : Nat} (positive : 0 < blocks) :
    SkhFirst bitmap blocks 0 blocks 0 where
  toSkhSearch := .fresh bitmap blocks 0
  pending := positive
  boundary := rfl
  first := by simp

theorem SkhFirst.restart {bitmap : Bitmap 8} {blocks i blCntr startBlId k : Nat}
    (search : SkhFirst bitmap blocks i blCntr startBlId) (positive : 0 < blocks)
    (low : 8 * i ≤ k) (high : k < 8 * i + blCntr) (isSet : k ∈ bitmap.bits) :
    SkhFirst bitmap blocks (i + 1) blocks ((i + 1) * 8) where
  toSkhSearch := .fresh bitmap blocks (i + 1)
  pending := positive
  boundary := by omega
  first := by
    intro t below multiple
    by_cases earlier : t < startBlId
    · exact search.first t earlier multiple
    · exact search.reject high isSet (by omega) (by omega)

theorem SkhFirst.advance {bitmap : Bitmap 8} {blocks i blCntr startBlId : Nat}
    (search : SkhFirst bitmap blocks i blCntr startBlId) (large : 8 < blCntr)
    (elementFree : bitmap i = 0#8) : SkhFirst bitmap blocks (i + 1) (blCntr - 8) startBlId where
  toSkhSearch := search.toSkhSearch.advance large elementFree
  pending := by omega
  boundary := search.boundary
  first := search.first

/-- The search ends at the lowest multiple of 8 from which enough blocks are free. -/
theorem skheapFindLoop_eq_some_iff {bitmap : Bitmap 8} {blocks : Nat} (positive : 0 < blocks) :
    ∀ {remaining i blCntr startBlId found : Nat},
      SkhFirst bitmap blocks i blCntr startBlId →
      (skheapFindLoop bitmap blocks remaining i blCntr startBlId = some found ↔
        Disjoint (Ico found (found + blocks)) bitmap.bits ∧ found % 8 = 0 ∧
          found + blocks ≤ 8 * (i + remaining) ∧
          ∀ t < found, t % 8 = 0 → ¬Disjoint (Ico t (t + blocks)) bitmap.bits)
  | 0, i, blCntr, startBlId, found, search => by
    have counted := search.counted
    have pending := search.pending
    simp only [skheapFindLoop, reduceCtorEq, false_iff]
    rintro ⟨free, multiple, inside, -⟩
    exact search.first found (by omega) multiple free
  | remaining + 1, i, blCntr, startBlId, found, search => by
    rw [show i + (remaining + 1) = i + 1 + remaining by omega, skheapFindLoop]
    split
    · rename_i large
      split
      · rename_i elementTaken
        rw [Ne, element_eq_zero_iff, not_disjoint_iff] at elementTaken
        obtain ⟨k, ⟨low, high⟩, isSet⟩ := elementTaken
        exact skheapFindLoop_eq_some_iff positive (search.restart positive low (by omega) isSet)
      · rename_i elementFree
        exact skheapFindLoop_eq_some_iff positive (search.advance large (not_not.mp elementFree))
    · rename_i small
      split
      · rename_i lowTaken
        rw [Ne, masked_eq_zero_iff (by omega), not_disjoint_iff] at lowTaken
        obtain ⟨k, ⟨low, high⟩, isSet⟩ := lowTaken
        exact skheapFindLoop_eq_some_iff positive (search.restart positive low high isSet)
      · rename_i lowFree
        have free := search.finish (by omega) (not_not.mp lowFree)
        have counted := search.counted
        constructor
        · intro result
          obtain rfl : startBlId = found := by simpa using result
          exact ⟨free, search.boundary, by omega, search.first⟩
        · rintro ⟨foundFree, multiple, -, first⟩
          rw [lowest_unique search.boundary free search.first multiple foundFree first]

/-! ## The aligned search -/

/-- Either no start has been chosen, or the chosen one is the block before a 4 KB boundary
and the search goes on as the plain one. -/
def SkhAlignedSearch (bitmap : Bitmap 8) (blocks i blCntr startBlId : Nat) : Prop :=
  blCntr = blocks ∨ blCntr < blocks ∧ (startBlId + 1) % 16 = 0 ∧
    SkhSearch bitmap blocks i blCntr startBlId

/-- Choosing the last block of the element before an even one. -/
theorem SkhSearch.chosen {bitmap : Bitmap 8} {blocks i : Nat} (positive : 0 < blocks)
    (past : 0 < i) (lastFree : bitmap (i - 1) &&& 0x80#8 = 0#8) :
    SkhSearch bitmap blocks i (blocks - 1) (i * 8 - 1) where
  started := by omega
  counted := by omega
  free := by
    have notSet : i * 8 - 1 ∉ bitmap.bits := by
      rw [mem_bits_iff_and (by decide), not_not, show (i * 8 - 1) / 8 = i - 1 by omega,
        show (i * 8 - 1) % 8 = 7 by omega]
      exact lastFree
    rw [disjoint_left]
    rintro k ⟨low, high⟩ isSet
    obtain rfl : k = i * 8 - 1 := by omega
    exact notSet isSet

/-- The search state that the body of the loop works on, once a start is chosen. -/
theorem SkhAlignedSearch.chosen {bitmap : Bitmap 8} {blocks i blCntr startBlId : Nat}
    (positive : 0 < blocks) (past : 0 < i)
    (search : SkhAlignedSearch bitmap blocks i blCntr startBlId)
    (even : ¬(blCntr = blocks ∧ i % 2 ≠ 0))
    (lastFree : ¬(blCntr = blocks ∧ bitmap (i - 1) &&& 0x80#8 ≠ 0#8)) :
    let start := if blCntr = blocks then i * 8 - 1 else startBlId
    let counter := if blCntr = blocks then blCntr - 1 else blCntr
    counter < blocks ∧ (start + 1) % 16 = 0 ∧ SkhSearch bitmap blocks i counter start := by
  cases search with
  | inl fresh =>
    subst fresh
    simp only [if_true]
    refine ⟨by omega, by omega, .chosen positive past ?_⟩
    simpa using lastFree
  | inr running =>
    obtain ⟨below, aligned, search⟩ := running
    simp only [if_neg (by omega : blCntr ≠ blocks)]
    exact ⟨below, aligned, search⟩

/-- The aligned search is under way, and no lower block before a 4 KB boundary starts a free
run.  While no start is chosen, that is said of all blocks before the element's. -/
structure SkhAlignedFirst (bitmap : Bitmap 8) (blocks i blCntr startBlId : Nat) : Prop where
  search : SkhAlignedSearch bitmap blocks i blCntr startBlId
  pending : 0 < blCntr
  first : ∀ t < (if blCntr = blocks then i * 8 - 1 else startBlId), t % 16 = 15 →
    ¬Disjoint (Ico t (t + blocks)) bitmap.bits

/-- Going on without a chosen start. -/
theorem SkhAlignedFirst.fresh {bitmap : Bitmap 8} {blocks i : Nat} (startBlId : Nat)
    (positive : 0 < blocks)
    (first : ∀ t < i * 8 - 1, t % 16 = 15 → ¬Disjoint (Ico t (t + blocks)) bitmap.bits) :
    SkhAlignedFirst bitmap blocks i blocks startBlId where
  search := .inl rfl
  pending := positive
  first := by simpa using first

/-- The first 4 KB boundary is passed over. -/
theorem SkhAlignedFirst.init (bitmap : Bitmap 8) {blocks : Nat} (positive : 0 < blocks) :
    SkhAlignedFirst bitmap blocks 2 blocks 0 :=
  .fresh 0 positive fun t below aligned => by omega

/-- A marked block that element `i` would have to provide: the search starts afresh. -/
theorem SkhAlignedFirst.restart {bitmap : Bitmap 8} {blocks i counter start k : Nat}
    (positive : 0 < blocks) (chosen : SkhSearch bitmap blocks i counter start)
    (first : ∀ t < start, t % 16 = 15 → ¬Disjoint (Ico t (t + blocks)) bitmap.bits)
    (low : 8 * i ≤ k) (high : k < 8 * i + counter) (isSet : k ∈ bitmap.bits) :
    SkhAlignedFirst bitmap blocks (i + 1) blocks start := by
  refine .fresh start positive fun t below aligned => ?_
  by_cases earlier : t < start
  · exact first t earlier aligned
  · exact chosen.reject high isSet (by omega) (by omega)

/-- No region starts before an odd element. -/
theorem SkhAlignedFirst.skipOdd {bitmap : Bitmap 8} {blocks i start : Nat}
    (inv : SkhAlignedFirst bitmap blocks i blocks start) (odd : i % 2 ≠ 0) :
    SkhAlignedFirst bitmap blocks (i + 1) blocks start := by
  have first := inv.first
  rw [if_pos rfl] at first
  refine .fresh start inv.pending fun t below aligned => ?_
  exact first t (by omega) aligned

/-- The block before the boundary is marked. -/
theorem SkhAlignedFirst.skipTaken {bitmap : Bitmap 8} {blocks i start : Nat}
    (inv : SkhAlignedFirst bitmap blocks i blocks start) (past : 0 < i)
    (taken : bitmap (i - 1) &&& 0x80#8 ≠ 0#8) :
    SkhAlignedFirst bitmap blocks (i + 1) blocks start := by
  have positive := inv.pending
  have first := inv.first
  rw [if_pos rfl] at first
  refine .fresh start positive fun t below aligned => ?_
  by_cases earlier : t < i * 8 - 1
  · exact first t earlier aligned
  · obtain rfl : t = i * 8 - 1 := by omega
    have isSet : i * 8 - 1 ∈ bitmap.bits := by
      rw [mem_bits_iff_and (by decide), show (i * 8 - 1) / 8 = i - 1 by omega,
        show (i * 8 - 1) % 8 = 7 by omega]
      exact taken
    exact not_disjoint_iff.mpr ⟨i * 8 - 1, ⟨le_rfl, by omega⟩, isSet⟩

/-- Nothing is left to be found in the elements that were searched. -/
theorem SkhAlignedFirst.exhausted {bitmap : Bitmap 8} {blocks i blCntr startBlId found : Nat}
    (inv : SkhAlignedFirst bitmap blocks i blCntr startBlId) (aligned : found % 16 = 15)
    (inside : found + blocks ≤ 8 * i) (boundary : found + 1 < 8 * i) :
    ¬Disjoint (Ico found (found + blocks)) bitmap.bits := by
  have pending := inv.pending
  refine inv.first found ?_ aligned
  cases inv.search with
  | inl fresh =>
    rw [if_pos fresh]
    omega
  | inr running =>
    obtain ⟨below, -, search⟩ := running
    have counted := search.counted
    rw [if_neg (by omega)]
    omega

/-- The aligned search ends at the lowest block before a 4 KB boundary from which enough blocks
are free, if that boundary lies inside the bitmap. -/
theorem skheapFindAlignedLoop_eq_some_iff {bitmap : Bitmap 8} {blocks : Nat}
    (positive : 0 < blocks) :
    ∀ {remaining i blCntr startBlId found : Nat}, 0 < i →
      SkhAlignedFirst bitmap blocks i blCntr startBlId →
      (skheapFindAlignedLoop bitmap blocks remaining i blCntr startBlId = some found ↔
        Disjoint (Ico found (found + blocks)) bitmap.bits ∧ found % 16 = 15 ∧
          found + blocks ≤ 8 * (i + remaining) ∧ found + 1 < 8 * (i + remaining) ∧
          ∀ t < found, t % 16 = 15 → ¬Disjoint (Ico t (t + blocks)) bitmap.bits)
  | 0, i, blCntr, startBlId, found, _, inv => by
    simp only [skheapFindAlignedLoop, reduceCtorEq, false_iff]
    rintro ⟨free, aligned, inside, boundary, -⟩
    exact inv.exhausted aligned inside boundary free
  | remaining + 1, i, blCntr, startBlId, found, past, inv => by
    rw [show i + (remaining + 1) = i + 1 + remaining by omega, skheapFindAlignedLoop]
    split
    · rename_i odd
      obtain ⟨rfl, odd⟩ := odd
      exact skheapFindAlignedLoop_eq_some_iff positive (by omega) (inv.skipOdd odd)
    · rename_i even
      split
      · rename_i taken
        obtain ⟨rfl, taken⟩ := taken
        exact skheapFindAlignedLoop_eq_some_iff positive (by omega) (inv.skipTaken past taken)
      · rename_i lastFree
        have first := inv.first
        obtain ⟨running, start_aligned, chosen⟩ := inv.search.chosen positive past even lastFree
        -- from here on the loop is that of the plain search
        simp only
        generalize (if blCntr = blocks then i * 8 - 1 else startBlId) = start
          at first start_aligned chosen ⊢
        generalize (if blCntr = blocks then blCntr - 1 else blCntr) = counter
          at running chosen ⊢
        split
        · rename_i large
          split
          · rename_i elementTaken
            rw [Ne, element_eq_zero_iff, not_disjoint_iff] at elementTaken
            obtain ⟨k, ⟨low, high⟩, isSet⟩ := elementTaken
            exact skheapFindAlignedLoop_eq_some_iff positive (by omega)
              (.restart positive chosen first low (by omega) isSet)
          · rename_i elementFree
            refine skheapFindAlignedLoop_eq_some_iff positive (by omega) ?_
            exact
              { search := .inr ⟨by omega, start_aligned,
                  chosen.advance large (not_not.mp elementFree)⟩
                pending := by omega
                first := by rwa [if_neg (by omega)] }
        · rename_i small
          split
          · rename_i lowTaken
            rw [Ne, masked_eq_zero_iff (by omega), not_disjoint_iff] at lowTaken
            obtain ⟨k, ⟨low, high⟩, isSet⟩ := lowTaken
            exact skheapFindAlignedLoop_eq_some_iff positive (by omega)
              (.restart positive chosen first low high isSet)
          · rename_i lowFree
            have counted := chosen.counted
            have started := chosen.started
            have free := chosen.finish (by omega) (not_not.mp lowFree)
            have boundary : start % 16 = 15 := by omega
            constructor
            · intro result
              obtain rfl : start = found := by simpa using result
              exact ⟨free, boundary, by omega, by omega, first⟩
            · rintro ⟨foundFree, aligned, -, -, least⟩
              rw [lowest_unique boundary free first aligned foundFree least]

/-! ## Marking -/

theorem skheapMarkLoop_inUse : ∀ {numBlocks blockId : Nat} {bitmap : Bitmap 8},
    Disjoint (Ico blockId (blockId + numBlocks)) bitmap.bits →
    ∃ marked, skheapMarkLoop true numBlocks blockId bitmap = .ok marked ∧
      marked.bits = bitmap.bits ∪ Ico blockId (blockId + numBlocks)
  | 0, blockId, bitmap, _ => ⟨bitmap, rfl, by simp⟩
  | numBlocks + 1, blockId, bitmap, free => by
    rw [Ico_run_succ, disjoint_insert_left] at free
    obtain ⟨here, rest⟩ := free
    have restFree : Disjoint (Ico (blockId + 1) (blockId + 1 + numBlocks))
        (bitmap.setBit blockId).bits := by
      rw [bits_setBit (by decide), disjoint_insert_right]
      exact ⟨by simp, rest⟩
    obtain ⟨marked, result, bits⟩ := skheapMarkLoop_inUse restFree
    rw [mem_bits_iff_and (by decide), not_not] at here
    refine ⟨marked, ?_, ?_⟩
    · simpa [skheapMarkLoop, here] using result
    · rw [bits, bits_setBit (by decide), Ico_run_succ, insert_union, union_insert]

theorem skheapMarkLoop_free : ∀ {numBlocks blockId : Nat} {bitmap : Bitmap 8},
    Ico blockId (blockId + numBlocks) ⊆ bitmap.bits →
    ∃ cleared, skheapMarkLoop false numBlocks blockId bitmap = .ok cleared ∧
      cleared.bits = bitmap.bits \ Ico blockId (blockId + numBlocks)
  | 0, blockId, bitmap, _ => ⟨bitmap, rfl, by simp⟩
  | numBlocks + 1, blockId, bitmap, marked => by
    rw [Ico_run_succ, insert_subset_iff] at marked
    obtain ⟨here, rest⟩ := marked
    have restMarked : Ico (blockId + 1) (blockId + 1 + numBlocks) ⊆
        (bitmap.clearBit blockId).bits := by
      rw [bits_clearBit (by decide)]
      exact subset_sdiff_singleton rest (by simp)
    obtain ⟨cleared, result, bits⟩ := skheapMarkLoop_free restMarked
    rw [mem_bits_iff_and (by decide)] at here
    refine ⟨cleared, ?_, ?_⟩
    · simpa [skheapMarkLoop, here] using result
    · rw [bits, bits_clearBit (by decide), Ico_run_succ, insert_eq, sdiff_sdiff]

/-- What `skheap_mark_region` does with a whole number of blocks at a block boundary. -/
theorem skheapMarkRegion_blocks {heap : SkHeap} {blockId numBlocks : Nat} {inUse : Bool}
    (small : blockId < 2 ^ 24) (positive : 0 < numBlocks) :
    skheapMarkRegion heap (heap.regionStart + blockId * skheapBlockSize)
        (numBlocks * skheapBlockSize) inUse =
      if skheapBlockCount ≤ blockId + numBlocks then
        .error (.panic "Trying to mark region outside of static kernel heap region.")
      else (skheapMarkLoop inUse numBlocks blockId heap.bitmap).map
        fun bitmap => { heap with bitmap } := by
  have fits := heap.fits
  have offset := u32_offset (by omega : heap.regionStart < 2 ^ 32)
    (by rw [skheapBlockSize]; omega : blockId * skheapBlockSize < 2 ^ 32)
  simp only [skheapMarkRegion, offset, Nat.mul_mod_left, ne_eq, not_true, if_false,
    Nat.mul_div_cancel _ (show 0 < skheapBlockSize by decide)]
  rw [if_neg (by omega : ¬numBlocks = 0)]
  rfl

/-! ## Sizes -/

/-- `ext_size` of a moderate request: past the control structure and the payload, up to
the next block boundary. -/
theorem skhExtSize_moderate {size : Int} (positive : 0 < size) (moderate : size < 2 ^ 30) :
    skhExtSize size = ((size.toNat + skhControlSize) / skheapBlockSize + 1) * skheapBlockSize := by
  have sum : i32 (size + skhControlSize) = size + skhControlSize := by
    simp only [i32, skhControlSize, Int.bmod_def]; omega
  rw [skhExtSize, sum, Int.tmod_eq_emod_of_nonneg (by simp only [skhControlSize]; omega)]
  simp only [i32, skhControlSize, skheapBlockSize, Int.bmod_def]
  omega

/-- The size that is searched for is a whole number of blocks.  The sum may become negative, and
is rounded towards zero then, which adds up to a block. -/
theorem skhExtSize_eq {size : Int} (positive : 0 < size) (int32 : size < 2 ^ 31) :
    ∃ slack, asU32 (skhExtSize size) =
      ((size.toNat + skhControlSize + slack) / skheapBlockSize + 1) * skheapBlockSize := by
  by_cases overflow : size + skhControlSize < 2 ^ 31
  · have sum : i32 (size + skhControlSize) = size + skhControlSize := by
      simp only [i32, skhControlSize, Int.bmod_def] at overflow ⊢; omega
    refine ⟨0, ?_⟩
    rw [skhExtSize, sum, Int.tmod_eq_emod_of_nonneg (by simp only [skhControlSize]; omega)]
    simp only [asU32, i32, skhControlSize, skheapBlockSize, Int.bmod_def] at overflow ⊢
    omega
  · have sum : i32 (size + skhControlSize) = -(2 ^ 32 - (size + skhControlSize)) := by
      simp only [i32, skhControlSize, Int.bmod_def] at overflow ⊢; omega
    refine ⟨skheapBlockSize - 1, ?_⟩
    rw [skhExtSize, sum, Int.neg_tmod,
      Int.tmod_eq_emod_of_nonneg (by simp only [skhControlSize]; omega)]
    simp only [asU32, i32, skhControlSize, skheapBlockSize, Int.bmod_def] at overflow ⊢
    omega

theorem skhExtSize_whole {size : Int} (positive : 0 < size) (int32 : size < 2 ^ 31) :
    asU32 (skhExtSize size) % skheapBlockSize = 0 := by
  obtain ⟨slack, value⟩ := skhExtSize_eq positive int32
  rw [value, Nat.mul_mod_left]

/-- The computation overflows for no request that could be satisfied: past 1 GB the size
that is searched for stays above 1 GB. -/
theorem skhExtSize_excessive {size : Int} (excessive : 2 ^ 30 ≤ size) (int32 : size < 2 ^ 31) :
    2 ^ 30 ≤ asU32 (skhExtSize size) := by
  obtain ⟨slack, value⟩ := skhExtSize_eq (by omega) int32
  rw [value, skhControlSize, skheapBlockSize]
  omega

/-- Every request needs a block. -/
theorem skhExtSize_blocks {size : Int} (positive : 0 < size) (int32 : size < 2 ^ 31) :
    0 < asU32 (skhExtSize size) / skheapBlockSize := by
  obtain ⟨slack, value⟩ := skhExtSize_eq positive int32
  rw [value, Nat.mul_div_cancel _ (by decide)]
  exact Nat.succ_pos _

end Antonix
