import Antonix.MmSkheap.Search

/-! # Allocations of the static kernel heap

An allocation is what a caller holds: the pointer, the size it asked for and
which allocator it came from.  Everything else, the start of the marked blocks
above all, is a function of these.  `SkhGrant` says what both allocators do
when they return a pointer, and `skheapFree_live` what freeing it does. -/

namespace Antonix

open Bitmap Set

/-- A pointer returned by `skheap_malloc` or, when `aligned`, by `skheap_malloc_a`. -/
structure SkhAllocation where
  ptr : Nat
  size : Int
  aligned : Bool
  deriving DecidableEq, Repr

namespace SkhAllocation

variable (regionStart : Nat) (alloc : SkhAllocation)

/-- Bytes between the start and the control structure. -/
def padding : Nat := if alloc.aligned then skheapBlockSize - skhControlSize else 0

/-- The address of the first block. -/
def start : Nat := alloc.ptr - skhControlSize - alloc.padding

def extSize : Nat := asU32 (skhExtSize alloc.size)

def blockId : Nat := (alloc.start - regionStart) / skheapBlockSize

def numBlocks : Nat := alloc.extSize / skheapBlockSize

/-- The blocks of `[start, start + ext_size)`. -/
def blocks : Set Nat :=
  Ico (alloc.blockId regionStart) (alloc.blockId regionStart + alloc.numBlocks)

/-- The bytes of the control structure. -/
def controlBytes : Set Nat := Ico (alloc.ptr - skhControlSize) alloc.ptr

/-- The bytes the caller asked for. -/
def payload : Set Nat := Ico alloc.ptr (alloc.ptr + alloc.size.toNat)

/-- The pointer lies where the allocators put it, and the blocks inside the heap. -/
structure Placed : Prop where
  positive : 0 < alloc.size
  moderate : alloc.size < 2 ^ 30
  place : alloc.ptr = regionStart + alloc.blockId regionStart * skheapBlockSize +
    alloc.padding + skhControlSize
  inside : alloc.blockId regionStart + alloc.numBlocks < skheapBlockCount

variable {regionStart alloc}

theorem padding_le : alloc.padding + skhControlSize ≤ skheapBlockSize := by
  unfold padding
  split <;> decide

theorem Placed.extSize_eq (placed : alloc.Placed regionStart) :
    alloc.extSize = alloc.numBlocks * skheapBlockSize := by
  have size := skhExtSize_moderate placed.positive placed.moderate
  have moderate := placed.moderate
  simp only [numBlocks, extSize, size, asU32, skhControlSize, skheapBlockSize]
  omega

theorem Placed.numBlocks_eq (placed : alloc.Placed regionStart) :
    alloc.numBlocks = (alloc.size.toNat + skhControlSize) / skheapBlockSize + 1 := by
  have size := skhExtSize_moderate placed.positive placed.moderate
  have moderate := placed.moderate
  simp only [numBlocks, extSize, size, asU32, skhControlSize, skheapBlockSize]
  omega

theorem Placed.numBlocks_pos (placed : alloc.Placed regionStart) : 0 < alloc.numBlocks := by
  rw [placed.numBlocks_eq]
  exact Nat.succ_pos _

end SkhAllocation

/-! ## The control structure -/

theorem SkhControlStruct.load_congr {memory memory' : ByteMem} {cs : Nat}
    (same : EqOn memory memory' (Ico cs (cs + skhControlSize))) :
    load memory cs = load memory' cs := by
  have word : ∀ k ≤ 12, memory.load32 (cs + k) = memory'.load32 (cs + k) := fun k small =>
    ByteMem.load32_congr (same.mono (Ico_subset_Ico (by omega)
      (by simp only [skhControlSize]; omega)))
  simp only [load, word 4 (by decide), word 8 (by decide), word 12 (by decide)]
  rw [show memory.load32 cs = memory'.load32 cs from word 0 (by decide)]

theorem SkhControlStruct.store_eqOn (control : SkhControlStruct) (memory : ByteMem) (cs : Nat) :
    EqOn (control.store memory cs) memory (Ico cs (cs + skhControlSize))ᶜ := by
  intro b outside
  simp only [mem_compl_iff, mem_Ico, skhControlSize] at outside
  simp only [store]
  rw [ByteMem.store32_eqOn _ _ _ (by simp only [mem_compl_iff, mem_Ico]; omega),
    ByteMem.store32_eqOn _ _ _ (by simp only [mem_compl_iff, mem_Ico]; omega),
    ByteMem.store32_eqOn _ _ _ (by simp only [mem_compl_iff, mem_Ico]; omega),
    ByteMem.store32_eqOn _ _ _ (by simp only [mem_compl_iff, mem_Ico]; omega)]

theorem SkhControlStruct.load_store (size : Int) {padding : Nat} (small : padding < 2 ^ 32)
    (memory : ByteMem) (cs : Nat) :
    load ((skhControlOf size padding).store memory cs) cs = skhControlOf size padding := by
  have sizeFits : (skhControlOf size padding).size < 2 ^ 32 := asU32_lt _
  have extSizeFits : (skhControlOf size padding).extSize < 2 ^ 32 := asU32_lt _
  have paddingFits : (skhControlOf size padding).padding < 2 ^ 32 := small
  have crcFits : (skhControlOf size padding).crcSize < 2 ^ 32 :=
    Nat.xor_lt_two_pow (asU32_lt _) (by decide)
  simp (disch := omega) only [load, store, ByteMem.load32_store32,
    ByteMem.load32_store32_of_apart]

/-! ## Granting -/

/-- What a successful call of either allocator does. -/
structure SkhGrant (heap : SkHeap) (alloc : SkhAllocation) (heap' : SkHeap) : Prop where
  placed : alloc.Placed heap.regionStart
  free : Disjoint (alloc.blocks heap.regionStart) heap.bitmap.bits
  bits : heap'.bitmap.bits = heap.bitmap.bits ∪ alloc.blocks heap.regionStart
  regionStart : heap'.regionStart = heap.regionStart
  memory : heap'.memory =
    (skhControlOf alloc.size alloc.padding).store heap.memory (alloc.ptr - skhControlSize)

/-- Marking the free blocks that a search has found and writing the control structure
grants the request. -/
theorem SkhGrant.of_marked {heap marked : SkHeap} {size : Int} {blockId : Nat} {aligned : Bool}
    (positive : 0 < size) (int32 : size < 2 ^ 31)
    (whole : asU32 (skhExtSize size) % skheapBlockSize = 0)
    (free : Disjoint (Ico blockId (blockId + asU32 (skhExtSize size) / skheapBlockSize))
      heap.bitmap.bits)
    (inside : blockId + asU32 (skhExtSize size) / skheapBlockSize ≤ 8 * skheapBitmapElements)
    (result : skheapMarkRegion heap (heap.regionStart + blockId * skheapBlockSize)
      (asU32 (skhExtSize size)) true = .ok marked)
    {ptr : Nat} {memory : ByteMem}
    (place : ptr = heap.regionStart + blockId * skheapBlockSize +
      SkhAllocation.padding ⟨ptr, size, aligned⟩ + skhControlSize)
    (stored : memory = (skhControlOf size (SkhAllocation.padding ⟨ptr, size, aligned⟩)).store
      marked.memory (ptr - skhControlSize)) :
    SkhGrant heap ⟨ptr, size, aligned⟩ { marked with memory } := by
  -- a larger request would need more blocks than there are
  have moderate : size < 2 ^ 30 := by
    by_contra excessive
    have := skhExtSize_excessive (by omega) int32
    simp only [skheapBitmapElements, skheapBlockCount, skheapSize, skheapBlockSize] at inside
    omega
  have blocksPositive := skhExtSize_blocks positive int32
  have extSize : asU32 (skhExtSize size) =
      asU32 (skhExtSize size) / skheapBlockSize * skheapBlockSize :=
    (Nat.div_mul_cancel (Nat.dvd_of_mod_eq_zero whole)).symm
  have startBlock : SkhAllocation.blockId heap.regionStart ⟨ptr, size, aligned⟩ = blockId := by
    rw [SkhAllocation.blockId, SkhAllocation.start,
      show ptr - skhControlSize - SkhAllocation.padding ⟨ptr, size, aligned⟩ - heap.regionStart =
        blockId * skheapBlockSize by omega]
    exact Nat.mul_div_cancel _ (by decide)
  rw [extSize, skheapMarkRegion_blocks
    (by simp only [skheapBitmapElements, skheapBlockCount, skheapSize, skheapBlockSize] at inside
        omega) blocksPositive] at result
  split at result
  · simp at result
  · rename_i below
    obtain ⟨bitmap, marking, bits⟩ := skheapMarkLoop_inUse free
    rw [marking] at result
    obtain rfl : { heap with bitmap } = marked := by simpa [Except.map] using result
    have sameBlocks : SkhAllocation.blocks heap.regionStart ⟨ptr, size, aligned⟩ =
        Ico blockId (blockId + asU32 (skhExtSize size) / skheapBlockSize) := by
      rw [SkhAllocation.blocks, startBlock]; rfl
    exact
      { placed :=
          { positive, moderate
            place := by rw [startBlock]; exact place
            inside := by rw [startBlock]; exact Nat.lt_of_not_le below }
        free := by rw [sameBlocks]; exact free
        bits := by rw [sameBlocks]; exact bits
        regionStart := rfl
        memory := stored }

/-- A region that the plain search returns is free, if it has a block at all. -/
theorem skheapFindFreeRegion_spec {heap : SkHeap} {size p : Nat}
    (positive : 0 < size / skheapBlockSize)
    (found : skheapFindFreeRegion heap size = .ok (some p)) :
    ∃ blockId, p = heap.regionStart + blockId * skheapBlockSize ∧ size % skheapBlockSize = 0 ∧
      Disjoint (Ico blockId (blockId + size / skheapBlockSize)) heap.bitmap.bits ∧
      blockId + size / skheapBlockSize ≤ 8 * skheapBitmapElements := by
  unfold skheapFindFreeRegion at found
  split at found
  · contradiction
  · rename_i whole
    obtain ⟨blockId, searched, rfl⟩ := Option.map_eq_some_iff.mp (Except.ok.inj found)
    obtain ⟨⟨-, free, inside⟩, -⟩ := (skheapFindLoop_found positive).mp searched
    exact ⟨blockId, rfl, not_not.mp whole, free, inside⟩

/-- So is one that the aligned search returns. -/
theorem skheapFindFreeRegionAligned_spec {heap : SkHeap} {size p : Nat}
    (positive : 0 < size / skheapBlockSize)
    (found : skheapFindFreeRegionAligned heap size = .ok (some p)) :
    ∃ blockId, p = heap.regionStart + blockId * skheapBlockSize ∧ size % skheapBlockSize = 0 ∧
      Disjoint (Ico blockId (blockId + size / skheapBlockSize)) heap.bitmap.bits ∧
      blockId + size / skheapBlockSize ≤ 8 * skheapBitmapElements := by
  unfold skheapFindFreeRegionAligned at found
  split at found
  · contradiction
  · rename_i whole
    obtain ⟨blockId, searched, rfl⟩ := Option.map_eq_some_iff.mp (Except.ok.inj found)
    obtain ⟨⟨-, free, inside⟩, -⟩ := (skheapFindAlignedLoop_found positive).mp searched
    exact ⟨blockId, rfl, not_not.mp whole, free, inside⟩

/-- What both allocators do after their search: nothing, or mark the region and write to its
memory. -/
theorem skhRequest_cases {heap : SkHeap} {search : Except Halt (Option Nat)} {extSize : Nat}
    {answer : Option Nat × SkHeap} (place : Nat → Nat) (write : Nat → ByteMem → ByteMem)
    (returned : (search >>= fun found => match found with
      | none => .ok (none, heap)
      | some p => skheapMarkRegion heap p extSize true >>= fun marked =>
        .ok (some (place p), { marked with memory := write p marked.memory })) = .ok answer) :
    answer = (none, heap) ∨
      ∃ p marked, search = .ok (some p) ∧ skheapMarkRegion heap p extSize true = .ok marked ∧
        answer = (some (place p), { marked with memory := write p marked.memory }) := by
  obtain ⟨found, searched, rest⟩ := exists_of_bind returned
  cases found with
  | none => exact .inl (Except.ok.inj rest).symm
  | some p =>
    obtain ⟨marked, marking, written⟩ := exists_of_bind rest
    exact .inr ⟨p, marked, searched, marking, (Except.ok.inj written).symm⟩

theorem skheapMalloc_grant {heap heap' : SkHeap} {size : Int} {ptr : Nat} (int32 : size < 2 ^ 31)
    (result : skheapMalloc heap size = .ok (some ptr, heap')) :
    SkhGrant heap ⟨ptr, size, false⟩ heap' := by
  unfold skheapMalloc at result
  split at result
  · simp at result
  · rename_i positive
    cases skhRequest_cases (· + skhControlSize)
        (fun p memory => (skhControlOf size 0).store memory p) result with
    | inl refused => simp at refused
    | inr granted =>
      obtain ⟨p, marked, found, marking, answer⟩ := granted
      have blocksPositive := skhExtSize_blocks (by omega : 0 < size) int32
      obtain ⟨blockId, rfl, whole, free, inside⟩ := skheapFindFreeRegion_spec blocksPositive found
      obtain ⟨rfl, rfl⟩ : ptr = _ ∧ heap' = _ := by simpa using answer
      exact .of_marked (by omega) int32 whole free inside marking rfl rfl

theorem skheapMallocA_grant {heap heap' : SkHeap} {size : Int} {ptr : Nat} (int32 : size < 2 ^ 31)
    (result : skheapMallocA heap size = .ok (some ptr, heap')) :
    SkhGrant heap ⟨ptr, size, true⟩ heap' := by
  unfold skheapMallocA at result
  split at result
  · simp at result
  · rename_i positive
    cases skhRequest_cases (· + skheapBlockSize) (fun p memory =>
        (skhControlOf size (skheapBlockSize - skhControlSize)).store memory
          (p + (skheapBlockSize - skhControlSize))) result with
    | inl refused => simp at refused
    | inr granted =>
      obtain ⟨p, marked, found, marking, answer⟩ := granted
      have blocksPositive := skhExtSize_blocks (by omega : 0 < size) int32
      obtain ⟨blockId, rfl, whole, free, inside⟩ :=
        skheapFindFreeRegionAligned_spec blocksPositive found
      obtain ⟨rfl, rfl⟩ : ptr = _ ∧ heap' = _ := by simpa using answer
      exact .of_marked (by omega) int32 whole free inside marking rfl rfl

/-- A refused request changes nothing. -/
theorem skheapMalloc_null {heap heap' : SkHeap} {size : Int}
    (result : skheapMalloc heap size = .ok (none, heap')) : heap' = heap := by
  unfold skheapMalloc at result
  split at result
  · simpa using result.symm
  · cases skhRequest_cases (· + skhControlSize)
        (fun p memory => (skhControlOf size 0).store memory p) result with
    | inl refused => simpa using refused
    | inr granted =>
      obtain ⟨p, marked, -, -, answer⟩ := granted
      simp at answer

theorem skheapMallocA_null {heap heap' : SkHeap} {size : Int}
    (result : skheapMallocA heap size = .ok (none, heap')) : heap' = heap := by
  unfold skheapMallocA at result
  split at result
  · simpa using result.symm
  · cases skhRequest_cases (· + skheapBlockSize) (fun p memory =>
        (skhControlOf size (skheapBlockSize - skhControlSize)).store memory
          (p + (skheapBlockSize - skhControlSize))) result with
    | inl refused => simpa using refused
    | inr granted =>
      obtain ⟨p, marked, -, -, answer⟩ := granted
      simp at answer

/-! ## Freeing -/

/-- The control structure still holds what the allocator wrote. -/
def SkHeap.Intact (heap : SkHeap) (alloc : SkhAllocation) : Prop :=
  SkhControlStruct.load heap.memory (alloc.ptr - skhControlSize) =
    skhControlOf alloc.size alloc.padding

theorem SkhGrant.intact {heap heap' : SkHeap} {alloc : SkhAllocation}
    (grant : SkhGrant heap alloc heap') : heap'.Intact alloc := by
  rw [SkHeap.Intact, grant.memory]
  have := alloc.padding_le
  exact SkhControlStruct.load_store _
    (by simp only [skhControlSize, skheapBlockSize] at this; omega) _ _

/-- Control structures lie in the first block, so a grant leaves those of allocations with
other blocks alone. -/
theorem SkhGrant.intact_of_apart {heap heap' : SkHeap} {alloc other : SkhAllocation}
    (grant : SkhGrant heap alloc heap') (otherPlaced : other.Placed heap.regionStart)
    (apart : Disjoint (alloc.blocks heap.regionStart) (other.blocks heap.regionStart))
    (intact : heap.Intact other) : heap'.Intact other := by
  have allocPlace := grant.placed.place
  have otherPlace := otherPlaced.place
  have allocPadding := alloc.padding_le
  have otherPadding := other.padding_le
  have allocBlocks := grant.placed.numBlocks_pos
  have otherBlocks := otherPlaced.numBlocks_pos
  -- so the two control structures are in different blocks
  have differ : alloc.blockId heap.regionStart ≠ other.blockId heap.regionStart := by
    intro same
    have shared : alloc.blockId heap.regionStart ∈ other.blocks heap.regionStart :=
      ⟨same.ge, by omega⟩
    exact disjoint_left.mp apart ⟨le_rfl, by omega⟩ shared
  rw [SkHeap.Intact, grant.memory, ← intact]
  refine SkhControlStruct.load_congr fun b inside => SkhControlStruct.store_eqOn _ _ _ ?_
  simp only [mem_compl_iff, mem_Ico, skhControlSize, skheapBlockSize] at *
  omega

theorem asU32_add (x y : Int) : u32 (asU32 x + asU32 y) = asU32 (x + y) := by
  simp only [u32, asU32]
  omega

/-- Freeing a pointer whose control structure is intact finds the start again and frees
exactly the allocation's blocks. -/
theorem skheapFree_live {heap : SkHeap} {alloc : SkhAllocation}
    (placed : alloc.Placed heap.regionStart) (intact : heap.Intact alloc)
    (marked : alloc.blocks heap.regionStart ⊆ heap.bitmap.bits) :
    ∃ bitmap, skheapFree heap (some alloc.ptr) = .ok { heap with bitmap } ∧
      bitmap.bits = heap.bitmap.bits \ alloc.blocks heap.regionStart := by
  obtain ⟨bitmap, clearing, bits⟩ := skheapMarkLoop_free marked
  refine ⟨bitmap, ?_, bits⟩
  have fits := heap.fits
  have place := placed.place
  have inside := placed.inside
  have padding := alloc.padding_le
  have numBlocks := placed.numBlocks_pos
  have cs : u32 (alloc.ptr + (2 ^ 32 - skhControlSize)) = alloc.ptr - skhControlSize := by
    simp only [u32, skhControlSize, skheapBlockSize, skheapBlockCount, skheapSize] at *
    omega
  have start : u32 (alloc.ptr - skhControlSize + (2 ^ 32 - alloc.padding)) =
      heap.regionStart + alloc.blockId heap.regionStart * skheapBlockSize := by
    simp only [u32, skhControlSize, skheapBlockSize, skheapBlockCount, skheapSize] at *
    omega
  have range :
      ¬(alloc.ptr < heap.regionStart ∨ u32 (heap.regionStart + skheapSize) ≤ alloc.ptr) := by
    rw [u32_of_lt fits]
    simp only [skhControlSize, skheapBlockSize, skheapBlockCount, skheapSize] at *
    omega
  have control : SkhControlStruct.load heap.memory (alloc.ptr - skhControlSize) =
      skhControlOf alloc.size alloc.padding := intact
  -- the checksum is taken twice and cancels
  have crc : asU32 (alloc.size + skhExtSize alloc.size) ^^^ 0xFFFFFFFF ^^^ 0xFFFFFFFF =
      u32 (asU32 alloc.size + asU32 (skhExtSize alloc.size)) := by
    rw [Nat.xor_assoc, Nat.xor_self, Nat.xor_zero, asU32_add]
  have extSize : asU32 (skhExtSize alloc.size) = alloc.numBlocks * skheapBlockSize :=
    placed.extSize_eq
  simp only [skheapFree, if_neg range, cs, control, skhControlOf, crc, ne_eq, not_true, if_false,
    start]
  rw [extSize, skheapMarkRegion_blocks
    (by simp only [skheapBlockCount, skheapSize, skheapBlockSize] at inside; omega) numBlocks,
    if_neg (by omega), clearing]
  rfl

end Antonix
