import Antonix.Lib.Bitmap
import Antonix.Lib.ByteMem
import Antonix.Types

/-! # The static kernel heap (`mm_skheap.c`)

A pool of 1 MB inside the kernel image, handed out in blocks of 256 bytes.
`skheap_block_bitmap` has one bit for each block, in 8-bit elements, and every
allocation carries a control structure in front of its payload.  The debug
checks are part of the code, as `types.h` defines `debug`.

The plain and the aligned allocator share the bitmap, the marking routine and
`skheap_free`; they differ in the search and in where the control structure
lies. -/

namespace Antonix

/-- `SKHEAP_SIZE` -/
abbrev skheapSize : Nat := 0x100000

/-- `SKHEAP_BLOCK_SIZE` -/
abbrev skheapBlockSize : Nat := 0x100

/-- `SKHEAP_BLOCK_COUNT` -/
abbrev skheapBlockCount : Nat := skheapSize / skheapBlockSize

/-- `SKHEAP_BITMAP_ELEMENTS` -/
abbrev skheapBitmapElements : Nat := skheapBlockCount / 8

/-- `SKH_CONTROL_STRUCT`, in the order of its words in memory. -/
structure SkhControlStruct where
  size : Nat
  extSize : Nat
  padding : Nat
  crcSize : Nat
  deriving DecidableEq, Repr

/-- `sizeof(SKH_CONTROL_STRUCT)` -/
abbrev skhControlSize : Nat := 16

def SkhControlStruct.load (memory : ByteMem) (cs : Nat) : SkhControlStruct where
  size := memory.load32 cs
  extSize := memory.load32 (cs + 4)
  padding := memory.load32 (cs + 8)
  crcSize := memory.load32 (cs + 12)

def SkhControlStruct.store (control : SkhControlStruct) (memory : ByteMem) (cs : Nat) : ByteMem :=
  (((memory.store32 cs control.size).store32 (cs + 4) control.extSize).store32
    (cs + 12) control.crcSize).store32 (cs + 8) control.padding

/-- Where the linker put the array `skheap_region`.  It is declared 4 KB aligned, and it
and a page of slack fit in the address space. -/
structure SkheapRegion where
  addr : Nat
  aligned : addr % 0x1000 = 0
  fits : addr + 0x1000 + skheapSize < 2 ^ 32

/-- The variables of the allocator, `skheap_region_start` and `skheap_block_bitmap`, and
the memory they manage. -/
structure SkHeap where
  regionStart : Nat
  bitmap : Bitmap 8
  memory : ByteMem
  fits : regionStart + skheapSize < 2 ^ 32

/-! ## Searching -/

/-- The loop of `skheap_find_free_region` from element `i`; the value is `start_bl_id`. -/
def skheapFindLoop (bitmap : Bitmap 8) (blocks : Nat) : Nat → Nat → Nat → Nat → Option Nat
  | 0, _, _, _ => none
  | remaining + 1, i, blCntr, startBlId =>
    if 8 < blCntr then
      if bitmap i ≠ 0#8 then
        skheapFindLoop bitmap blocks remaining (i + 1) blocks ((i + 1) * 8)
      else skheapFindLoop bitmap blocks remaining (i + 1) (blCntr - 8) startBlId
    else if bitmap i &&& Bitmap.lowMask 8 blCntr ≠ 0#8 then
      skheapFindLoop bitmap blocks remaining (i + 1) blocks ((i + 1) * 8)
    else some startBlId

/-- The loop of `skheap_find_free_region_aligned`.  `bl_cntr == blocks` says that no start
has been chosen yet; a start is the last block before a 4 KB boundary, so only an even
element can follow it. -/
def skheapFindAlignedLoop (bitmap : Bitmap 8) (blocks : Nat) :
    Nat → Nat → Nat → Nat → Option Nat
  | 0, _, _, _ => none
  | remaining + 1, i, blCntr, startBlId =>
    if blCntr = blocks ∧ i % 2 ≠ 0 then
      skheapFindAlignedLoop bitmap blocks remaining (i + 1) blCntr startBlId
    else if blCntr = blocks ∧ bitmap (i - 1) &&& 0x80#8 ≠ 0#8 then
      skheapFindAlignedLoop bitmap blocks remaining (i + 1) blCntr startBlId
    else
      let startBlId := if blCntr = blocks then i * 8 - 1 else startBlId
      let blCntr := if blCntr = blocks then blCntr - 1 else blCntr
      if 8 < blCntr then
        if bitmap i ≠ 0#8 then
          skheapFindAlignedLoop bitmap blocks remaining (i + 1) blocks startBlId
        else skheapFindAlignedLoop bitmap blocks remaining (i + 1) (blCntr - 8) startBlId
      else if bitmap i &&& Bitmap.lowMask 8 blCntr ≠ 0#8 then
        skheapFindAlignedLoop bitmap blocks remaining (i + 1) blocks startBlId
      else some startBlId

/-- `skheap_find_free_region`: the address found, or none. -/
def skheapFindFreeRegion (heap : SkHeap) (size : Nat) : Except Halt (Option Nat) :=
  if size % skheapBlockSize ≠ 0 then
    .error (.panic "Invalid region size, it must be multiple of block size.")
  else
    let blocks := size / skheapBlockSize
    .ok ((skheapFindLoop heap.bitmap blocks skheapBitmapElements 0 blocks 0).map
      fun startBlId => heap.regionStart + startBlId * skheapBlockSize)

/-- `skheap_find_free_region_aligned` -/
def skheapFindFreeRegionAligned (heap : SkHeap) (size : Nat) : Except Halt (Option Nat) :=
  if size % skheapBlockSize ≠ 0 then
    .error (.panic "Invalid region size, it must be multiple of block size.")
  else
    let blocks := size / skheapBlockSize
    .ok ((skheapFindAlignedLoop heap.bitmap blocks (skheapBitmapElements - 2) 2 blocks 0).map
      fun startBlId => heap.regionStart + startBlId * skheapBlockSize)

/-! ## Marking -/

/-- The loop of `skheap_mark_region`. -/
def skheapMarkLoop (inUse : Bool) : Nat → Nat → Bitmap 8 → Except Halt (Bitmap 8)
  | 0, _, bitmap => .ok bitmap
  | numBlocks + 1, blockId, bitmap =>
    let marked := bitmap (blockId / 8) &&& (1#8 <<< (blockId % 8))
    if inUse then
      if marked ≠ 0#8 then
        .error (.panic "Error: marking a block, already marked the same state (in use).")
      else skheapMarkLoop inUse numBlocks (blockId + 1) (bitmap.setBit blockId)
    else if marked = 0#8 then
      .error (.panic "Error: marking a block, already marked the same state (free).")
    else skheapMarkLoop inUse numBlocks (blockId + 1) (bitmap.clearBit blockId)

/-- `skheap_mark_region` -/
def skheapMarkRegion (heap : SkHeap) (start len : Nat) (inUse : Bool) : Except Halt SkHeap :=
  let offsAddress := u32 (start + (2 ^ 32 - heap.regionStart))
  let blockId := offsAddress / skheapBlockSize
  let numBlocks := len / skheapBlockSize
  if offsAddress % skheapBlockSize ≠ 0 then
    .error (.panic "Trying to mark region which doesn't start on block boundary.")
  else if len % skheapBlockSize ≠ 0 then
    .error (.panic "Trying to mark region which doesn't span across block boundary.")
  else if skheapBlockCount ≤ blockId + numBlocks then
    .error (.panic "Trying to mark region outside of static kernel heap region.")
  else if numBlocks = 0 then
    .error (.panic "Memory region size is zero or below SKHEAP_BLOCK_SIZE.")
  else do
    let bitmap ← skheapMarkLoop inUse numBlocks blockId heap.bitmap
    .ok { heap with bitmap }

/-! ## Allocating and freeing -/

/-- `ext_size` of a request, an `int32_t` as the code computes it: room for the control
structure, then up to the next block boundary (a whole block when already on one). -/
def skhExtSize (size : Int) : Int :=
  let extSize := i32 (size + skhControlSize)
  i32 (extSize + (skheapBlockSize - extSize.tmod skheapBlockSize))

/-- The control structure of a request whose payload is `padding` bytes further in than a
plain one's. -/
def skhControlOf (size : Int) (padding : Nat) : SkhControlStruct where
  size := asU32 size
  extSize := asU32 (skhExtSize size)
  padding := padding
  crcSize := asU32 (size + skhExtSize size) ^^^ 0xFFFFFFFF

/-- `skheap_malloc`; `none` is `NULL`. -/
def skheapMalloc (heap : SkHeap) (size : Int) : Except Halt (Option Nat × SkHeap) :=
  if size ≤ 0 then .ok (none, heap)
  else do
    let extSize := asU32 (skhExtSize size)
    match ← skheapFindFreeRegion heap extSize with
    | none => .ok (none, heap)
    | some p =>
      let marked ← skheapMarkRegion heap p extSize true
      let cs := p
      .ok (some (p + skhControlSize),
        { marked with memory := (skhControlOf size 0).store marked.memory cs })

/-- `skheap_malloc_a`: the payload is the 4 KB-aligned block after the first block. -/
def skheapMallocA (heap : SkHeap) (size : Int) : Except Halt (Option Nat × SkHeap) :=
  if size ≤ 0 then .ok (none, heap)
  else do
    let extSize := asU32 (skhExtSize size)
    match ← skheapFindFreeRegionAligned heap extSize with
    | none => .ok (none, heap)
    | some p =>
      let marked ← skheapMarkRegion heap p extSize true
      let cs := p + (skheapBlockSize - skhControlSize)
      let control := skhControlOf size (skheapBlockSize - skhControlSize)
      .ok (some (p + skheapBlockSize), { marked with memory := control.store marked.memory cs })

/-- `skheap_free` -/
def skheapFree (heap : SkHeap) (ptr : Option Nat) : Except Halt SkHeap :=
  match ptr with
  | none => .error (.panic "SKHEAP: Trying to free null pointer.")
  | some ptr =>
    if ptr < heap.regionStart ∨ u32 (heap.regionStart + skheapSize) ≤ ptr then
      .error (.panic "SKHEAP: Freeing a memory outside the static kernel heap pool.")
    else
      let cs := u32 (ptr + (2 ^ 32 - skhControlSize))
      let control := SkhControlStruct.load heap.memory cs
      if control.crcSize ^^^ 0xFFFFFFFF ≠ u32 (control.size + control.extSize) then
        .error (.panic "Freeing invalid memory block. CRC value doesn't comply.")
      else
        let p := u32 (cs + (2 ^ 32 - control.padding))
        skheapMarkRegion heap p control.extSize false

/-- `skheap_init`.  Blocks at the end are reserved when the array is not aligned. -/
def skheapInit (region : SkheapRegion) (memory : ByteMem) : Except Halt SkHeap :=
  have fits := region.fits
  let padding := 4096 - region.addr % 4096
  if 0 < padding ∧ padding ≠ 4096 then
    let start := region.addr + padding
    let reserveSize := padding + (skheapBlockSize - padding % skheapBlockSize)
    let reserveAddr := start + skheapSize - reserveSize
    let reserveAddr := reserveAddr - (skheapBlockSize - reserveAddr % skheapBlockSize)
    skheapMarkRegion ⟨start, fun _ => 0#8, memory, by omega⟩ reserveAddr reserveSize true
  else .ok ⟨region.addr, fun _ => 0#8, memory, by omega⟩

end Antonix
