import Antonix.Lib.Bitmap
import Antonix.Types

/-! # The physical memory manager (`mm_phys.c`)

`kpmm_memory_bitmap` has one bit for each 4096-byte block of physical memory,
in 32-bit elements.  `types.h` defines `debug`, so the debug checks of the
marking loops are part of the code.

A block count is a positive `int32_t` in every caller, so it is a `Nat` here;
addresses are 32-bit values. -/

namespace Antonix

/-- `MEMORY_BITMAP_LENGTH` -/
def memoryBitmapLength : Nat := 128 * 1024

/-- The loop of `kpmm_mark_blocks`.  Every pass marks one block or a whole element,
so `numBlocks` passes are enough. -/
def kpmmMarkLoop : Nat → Nat → Nat → Bitmap 32 → HResult × Bitmap 32
  | 0, _, _, bitmap => (.sOk, bitmap)
  | _ + 1, 0, _, bitmap => (.sOk, bitmap)
  | fuel + 1, numBlocks + 1, blockId, bitmap =>
    if 32 ≤ numBlocks + 1 ∧ blockId % 32 = 0 then
      if bitmap (blockId / 32) ≠ 0#32 then (.eFail, bitmap)
      else kpmmMarkLoop fuel (numBlocks - 31) (blockId + 32) (bitmap.fillElement (blockId / 32))
    else if bitmap (blockId / 32) &&& (1#32 <<< (blockId % 32)) ≠ 0#32 then (.eFail, bitmap)
    else kpmmMarkLoop fuel numBlocks (blockId + 1) (bitmap.setBit blockId)

/-- `kpmm_mark_blocks` -/
def kpmmMarkBlocks (bitmap : Bitmap 32) (addr numBlocks : Nat) : HResult × Bitmap 32 :=
  kpmmMarkLoop numBlocks numBlocks (addr / pageSize) bitmap

/-- The loop of `kpmm_unmark_blocks`.  The debug check reads `(!(*e >> n)) & 1`: it fails
only when no bit at or above the block's is set in the element. -/
def kpmmUnmarkLoop : Nat → Nat → Bitmap 32 → HResult × Bitmap 32
  | 0, _, bitmap => (.sOk, bitmap)
  | numBlocks + 1, blockId, bitmap =>
    if bitmap (blockId / 32) >>> (blockId % 32) = 0#32 then (.eFail, bitmap)
    else kpmmUnmarkLoop numBlocks (blockId + 1) (bitmap.clearBit blockId)

/-- `kpmm_unmark_blocks` -/
def kpmmUnmarkBlocks (bitmap : Bitmap 32) (addr numBlocks : Nat) : HResult × Bitmap 32 :=
  kpmmUnmarkLoop numBlocks (addr / pageSize) bitmap

/-- The loop of `kpmm_find_free_region` from element `i`, with `remaining` elements to go.
The value is `i_start` where the loop leaves to `found`. -/
def kpmmFindLoop (bitmap : Bitmap 32) (numBlocks : Nat) : Nat → Nat → Nat → Nat → Option Nat
  | 0, _, _, _ => none
  | remaining + 1, i, icnt, iStart =>
    if 32 ≤ icnt then
      -- more than 32 blocks are needed yet: the whole element has to be free
      if bitmap i ≠ 0#32 then kpmmFindLoop bitmap numBlocks remaining (i + 1) numBlocks (i + 1)
      else kpmmFindLoop bitmap numBlocks remaining (i + 1) (icnt - 32) iStart
    else if bitmap i &&& Bitmap.lowMask 32 icnt ≠ 0#32 then
      kpmmFindLoop bitmap numBlocks remaining (i + 1) numBlocks (i + 1)
    else some iStart

/-- `kpmm_find_free_region`: the address of the region, computed in 32 bits, or an error. -/
def kpmmFindFreeRegion (bitmap : Bitmap 32) (numBlocks : Nat) : Except HResult Nat :=
  match kpmmFindLoop bitmap numBlocks memoryBitmapLength 0 numBlocks 0 with
  | some iStart => .ok (u32 (iStart * 32 * pageSize))
  | none => .error .eFail

/-- `kpmm_alloc`: the outcome and the bitmap it leaves.  A failed marking leaves the
blocks it had already marked. -/
def kpmmAlloc (bitmap : Bitmap 32) (numBlocks : Nat) : Except HResult Nat × Bitmap 32 :=
  match kpmmFindFreeRegion bitmap numBlocks with
  | .error hr => (.error hr, bitmap)
  | .ok area =>
    match kpmmMarkBlocks bitmap area numBlocks with
    | (.sOk, marked) => (.ok area, marked)
    | (hr, marked) => (.error hr, marked)

/-- `kpmm_init`: clear the bitmap, reserve the first megabyte and the 4 MB of the kernel
image.  Its status is always `S_OK`; those of the two markings are not looked at. -/
def kpmmInit : Bitmap 32 :=
  let cleared : Bitmap 32 := fun _ => 0#32
  let low := (kpmmMarkBlocks cleared 0x000000 (0x100000 / pageSize)).2
  (kpmmMarkBlocks low 0x00100000 (4 * 1024 * 1024 / pageSize)).2

end Antonix
