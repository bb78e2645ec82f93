import Antonix.Drivers.SectorCalls

/-! # Files of the ISO 9660 driver (`iso9660.c`)

A file is one extent of sectors that follow each other. -/

namespace Antonix.Drivers

open Buffer

/-- `ISO9660_SECTOR_SIZE` -/
abbrev iso9660SectorSize : Nat := 2048

/-- `ISO9660_DRV_CONTEXT`, what reading a file uses: `storage_read_blocks` on its storage. -/
structure Iso9660DrvContext where
  storageDrv : Nat → Nat → Except HResult (List (BitVec 8))

/-- `ISO9660_DIR_ENTRY`, what reading a file uses. -/
structure Iso9660DirEntry where
  extentStart : Nat
  extentSize : Nat

/-- `iso9660_file_read_block` -/
def iso9660FileReadBlock (ctx : Iso9660DrvContext) (entry : Iso9660DirEntry) (start count : Nat) :
    Except Halt (HResult × List (BitVec 8)) :=
  if start % iso9660SectorSize ≠ 0 ∨ count % iso9660SectorSize ≠ 0 then .ok (.eInvalidArg, [])
  else
    match ctx.storageDrv (u32 (entry.extentStart + start / iso9660SectorSize))
      (count / iso9660SectorSize) with
    | .error hr => .ok (hr, [])
    | .ok content => .ok (.sOk, content)

/-- A file of the volume. -/
def iso9660File (ctx : Iso9660DrvContext) (entry : Iso9660DirEntry) : SectorFile where
  blockSize := iso9660SectorSize
  size := entry.extentSize
  readContent := iso9660FileReadBlock ctx entry

/-- `iso9660_file_read_buffer` -/
def iso9660FileReadBuffer (ctx : Iso9660DrvContext) (entry : Iso9660DirEntry) :=
  readSubblock (iso9660File ctx entry)

/-- `iso9660_file_read` -/
def iso9660FileRead (ctx : Iso9660DrvContext) (entry : Iso9660DirEntry) :=
  fileRead (iso9660File ctx entry)

/-- `iso9660_file_seek` -/
def iso9660FileSeek (ctx : Iso9660DrvContext) (entry : Iso9660DirEntry) :=
  fileSeek (iso9660File ctx entry)

/-- The content of a file on a volume with this image. -/
def isoContent (entry : Iso9660DirEntry) (image : Block) : Block := fun i =>
  image (entry.extentStart * iso9660SectorSize + i)

/-- A volume whose storage holds the image, and a file whose extent has sector numbers. -/
structure IsoWellFormed (ctx : Iso9660DrvContext) (entry : Iso9660DirEntry) (image : Block) :
    Prop where
  storage : ∀ start count, start + count ≤ 2 ^ 32 → ctx.storageDrv start count =
    .ok (readAt image (start * iso9660SectorSize) (count * iso9660SectorSize))
  extent : entry.extentStart + (entry.extentSize + (iso9660SectorSize - 1)) / iso9660SectorSize <
    2 ^ 32

section

variable {ctx : Iso9660DrvContext} {entry : Iso9660DirEntry} {image : Block} {k s : Nat}

theorem iso9660FileReadBlock_eq (formed : IsoWellFormed ctx entry image)
    (inside : s * 2048 + k * 2048 < entry.extentSize + 2048) :
    iso9660FileReadBlock ctx entry (s * 2048) (k * 2048) =
      .ok (.sOk, readAt (isoContent entry image) (s * 2048) (k * 2048)) := by
  have aligned : ¬ (s * 2048 % 2048 ≠ 0 ∨ k * 2048 % 2048 ≠ 0) := by omega
  have extent : entry.extentStart + (entry.extentSize + 2047) / 2048 < 2 ^ 32 := formed.extent
  -- the sectors of the extent have 32-bit numbers
  have sector : u32 (entry.extentStart + s * 2048 / 2048) = entry.extentStart + s := by
    rw [Nat.mul_div_cancel _ (by decide)]
    exact u32_of_lt (by omega)
  have read := formed.storage (entry.extentStart + s) k (by omega)
  have same : readAt image ((entry.extentStart + s) * 2048) (k * 2048) =
      readAt (isoContent entry image) (s * 2048) (k * 2048) := by
    apply readAt_congr
    intro i _
    rw [isoContent, Nat.add_mul, Nat.add_assoc]
  rw [iso9660FileReadBlock, if_neg aligned, sector, Nat.mul_div_cancel _ (by decide)]
  simp only [read, same]

/-- The driver's function reads the extent. -/
theorem iso9660_reads (formed : IsoWellFormed ctx entry image)
    (sizeSmall : entry.extentSize < 2 ^ 31) :
    ReadsContent (iso9660File ctx entry) (isoContent entry image) fun _ _ => True := by
  constructor
  case blockPos => exact Nat.zero_lt_succ _
  case blockSmall =>
    show 2048 < 2 ^ 16
    omega
  case sizeSmall => exact sizeSmall
  case whole =>
    intro start count startAligned countAligned inside _
    obtain ⟨s, rfl⟩ : ∃ s, start = s * 2048 := exists_eq_mul_left_of_dvd startAligned
    obtain ⟨k, rfl⟩ : ∃ k, count = k * 2048 := exists_eq_mul_left_of_dvd countAligned
    exact iso9660FileReadBlock_eq formed inside
  case broken =>
    intro start count _ _ _ broken
    exact absurd trivial broken
  case single =>
    intro start _ _
    trivial

end

end Antonix.Drivers
