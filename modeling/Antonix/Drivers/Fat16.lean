import Antonix.Lib.ByteMem
import Antonix.Drivers.SectorCalls

/-! # Files of the FAT driver (`fat16.c`)

The clusters of a file are a chain in the table.  `fat16_read_file_content` takes the
number of clusters to visit from the number of sectors to read alone: it is too small
where the first sector to read is not the first of its cluster and the sectors reach
one cluster further than they would otherwise. -/

namespace Antonix.Drivers

open Buffer ByteMem

/-- `FS_TYPE_*` -/
inductive FsType where
  | fat12
  | fat16
  | fat32
  | exfat
  deriving DecidableEq, Repr

/-- `FAT16_DRV_CONTEXT`, what reading a file uses.  `storageDrv` is `storage_read_blocks` on it. -/
structure Fat16DrvContext where
  bytesPerSector : Nat
  sectorsPerCluster : Nat
  fsType : FsType
  fatCache : ByteMem
  firstDataSector : Nat
  storageDrv : Nat → Nat → Except HResult (List (BitVec 8))

/-- `FAT16_DIR_ENTRY`, what reading a file uses. -/
structure Fat16DirEntry where
  firstClustHigh : Nat
  firstClustLow : Nat
  size : Nat

/-- `fat_is_end_of_chain` -/
def fatIsEndOfChain (ctx : Fat16DrvContext) (clusterId : Nat) : Except Halt Bool :=
  match ctx.fsType with
  | .fat12 => .ok (decide (clusterId ≥ 0xFF7))
  | .fat16 => .ok (decide (clusterId ≥ 0xFFF7))
  | .fat32 => .ok (decide (clusterId &&& 0x0FFFFFFF ≥ 0x0FFFFFF7))
  | .exfat => .error (.panic "fat_is_end_of_chain(): Unhandled FS type.")

/-- `fat16_fat_lookup` -/
def fat16FatLookup (ctx : Fat16DrvContext) (fatIndex : Nat) :
    Except Halt (Except HResult Nat) := do
  if ← fatIsEndOfChain ctx fatIndex then .ok (.error .eInvalidArg)
  else
    match ctx.fsType with
    | .fat12 =>
      let result := ctx.fatCache.load16 (u32 (fatIndex + fatIndex / 2))
      .ok (.ok (if fatIndex &&& 1 ≠ 0 then result >>> 4 else result &&& 0x0FFF))
    | .fat16 => .ok (.ok (ctx.fatCache.load16 (u32 (fatIndex * 2))))
    | .fat32 => .ok (.ok (ctx.fatCache.load32 (u32 (fatIndex * 4))))
    | .exfat => .error (.panic "fat16_lookup(): Unhandled FS type.")

/-- `fat_get_first_cluster` -/
def fatGetFirstCluster (ctx : Fat16DrvContext) (entry : Fat16DirEntry) : Except Halt Nat :=
  match ctx.fsType with
  | .fat12 => .ok entry.firstClustLow
  | .fat16 => .ok entry.firstClustLow
  | .fat32 => .ok (u32 (entry.firstClustHigh <<< 16) ||| entry.firstClustLow)
  | .exfat => .error (.panic "fat_get_entry_start_cluster(): unsupported fs.")

/-- The first sector of a cluster. -/
def clusterSector (ctx : Fat16DrvContext) (clusterId : Nat) : Nat :=
  u32 (ctx.firstDataSector + u32 (sub32 clusterId 2 * ctx.sectorsPerCluster))

/-- The loop over the clusters that are skipped; it goes around at most `skip_sectors` times. -/
def skipClusters (ctx : Fat16DrvContext) :
    Nat → Nat → Nat → Except Halt (Except HResult (Nat × Nat))
  | 0, skipSectors, clusterId => .ok (.ok (skipSectors, clusterId))
  | rounds + 1, skipSectors, clusterId =>
    if skipSectors ≥ ctx.sectorsPerCluster then do
      match ← fat16FatLookup ctx clusterId with
      | .error _ => .ok (.error .eFail)
      | .ok next => skipClusters ctx rounds (skipSectors - ctx.sectorsPerCluster) next
    else .ok (.ok (skipSectors, clusterId))

/-- The loop over the sectors of one cluster, from sector `j` on; what was read so far is as
long as `write_index`. -/
def readSectors (ctx : Fat16DrvContext) (count sector : Nat) :
    Nat → Nat → Nat → List (BitVec 8) → HResult × Nat × List (BitVec 8)
  | 0, _, skipSectors, bytes => (.sOk, skipSectors, bytes)
  | left + 1, j, skipSectors, bytes =>
    if skipSectors > 0 then readSectors ctx count sector left (j + 1) (skipSectors - 1) bytes
    else
      match ctx.storageDrv (u32 (sector + j)) 1 with
      | .error hr => (hr, skipSectors, bytes)
      | .ok content =>
        if (bytes ++ content).length = count then (.sOk, skipSectors, bytes ++ content)
        else readSectors ctx count sector left (j + 1) skipSectors (bytes ++ content)

/-- The loop over the clusters. -/
def readClusters (ctx : Fat16DrvContext) (count : Nat) :
    Nat → Nat → Nat → List (BitVec 8) → Except Halt (HResult × List (BitVec 8))
  | 0, _, _, bytes =>
    if bytes.length ≠ count then .error (.panic "fat16_read_file_content(): Unexpected.")
    else .ok (.sOk, bytes)
  | clusters + 1, clusterId, skipSectors, bytes =>
    match readSectors ctx count (clusterSector ctx clusterId) ctx.sectorsPerCluster 0 skipSectors
      bytes with
    | (hr, skipSectors, bytes) =>
      if hr.failed then .ok (hr, bytes)
      else do
        match ← fat16FatLookup ctx clusterId with
        | .error _ => .ok (.eFail, bytes)
        | .ok next => readClusters ctx count clusters next skipSectors bytes

/-- `fat16_read_file_content` -/
def fat16ReadFileContent (ctx : Fat16DrvContext) (entry : Fat16DirEntry) (start count : Nat) :
    Except Halt (HResult × List (BitVec 8)) :=
  if ctx.bytesPerSector = 0 ∨ ctx.sectorsPerCluster = 0 then .error .stuck
  else do
    let skipSectors := start / ctx.bytesPerSector
    let countSectors := count / ctx.bytesPerSector
    let countClusters := u32 (countSectors + ctx.sectorsPerCluster - 1) / ctx.sectorsPerCluster
    let clusterId ← fatGetFirstCluster ctx entry
    if start % ctx.bytesPerSector ≠ 0 ∨ count % ctx.bytesPerSector ≠ 0 then .ok (.eInvalidArg, [])
    else
      match ← skipClusters ctx skipSectors skipSectors clusterId with
      | .error hr => .ok (hr, [])
      | .ok (skipSectors, clusterId) => readClusters ctx count countClusters clusterId skipSectors []

/-- A file of the volume. -/
def fat16File (ctx : Fat16DrvContext) (entry : Fat16DirEntry) : SectorFile where
  blockSize := ctx.bytesPerSector
  size := entry.size
  readContent := fat16ReadFileContent ctx entry

/-- `fat16_read_subblock` -/
def fat16ReadSubblock (ctx : Fat16DrvContext) (entry : Fat16DirEntry) :=
  readSubblock (fat16File ctx entry)

/-- `fat16_file_read` -/
def fat16FileRead (ctx : Fat16DrvContext) (entry : Fat16DirEntry) := fileRead (fat16File ctx entry)

/-- `fat16_file_seek` -/
def fat16FileSeek (ctx : Fat16DrvContext) (entry : Fat16DirEntry) := fileSeek (fat16File ctx entry)

/-! ## The content of a file -/

/-- The clusters of a file, by following the chain. -/
def clusterAt (ctx : Fat16DrvContext) (entry : Fat16DirEntry) : Nat → Option Nat
  | 0 => (fatGetFirstCluster ctx entry).toOption
  | k + 1 => do
    let clusterId ← clusterAt ctx entry k
    let next ← (fat16FatLookup ctx clusterId).toOption
    next.toOption

/-- Where sector `s` of a file is on the volume. -/
def fatSector (ctx : Fat16DrvContext) (entry : Fat16DirEntry) (s : Nat) : Nat :=
  u32 (clusterSector ctx ((clusterAt ctx entry (s / ctx.sectorsPerCluster)).getD 0) +
    s % ctx.sectorsPerCluster)

/-- The content of a file on a volume with this image. -/
def fatContent (ctx : Fat16DrvContext) (entry : Fat16DirEntry) (image : Block) : Block := fun i =>
  image (fatSector ctx entry (i / ctx.bytesPerSector) * ctx.bytesPerSector +
    i % ctx.bytesPerSector)

/-- A volume whose storage holds the image, and a file whose chain is long enough. -/
structure FatWellFormed (ctx : Fat16DrvContext) (entry : Fat16DirEntry) (image : Block) :
    Prop where
  sectorPos : 0 < ctx.bytesPerSector
  sectorSmall : ctx.bytesPerSector < 2 ^ 16
  clusterPos : 0 < ctx.sectorsPerCluster
  clusterSmall : ctx.sectorsPerCluster < 2 ^ 8
  storage : ∀ start count, start + count ≤ 2 ^ 32 → ctx.storageDrv start count =
    .ok (readAt image (start * ctx.bytesPerSector) (count * ctx.bytesPerSector))
  chain : ∃ clusters, (clusterAt ctx entry clusters).isSome = true ∧
    entry.size ≤ clusters * ctx.sectorsPerCluster * ctx.bytesPerSector

/-- The clusters that `fat16_read_file_content` counts are enough. -/
def FatComplete (ctx : Fat16DrvContext) (start count : Nat) : Prop :=
  count = 0 ∨
    start / ctx.bytesPerSector % ctx.sectorsPerCluster + count / ctx.bytesPerSector ≤
      (count / ctx.bytesPerSector + ctx.sectorsPerCluster - 1) / ctx.sectorsPerCluster *
        ctx.sectorsPerCluster

section

variable {ctx : Fat16DrvContext} {entry : Fat16DirEntry} {image : Block} {a c k n o q s : Nat}

/-! ## The chain -/

/-- A lookup leads to the next cluster. -/
theorem clusterAt_succ {next : Nat} (here : clusterAt ctx entry k = some c)
    (lookup : fat16FatLookup ctx c = .ok (.ok next)) :
    clusterAt ctx entry (k + 1) = some next := by
  rw [clusterAt, here]
  simp only [bind, Option.bind, lookup, Except.toOption]

theorem clusterAt_next (some : (clusterAt ctx entry (k + 1)).isSome = true) :
    ∃ c next, clusterAt ctx entry k = Option.some c ∧
      clusterAt ctx entry (k + 1) = Option.some next ∧ fat16FatLookup ctx c = .ok (.ok next) := by
  obtain ⟨next, follows⟩ := Option.isSome_iff_exists.mp some
  obtain ⟨c, here, looked⟩ := Option.bind_eq_some_iff.mp follows
  obtain ⟨found, lookup, ok⟩ := Option.bind_eq_some_iff.mp looked
  refine ⟨c, next, here, follows, ?_⟩
  cases result : fat16FatLookup ctx c with
  | error halt =>
    rw [result] at lookup
    contradiction
  | ok outcome =>
    rw [result] at lookup
    obtain rfl := Option.some.inj lookup
    cases outcome with
    | error hr => contradiction
    | ok value => rw [Option.some.inj ok]

theorem clusterAt_below (some : (clusterAt ctx entry n).isSome = true) (below : k ≤ n) :
    (clusterAt ctx entry k).isSome = true := by
  induction n with
  | zero => rwa [Nat.le_zero.mp below]
  | succ n inductionHypothesis =>
    by_cases last : k = n + 1
    · rwa [last]
    · obtain ⟨c, next, here, -⟩ := clusterAt_next some
      exact inductionHypothesis (by rw [here]; rfl) (by omega)

/-- A cluster inside of the chain is looked up. -/
theorem lookup_of_chain (some : (clusterAt ctx entry n).isSome = true) (below : k < n)
    (here : clusterAt ctx entry k = Option.some c) :
    ∃ next, clusterAt ctx entry (k + 1) = Option.some next ∧
      fat16FatLookup ctx c = .ok (.ok next) := by
  obtain ⟨c', next, here', follows, lookup⟩ := clusterAt_next (clusterAt_below some below)
  rw [here] at here'
  rw [← Option.some.inj here'] at lookup
  exact ⟨next, follows, lookup⟩

end

end Antonix.Drivers
