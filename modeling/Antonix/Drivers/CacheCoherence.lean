import Antonix.Drivers.CacheRefill
import Antonix.Drivers.FatRange
import Antonix.Drivers.Iso9660

/-! # The sector caches of the drivers (`fat16.c`, `iso9660.c`)

A refill reads into the buffer of the cache before anything is marked.  Where it fails after it has
put bytes there, the cache still counts as the sector that it held before: `atapi_read_sectors` can
time out behind the last byte, and `fat16_read_file_content` looks at the cluster of a sector when
it has read it. -/

namespace Antonix.Drivers

open Buffer Transition

/-- What a storage does with the reads of a call: the status of each and the bytes that it puts,
which it may do and fail.  A read that succeeds puts the blocks of the image. -/
structure StorageRun (image : Block) (blockSize : Nat) where
  read : Nat → Nat → HResult × List (BitVec 8)
  holds : ∀ start count, (read start count).1.failed = false →
    (read start count).2 = readAt image (start * blockSize) (count * blockSize)

/-! ## Reading content from such a storage -/

/-- The loop over the sectors of one cluster, from sector `j` on, with all that was put. -/
def readSectorsPut (storage : Nat → Nat → HResult × List (BitVec 8)) (count sector : Nat) :
    Nat → Nat → Nat → List (BitVec 8) → HResult × Nat × List (BitVec 8)
  | 0, _, skipSectors, bytes => (.sOk, skipSectors, bytes)
  | left + 1, j, skipSectors, bytes =>
    if skipSectors > 0 then readSectorsPut storage count sector left (j + 1) (skipSectors - 1) bytes
    else
      let (hr, content) := storage (u32 (sector + j)) 1
      if hr.failed then (hr, skipSectors, bytes ++ content)
      else if (bytes ++ content).length = count then (.sOk, skipSectors, bytes ++ content)
      else readSectorsPut storage count sector left (j + 1) skipSectors (bytes ++ content)

/-- The loop over the clusters. -/
def readClustersPut (ctx : Fat16DrvContext) (storage : Nat → Nat → HResult × List (BitVec 8))
    (count : Nat) : Nat → Nat → Nat → List (BitVec 8) → Except Halt (HResult × List (BitVec 8))
  | 0, _, _, bytes =>
    if bytes.length ≠ count then .error (.panic "fat16_read_file_content(): Unexpected.")
    else .ok (.sOk, bytes)
  | clusters + 1, clusterId, skipSectors, bytes =>
    let (hr, skipSectors, bytes) := readSectorsPut storage count (clusterSector ctx clusterId)
      ctx.sectorsPerCluster 0 skipSectors bytes
    if hr.failed then .ok (hr, bytes)
    else do
      match ← fat16FatLookup ctx clusterId with
      | .error _ => .ok (.eFail, bytes)
      | .ok next => readClustersPut ctx storage count clusters next skipSectors bytes

/-- `fat16_read_file_content`, with all that was put; `storage` is the one of the volume. -/
def fat16ReadFileContentPut (ctx : Fat16DrvContext) (entry : Fat16DirEntry)
    (storage : Nat → Nat → HResult × List (BitVec 8)) (start count : Nat) :
    Except Halt (HResult × List (BitVec 8)) :=
  if ctx.bytesPerSector = 0 ∨ ctx.sectorsPerCluster = 0 then .error .stuck
  else do
    let skipSectors := start / ctx.bytesPerSector
    let countSectors := count / ctx.bytesPerSector
    let countClusters := u32 (countSectors + ctx.sectorsPerCluster - 1) / ctx.sectorsPerCluster
    let clusterId ← fatGetFirstCluster ctx entry
    if start % ctx.bytesPerSector ≠ 0 ∨ count % ctx.bytesPerSector ≠ 0 then .ok (.eInvalidArg, [])
    else
      match ← skipClusters ctx skipSectors skipSectors clusterId with
      | .error hr => .ok (hr, [])
      | .ok (skipSectors, clusterId) =>
        readClustersPut ctx storage count countClusters clusterId skipSectors []

/-- `iso9660_file_read_block`, with all that was put. -/
def iso9660FileReadBlockPut (entry : Iso9660DirEntry)
    (storage : Nat → Nat → HResult × List (BitVec 8)) (start count : Nat) :
    Except Halt (HResult × List (BitVec 8)) :=
  if start % iso9660SectorSize ≠ 0 ∨ count % iso9660SectorSize ≠ 0 then .ok (.eInvalidArg, [])
  else .ok (storage (u32 (entry.extentStart + start / iso9660SectorSize))
    (count / iso9660SectorSize))

/-! ## Streams of the two drivers -/

/-- A file of one of the drivers; the fields of a boot record have 16 and 8 bits. -/
inductive DriverFile where
  | fat (ctx : Fat16DrvContext) (entry : Fat16DirEntry)
      (sectorSmall : ctx.bytesPerSector < 2 ^ 16) (clusterSmall : ctx.sectorsPerCluster < 2 ^ 8)
  | iso (entry : Iso9660DirEntry)

/-- `bytes_per_sector` or `ISO9660_SECTOR_SIZE` -/
def DriverFile.blockSize : DriverFile → Nat
  | .fat ctx _ _ _ => ctx.bytesPerSector
  | .iso _ => iso9660SectorSize

/-- The bytes of the file on a volume with this image. -/
def DriverFile.content (image : Block) : DriverFile → Block
  | .fat ctx entry _ _ => fatContent ctx entry image
  | .iso entry => isoContent entry image

/-- The file, as long as the storage does this. -/
def DriverFile.on (storage : Nat → Nat → HResult × List (BitVec 8)) : DriverFile → SectorFile
  | .fat ctx entry _ _ =>
    ⟨ctx.bytesPerSector, entry.size, fat16ReadFileContentPut ctx entry storage⟩
  | .iso entry => ⟨iso9660SectorSize, entry.extentSize, iso9660FileReadBlockPut entry storage⟩

/-- A call on an open stream: a read, with what the storage and `kmalloc` do, or a seek. -/
inductive CacheCall (image : Block) (blockSize : Nat) where
  | seek (pos : Int) (origin : Option SeekOrigin)
  | read (storage : StorageRun image blockSize) (alloc : Option Block) (n : Nat) (outBuf : Bool)

/-- A call that returns. -/
def DriverFile.Step (file : DriverFile) (image : Block) (str : FileStream) :
    CacheCall image file.blockSize → FileStream → Prop
  | .seek pos origin, str' => (fileSeek (file.on fun _ _ => (.eFail, [])) str pos origin).2 = str'
  | .read storage alloc n outBuf, str' =>
    ∃ answer, fileRead (file.on storage.read) alloc str n outBuf = .ok (answer, str')

/-- The cache of a stream holds what it says, and a read inside of that is answered with the bytes
of the file. -/
structure CacheCoherent (file : DriverFile) (image : Block) (str : FileStream) : Prop where
  holds : Coherent (file.content image) str.cache
  served : ∀ (storage : StorageRun image file.blockSize) (alloc : Option Block) (n e : Nat),
    e = effectiveSize (file.on storage.read) str.pos n → n ≠ 0 → 0 < e →
    str.cache.invalid = false → str.cache.startAddr ≤ str.pos →
    str.pos + e ≤ str.cache.startAddr + str.cache.size →
    str.cache.startAddr + str.cache.size < 2 ^ 32 →
    ∃ str', fileRead (file.on storage.read) alloc str n true =
      .ok (⟨.sOk, some e, put (fun _ => none) 0 (readAt (file.content image) str.pos e)⟩, str')

/-- A read of a sector that fails has put nothing, and one that succeeds is of a sector that is
`there`. -/
def ReadsClean (answer : HResult × List (BitVec 8)) (there : Prop) : Prop :=
  if answer.1.failed then answer.2 = [] else there

/-- A refill with the sector at `start` puts the sector or nothing: the storage puts nothing where
it fails, and the chain does not end before the sector, or its number is one. -/
def DriverFile.Clean (storage : Nat → Nat → HResult × List (BitVec 8)) (start : Nat) :
    DriverFile → Prop
  | .fat ctx entry _ _ =>
    let s := start / ctx.bytesPerSector
    (clusterAt ctx entry (s / ctx.sectorsPerCluster)).isSome = true →
      ReadsClean (storage (fatSector ctx entry s) 1)
        ((clusterAt ctx entry (s / ctx.sectorsPerCluster + 1)).isSome = true)
  | .iso entry =>
    ReadsClean (storage (u32 (entry.extentStart + start / iso9660SectorSize)) 1)
      (entry.extentStart + start / iso9660SectorSize < 2 ^ 32)

/-- All sectors that the call can refill the cache with are clean. -/
def DriverFile.RefillsClean (file : DriverFile) (image : Block) (str : FileStream) :
    CacheCall image file.blockSize → Prop
  | .seek _ _ => True
  | .read storage _ n _ => ∀ start,
    RefillAt file.blockSize str.pos (effectiveSize (file.on storage.read) str.pos n) start →
      file.Clean storage.read start

section

variable {ctx : Fat16DrvContext} {entry : Fat16DirEntry} {image : Block}
  {storage : Nat → Nat → HResult × List (BitVec 8)} {a c c' count j left s sector skip : Nat}
  {bytes : List (BitVec 8)} {hr : HResult}

/-! ## One sector of a FAT file -/

/-- Clusters that were skipped are clusters of the chain. -/
theorem clusterAt_of_skipped {rounds : Nat} (clusterPos : 0 < ctx.sectorsPerCluster)
    (here : clusterAt ctx entry a = some c) (enough : s ≤ rounds)
    (skipped : skipClusters ctx rounds s c = .ok (.ok (skip, c'))) :
    skip = s % ctx.sectorsPerCluster ∧
      clusterAt ctx entry (a + s / ctx.sectorsPerCluster) = some c' := by
  induction rounds generalizing a c s with
  | zero =>
    obtain rfl := Nat.le_zero.mp enough
    cases skipped
    rw [Nat.zero_div, Nat.zero_mod]
    exact ⟨rfl, here⟩
  | succ rounds inductionHypothesis =>
    unfold skipClusters at skipped
    by_cases skips : s ≥ ctx.sectorsPerCluster
    · rw [if_pos skips] at skipped
      obtain ⟨looked, lookup, skipped⟩ := exists_of_bind skipped
      cases looked with
      | error _ => cases skipped
      | ok next =>
        obtain ⟨rest, there⟩ :=
          inductionHypothesis (clusterAt_succ here lookup) (by omega) skipped
        have quotient := Nat.div_eq_sub_div clusterPos skips
        have order : a + s / ctx.sectorsPerCluster =
            a + 1 + (s - ctx.sectorsPerCluster) / ctx.sectorsPerCluster := by omega
        rw [order, Nat.mod_eq_sub_mod skips]
        exact ⟨rest, there⟩
    · rw [if_neg skips] at skipped
      cases skipped
      rw [Nat.mod_eq_of_lt (Nat.not_le.mp skips), Nat.div_eq_of_lt (Nat.not_le.mp skips)]
      exact ⟨rfl, here⟩

/-- Skipping fails with `E_FAIL` only. -/
theorem eFail_of_skipped {rounds : Nat}
    (skipped : skipClusters ctx rounds s c = .ok (.error hr)) : hr = .eFail := by
  induction rounds generalizing c s with
  | zero => cases skipped
  | succ rounds inductionHypothesis =>
    unfold skipClusters at skipped
    split at skipped
    · obtain ⟨looked, _, skipped⟩ := exists_of_bind skipped
      cases looked with
      | error _ =>
        cases skipped
        rfl
      | ok next => exact inductionHypothesis skipped
    · cases skipped

/-- The sectors before the first one of interest are not read. -/
theorem readSectorsPut_skip (inside : skip < left) :
    readSectorsPut storage count sector left j skip bytes =
      readSectorsPut storage count sector (left - skip) (j + skip) 0 bytes := by
  induction skip generalizing left j with
  | zero => rfl
  | succ skip inductionHypothesis =>
    cases left with
    | zero => exact absurd inside (Nat.not_lt_zero _)
    | succ left =>
      have more := @inductionHypothesis (j + 1) left (by omega)
      rw [readSectorsPut, if_pos (Nat.succ_pos skip), Nat.succ_sub_one, more]
      have order : j + 1 + skip = j + (skip + 1) := by omega
      rw [order, Nat.succ_sub_succ]

/-- One sector is read, and no more. -/
theorem readSectorsPut_one (inside : skip < left)
    (length : (storage (u32 (sector + skip)) 1).1.failed = false →
      (storage (u32 (sector + skip)) 1).2.length = count) :
    ∃ hr, readSectorsPut storage count sector left 0 skip [] =
        (hr, 0, (storage (u32 (sector + skip)) 1).2) ∧
      hr.failed = (storage (u32 (sector + skip)) 1).1.failed := by
  obtain ⟨more, shape⟩ : ∃ more, left - skip = more + 1 := ⟨left - skip - 1, by omega⟩
  rw [readSectorsPut_skip inside, shape, readSectorsPut, if_neg (Nat.lt_irrefl 0), Nat.zero_add]
  generalize storage (u32 (sector + skip)) 1 = answer at length ⊢
  obtain ⟨hr, content⟩ := answer
  dsimp only at length ⊢
  cases failed : hr.failed with
  | true => exact ⟨hr, if_pos rfl, failed⟩
  | false =>
    rw [if_neg Bool.false_ne_true, List.nil_append, if_pos (length failed)]
    exact ⟨.sOk, rfl, rfl⟩

theorem one_cluster (clusterPos : 0 < ctx.sectorsPerCluster)
    (clusterSmall : ctx.sectorsPerCluster < 2 ^ 8) :
    u32 (1 + ctx.sectorsPerCluster - 1) / ctx.sectorsPerCluster = 1 := by
  rw [Nat.add_sub_cancel_left, u32_of_lt (by omega), Nat.div_self clusterPos]

/-- A read of one sector fails before it reads, or reads one cluster of the chain. -/
theorem fat16ReadFileContentPut_one {start : Nat} (sectorPos : 0 < ctx.bytesPerSector)
    (clusterPos : 0 < ctx.sectorsPerCluster) (clusterSmall : ctx.sectorsPerCluster < 2 ^ 8)
    (aligned : ctx.bytesPerSector ∣ start)
    (returned : fat16ReadFileContentPut ctx entry storage start ctx.bytesPerSector =
      .ok (hr, bytes)) :
    hr = .eFail ∧ bytes = [] ∨
      ∃ c, clusterAt ctx entry (start / ctx.bytesPerSector / ctx.sectorsPerCluster) = some c ∧
        readClustersPut ctx storage ctx.bytesPerSector 1 c
          (start / ctx.bytesPerSector % ctx.sectorsPerCluster) [] = .ok (hr, bytes) := by
  have nonzero : ¬(ctx.bytesPerSector = 0 ∨ ctx.sectorsPerCluster = 0) := by omega
  have whole : ¬(start % ctx.bytesPerSector ≠ 0 ∨
      ctx.bytesPerSector % ctx.bytesPerSector ≠ 0) := by
    rw [Nat.mod_eq_zero_of_dvd aligned, Nat.mod_self]
    omega
  unfold fat16ReadFileContentPut at returned
  rw [if_neg nonzero] at returned
  dsimp only at returned
  rw [Nat.div_self sectorPos, one_cluster clusterPos clusterSmall] at returned
  obtain ⟨first, begins, returned⟩ := exists_of_bind returned
  rw [if_neg whole] at returned
  obtain ⟨skipped, skips, returned⟩ := exists_of_bind returned
  cases skipped with
  | error hr' =>
    cases returned
    exact .inl ⟨eFail_of_skipped skips, rfl⟩
  | ok reached =>
    obtain ⟨skip, c⟩ := reached
    have head : clusterAt ctx entry 0 = some first := by
      rw [clusterAt, begins]
      rfl
    obtain ⟨rest, here⟩ := clusterAt_of_skipped clusterPos head (Nat.le_refl _) skips
    rw [Nat.zero_add] at here
    rw [rest] at returned
    exact .inr ⟨c, here, returned⟩

/-- One sector of a cluster of the chain: it is put, or nothing is. -/
theorem readClustersPut_refills {run : StorageRun image ctx.bytesPerSector}
    (sectorPos : 0 < ctx.bytesPerSector) (clusterPos : 0 < ctx.sectorsPerCluster)
    (here : clusterAt ctx entry (s / ctx.sectorsPerCluster) = some c)
    (clean : ReadsClean (run.read (fatSector ctx entry s) 1)
      ((clusterAt ctx entry (s / ctx.sectorsPerCluster + 1)).isSome = true))
    (returned : readClustersPut ctx run.read ctx.bytesPerSector 1 c (s % ctx.sectorsPerCluster) [] =
      .ok (hr, bytes)) :
    bytes = if hr.failed then [] else
      readAt (fatContent ctx entry image) (s * ctx.bytesPerSector) ctx.bytesPerSector := by
  have inside := Nat.mod_lt s clusterPos
  have number : fatSector ctx entry s =
      u32 (clusterSector ctx c + s % ctx.sectorsPerCluster) := by
    rw [← fatSector_eq clusterPos here inside, Nat.div_add_mod']
  have holds := run.holds (fatSector ctx entry s) 1
  rw [Nat.one_mul, readAt_fatSector sectorPos] at holds
  rw [number] at clean holds
  obtain ⟨hr', read, status⟩ := @readSectorsPut_one run.read ctx.bytesPerSector
    ctx.sectorsPerCluster (clusterSector ctx c) (s % ctx.sectorsPerCluster) inside
    fun succeeded => by rw [holds succeeded, length_readAt]
  unfold ReadsClean at clean
  rw [← status] at clean holds
  rw [readClustersPut, read] at returned
  cases failed : hr'.failed with
  | true =>
    -- the storage has failed, and put nothing
    rw [failed, if_pos rfl] at clean
    simp only [failed, if_true, clean] at returned
    rw [← (eq_of_returned returned).1, ← (eq_of_returned returned).2, failed]
    rfl
  | false =>
    -- the cluster is looked up behind the read, and is not the mark
    rw [failed, if_neg Bool.false_ne_true] at clean
    obtain ⟨next, _, lookup⟩ := lookup_of_chain clean (Nat.lt_succ_self _) here
    have length : ¬(readAt (fatContent ctx entry image) (s * ctx.bytesPerSector)
        ctx.bytesPerSector).length ≠ ctx.bytesPerSector := not_not_intro length_readAt
    simp only [failed, Bool.false_eq_true, if_false, lookup, bind, Except.bind, readClustersPut,
      holds failed, if_neg length] at returned
    rw [← (eq_of_returned returned).1, ← (eq_of_returned returned).2]
    rfl

theorem fat16ReadFileContentPut_refills {start : Nat} {run : StorageRun image ctx.bytesPerSector}
    (clusterSmall : ctx.sectorsPerCluster < 2 ^ 8) (aligned : ctx.bytesPerSector ∣ start)
    (clean : (clusterAt ctx entry (start / ctx.bytesPerSector / ctx.sectorsPerCluster)).isSome =
        true → ReadsClean (run.read (fatSector ctx entry (start / ctx.bytesPerSector)) 1)
      ((clusterAt ctx entry
        (start / ctx.bytesPerSector / ctx.sectorsPerCluster + 1)).isSome = true))
    (returned : fat16ReadFileContentPut ctx entry run.read start ctx.bytesPerSector =
      .ok (hr, bytes)) :
    bytes = if hr.failed then [] else
      readAt (fatContent ctx entry image) start ctx.bytesPerSector := by
  by_cases zero : ctx.bytesPerSector = 0 ∨ ctx.sectorsPerCluster = 0
  · -- a division by zero
    rw [fat16ReadFileContentPut, if_pos zero] at returned
    cases returned
  · obtain ⟨sectors, clusters⟩ := not_or.mp zero
    have sectorPos := Nat.pos_of_ne_zero sectors
    have clusterPos := Nat.pos_of_ne_zero clusters
    cases fat16ReadFileContentPut_one sectorPos clusterPos clusterSmall aligned returned with
    | inl nothing =>
      rw [nothing.1, nothing.2]
      rfl
    | inr cluster =>
      obtain ⟨c, here, read⟩ := cluster
      have put := readClustersPut_refills sectorPos clusterPos here (clean (by rw [here]; rfl)) read
      rwa [Nat.div_mul_cancel aligned] at put

theorem iso9660FileReadBlockPut_refills {start : Nat} {file : Iso9660DirEntry}
    {run : StorageRun image iso9660SectorSize} (aligned : iso9660SectorSize ∣ start)
    (clean : ReadsClean (run.read (u32 (file.extentStart + start / iso9660SectorSize)) 1)
      (file.extentStart + start / iso9660SectorSize < 2 ^ 32))
    (returned : iso9660FileReadBlockPut file run.read start iso9660SectorSize = .ok (hr, bytes)) :
    bytes = if hr.failed then [] else
      readAt (isoContent file image) start iso9660SectorSize := by
  have whole : ¬(start % iso9660SectorSize ≠ 0 ∨ iso9660SectorSize % iso9660SectorSize ≠ 0) := by
    rw [Nat.mod_eq_zero_of_dvd aligned, Nat.mod_self]
    omega
  unfold iso9660FileReadBlockPut at returned
  rw [if_neg whole, Nat.div_self (by decide)] at returned
  have holds := run.holds (u32 (file.extentStart + start / iso9660SectorSize)) 1
  have answer := Except.ok.inj returned
  rw [answer] at clean holds
  unfold ReadsClean at clean
  cases failed : hr.failed with
  | true => exact (if_pos failed).mp clean
  | false =>
    rw [failed, if_neg Bool.false_ne_true] at clean
    have content := holds failed
    dsimp only at content
    rw [content, u32_of_lt clean, if_neg Bool.false_ne_true, Nat.one_mul, Nat.add_mul,
      Nat.div_mul_cancel aligned]
    apply readAt_congr
    intro i _
    rw [isoContent, Nat.add_assoc]

/-! ## Runs -/

theorem DriverFile.on_blockSize (file : DriverFile) :
    (file.on storage).blockSize = file.blockSize := by
  cases file with
  | fat => rfl
  | iso => rfl

theorem DriverFile.blockSize_lt (file : DriverFile) : file.blockSize < 2 ^ 16 := by
  cases file with
  | fat _ _ sectorSmall => exact sectorSmall
  | iso =>
    show 2048 < 2 ^ 16
    decide

theorem DriverFile.Clean.refills {file : DriverFile} {start : Nat}
    {run : StorageRun image file.blockSize} (clean : file.Clean run.read start)
    (aligned : file.blockSize ∣ start) :
    Refills (file.on run.read) (file.content image) start := by
  intro hr bytes returned
  cases file with
  | fat ctx entry sectorSmall clusterSmall =>
    exact fat16ReadFileContentPut_refills clusterSmall aligned clean returned
  | iso entry => exact iso9660FileReadBlockPut_refills aligned clean returned

/-- A call whose refills are clean leaves nothing but the content in the cache. -/
theorem DriverFile.step_holds {file : DriverFile} {str str' : FileStream}
    {call : CacheCall image file.blockSize}
    (holds : StreamHolds file.blockSize (file.content image) str)
    (step : Guarded (file.RefillsClean image) (file.Step image) str call str') :
    StreamHolds file.blockSize (file.content image) str' := by
  obtain ⟨clean, taken⟩ := step
  cases call with
  | seek pos origin =>
    obtain rfl : _ = str' := taken
    exact fileSeek_holds holds pos origin
  | read run alloc n outBuf =>
    obtain ⟨answer, returned⟩ := taken
    have size := @DriverFile.on_blockSize run.read file
    rw [← size] at holds ⊢
    apply fileRead_holds holds _ _ returned
    · rw [size]
      exact file.blockSize_lt
    · intro start refilled
      rw [size] at refilled
      exact (clean start refilled).refills refilled.1

end

/-- Along every run whose refills put a sector of the file, or fail and put nothing, the cache
holds the bytes of the file that it says it holds. -/
theorem cacheCoherent_of_clean (file : DriverFile) (image : Block)
    {calls : List (CacheCall image file.blockSize)} {str : FileStream}
    (run : Run (Guarded (file.RefillsClean image) (file.Step image)) .opened calls str) :
    CacheCoherent file image str := by
  have holds := run.invariant (StreamHolds file.blockSize (file.content image))
    (fun _ _ _ before step => DriverFile.step_holds before step) opened_holds
  have coherent := holds.cache.coherent
  constructor
  · exact coherent
  · intro storage alloc n e size requested some valid from' to' fits
    rw [size] at some to' ⊢
    exact ⟨_, fileRead_served coherent valid some requested from' to' fits⟩

/-! ## A file of two sectors -/

/-- A file of four bytes in two clusters, on a volume with sectors of two bytes. -/
def pairFile : DriverFile :=
  .fat ⟨2, 1, .fat12, smallVolume.fatCache, 0, fun _ _ => .error .eFail⟩ ⟨0, 2, 4⟩
    (by decide) (by decide)

/-- A storage that reads every block. -/
def goodStorage (image : Block) (blockSize : Nat) : StorageRun image blockSize where
  read := fun start count => (.sOk, readAt image (start * blockSize) (count * blockSize))
  holds := fun _ _ _ => rfl

/-- A storage that times out when it has put these bytes. -/
def timingOut (image : Block) (blockSize : Nat) (bytes : List (BitVec 8)) :
    StorageRun image blockSize where
  read := fun _ _ => (.eTimedOut, bytes)
  holds := by
    intro start count succeeded
    cases succeeded

/-- The first byte is read, and then one of the second sector, where the storage times out. -/
def pairCalls (bytes : List (BitVec 8)) : List (CacheCall (BitVec.ofNat 8) pairFile.blockSize) :=
  [.read (goodStorage _ _) (some fun _ => 0) 1 true, .seek 2 (some .beginning),
    .read (timingOut _ _ bytes) none 1 true]

/-- The stream behind the first of them, at position `pos`. -/
def firstStream (pos : Nat) : FileStream :=
  ⟨pos, ⟨2, 0, 2, some (writeAt (fun _ => 0) 0 [0, 1]), false⟩⟩

theorem pairFile_first : pairFile.Step (BitVec.ofNat 8) .opened
    (.read (goodStorage _ _) (some fun _ => 0) 1 true) (firstStream 1) :=
  ⟨⟨.sOk, some 1, put (put (fun _ => none) 0 []) 0 [0]⟩, rfl⟩

theorem pairFile_seek : pairFile.Step (BitVec.ofNat 8) (firstStream 1)
    (.seek 2 (some .beginning)) (firstStream 2) := rfl

/-- The refill of a request for one byte is clean if its sector is. -/
theorem pairFile_clean {pos : Nat} {run : StorageRun (BitVec.ofNat 8) pairFile.blockSize}
    {start : Nat} (even : pos % 2 = 0) (small : pos + 1 < 4) (clean : pairFile.Clean run.read pos)
    (refilled : RefillAt pairFile.blockSize pos (effectiveSize (pairFile.on run.read) pos 1)
      start) :
    pairFile.Clean run.read start := by
  have size : pairFile.blockSize = 2 := rfl
  have one : effectiveSize (pairFile.on run.read) pos 1 = 1 := by
    have last : (pairFile.on run.read).size = 4 := rfl
    rw [effectiveSize, last, u32_of_lt (by omega), if_neg (by omega)]
  rw [one, size] at refilled
  have same : start = pos := by
    have sectors := refilled.2.2 (by decide)
    rw [u32_of_lt (by omega)] at sectors
    omega
  rwa [same]

/-- A storage that puts nothing before it times out leaves the first sector in the cache. -/
theorem cacheCoherent_of_clean_pair : ∃ str, CacheCoherent pairFile (BitVec.ofNat 8) str ∧
    Run (pairFile.Step (BitVec.ofNat 8)) .opened (pairCalls []) str := by
  obtain ⟨⟨answer, str⟩, returned, _⟩ := exists_of_known
    (by decide +kernel : (fileRead (pairFile.on (timingOut (BitVec.ofNat 8) 2 []).read) none
      (firstStream 2) 1 true).toOption.map (fun result => result.1.hr) = some .eTimedOut)
  have firstClean : pairFile.Clean (goodStorage (BitVec.ofNat 8) 2).read 0 := fun _ => rfl
  have secondClean : pairFile.Clean (timingOut (BitVec.ofNat 8) 2 []).read 2 := fun _ => rfl
  have first : Guarded (pairFile.RefillsClean (BitVec.ofNat 8)) (pairFile.Step (BitVec.ofNat 8))
      .opened (.read (goodStorage _ _) (some fun _ => 0) 1 true) (firstStream 1) :=
    ⟨fun _ refilled => pairFile_clean rfl (by decide) firstClean refilled, pairFile_first⟩
  have seek : Guarded (pairFile.RefillsClean (BitVec.ofNat 8)) (pairFile.Step (BitVec.ofNat 8))
      (firstStream 1) (.seek 2 (some .beginning)) (firstStream 2) := ⟨trivial, pairFile_seek⟩
  have second : Guarded (pairFile.RefillsClean (BitVec.ofNat 8)) (pairFile.Step (BitVec.ofNat 8))
      (firstStream 2) (.read (timingOut _ _ []) none 1 true) str :=
    ⟨fun _ refilled => pairFile_clean rfl (by decide) secondClean refilled, answer, returned⟩
  have allClean := Run.cons first (.cons seek (.single second))
  refine ⟨str, cacheCoherent_of_clean pairFile (BitVec.ofNat 8) allClean, ?_⟩
  exact allClean.mono fun _ _ _ step => step.2

/-- One that has put the second sector leaves it there as the first. -/
theorem cacheCoherent_not : ¬∀ (file : DriverFile) (image : Block)
    (calls : List (CacheCall image file.blockSize)) (str : FileStream),
    Run (file.Step image) .opened calls str → CacheCoherent file image str := by
  intro coherent
  obtain ⟨⟨answer, str⟩, returned, facts⟩ := exists_of_known
    (by decide +kernel : (fileRead (pairFile.on (timingOut (BitVec.ofNat 8) 2 [2, 3]).read) none
      (firstStream 2) 1 true).toOption.map (fun result =>
        (result.2.cache.invalid, result.2.cache.startAddr, result.2.cache.size,
          result.2.cache.buff.map fun buff => readAt buff 0 2)) = some (false, 0, 2, some [2, 3]))
  have run : Run (pairFile.Step (BitVec.ofNat 8)) .opened (pairCalls [2, 3]) str :=
    .cons pairFile_first (.cons pairFile_seek (.cons ⟨answer, returned⟩ (.nil str)))
  simp only [Prod.mk.injEq] at facts
  obtain ⟨valid, start, size, bytes⟩ := facts
  obtain ⟨buff, hasBuff, same⟩ := (coherent _ _ _ _ run).holds valid (by rw [size]; decide)
  rw [hasBuff, Option.map_some] at bytes
  rw [size, start, Option.some.inj bytes] at same
  exact absurd same (by decide +kernel)

end Antonix.Drivers
