import Antonix.Lib.LittleEndian
import Antonix.Drivers.Fat16

/-! # The boot sector of a FAT volume (`fat16.c`)

`fat16_parse_bpb` computes where everything is from a few fields of the boot sector, and takes
every value of them: it divides by two of them, subtracts others from the number of sectors, and
derives the type of the volume from the quotient. -/

namespace Antonix.Drivers

open ByteMem LittleEndian

/-- `FAT16_BPB`, the fields that the driver reads. -/
structure Fat16Bpb where
  bytesPerSector : Nat
  sectorsPerCluster : Nat
  reservedSectors : Nat
  fatCount : Nat
  rootEntries : Nat
  numSectors16 : Nat
  sectorsPerFat : Nat
  numSectors32 : Nat
  bytesPerSector_lt : bytesPerSector < 2 ^ 16
  sectorsPerCluster_lt : sectorsPerCluster < 2 ^ 8
  reservedSectors_lt : reservedSectors < 2 ^ 16
  fatCount_lt : fatCount < 2 ^ 8
  rootEntries_lt : rootEntries < 2 ^ 16
  numSectors16_lt : numSectors16 < 2 ^ 16
  sectorsPerFat_lt : sectorsPerFat < 2 ^ 16
  numSectors32_lt : numSectors32 < 2 ^ 32

/-- The copy of the boot sector into the packed `FAT16_BPB`. -/
def readBpb (buff : List (BitVec 8)) : Fat16Bpb where
  bytesPerSector := field 11 2 buff
  sectorsPerCluster := field 13 1 buff
  reservedSectors := field 14 2 buff
  fatCount := field 16 1 buff
  rootEntries := field 17 2 buff
  numSectors16 := field 19 2 buff
  sectorsPerFat := field 22 2 buff
  numSectors32 := field 32 4 buff
  bytesPerSector_lt := field_lt 11 2 buff
  sectorsPerCluster_lt := field_lt 13 1 buff
  reservedSectors_lt := field_lt 14 2 buff
  fatCount_lt := field_lt 16 1 buff
  rootEntries_lt := field_lt 17 2 buff
  numSectors16_lt := field_lt 19 2 buff
  sectorsPerFat_lt := field_lt 22 2 buff
  numSectors32_lt := field_lt 32 4 buff

/-- `FAT16_DRV_CONTEXT`, what `fat16_parse_bpb` stores in it. -/
structure Fat16Layout where
  bpb : Fat16Bpb
  fsType : FsType
  firstDataSector : Nat
  firstFatSector : Nat
  firstRootSector : Nat
  totalSectors : Nat
  dataSectorCnt : Nat
  totalClusterCnt : Nat
  totalClusterCnt_lt : totalClusterCnt < 2 ^ 32

/-- `sizeof(FAT16_DIR_ENTRY)` -/
abbrev dirEntrySize : Nat := 32

/-- `sizeof(FAT16_BPB) + sizeof(FAT16_EBPB)` -/
abbrev bootRecordSize : Nat := 36 + 26

/-- `fat_get_type` -/
def fatGetType (totalClusterCnt : Nat) : FsType :=
  if totalClusterCnt < 4085 then .fat12
  else if totalClusterCnt < 65525 then .fat16
  else if totalClusterCnt < 268435445 then .fat32
  else .exfat

/-- `fat_get_rootdir_size` -/
def fatGetRootdirSize (bpb : Fat16Bpb) : Nat := u32 (bpb.rootEntries * dirEntrySize)

/-- The fields that `fat16_parse_bpb` computes. -/
def fat16Layout (bpb : Fat16Bpb) : Except Halt Fat16Layout :=
  if bpb.bytesPerSector = 0 then .error .stuck
  else
    let totalSectors := if bpb.numSectors16 > 0 then bpb.numSectors16 else bpb.numSectors32
    let fatSectors := bpb.fatCount * bpb.sectorsPerFat
    let rootDirSectors :=
      u32 (fatGetRootdirSize bpb + (bpb.bytesPerSector - 1)) / bpb.bytesPerSector
    let dataSectorCnt :=
      sub32 (sub32 (sub32 totalSectors bpb.reservedSectors) fatSectors) rootDirSectors
    if bpb.sectorsPerCluster = 0 then .error .stuck
    else
      let totalClusterCnt := dataSectorCnt / bpb.sectorsPerCluster
      .ok {
        bpb, totalSectors, dataSectorCnt, totalClusterCnt
        totalClusterCnt_lt := Nat.lt_of_le_of_lt (Nat.div_le_self _ _) (u32_lt _)
        fsType := fatGetType totalClusterCnt
        firstDataSector := u32 (bpb.reservedSectors + fatSectors + rootDirSectors)
        firstFatSector := bpb.reservedSectors
        firstRootSector := u32 (bpb.reservedSectors + fatSectors) }

/-- `fat16_parse_bpb`; the arguments are what `storage_get_block_size`, `kmalloc` and
`storage_read_blocks` answer. -/
def fat16ParseBpb (blockSize : Except HResult Nat) (allocated : Bool)
    (bootRecord : Except HResult (List (BitVec 8))) (ctx : Fat16Layout) :
    Except Halt (HResult × Fat16Layout) :=
  match blockSize with
  | .error hr => .ok (hr, ctx)
  | .ok _ =>
    if allocated then
      match bootRecord with
      | .error hr => .ok (hr, ctx)
      | .ok buff =>
        -- both records are copied, however short the block is
        if buff.length < bootRecordSize then .error .stuck
        else (fat16Layout (readBpb buff)).map (.sOk, ·)
    else .ok (.eOutOfMem, ctx)

/-- `FAT16_DRV_CONTEXT` -/
structure Fat16Volume where
  layout : Fat16Layout
  fatCache : ByteMem
  storageDrv : Nat → Nat → Except HResult (List (BitVec 8))

/-- What the lookups and the reads of a volume use. -/
def Fat16Volume.drv (vol : Fat16Volume) : Fat16DrvContext where
  bytesPerSector := vol.layout.bpb.bytesPerSector
  sectorsPerCluster := vol.layout.bpb.sectorsPerCluster
  fsType := vol.layout.fsType
  fatCache := vol.fatCache
  firstDataSector := vol.layout.firstDataSector
  storageDrv := vol.storageDrv

/-! ## Volumes that make sense -/

/-- The number of sectors that a boot sector gives. -/
def Fat16Bpb.sectors (bpb : Fat16Bpb) : Nat :=
  if bpb.numSectors16 > 0 then bpb.numSectors16 else bpb.numSectors32

/-- The number of sectors before the data, which nothing has cut. -/
def Fat16Bpb.sectorsBefore (bpb : Fat16Bpb) : Nat :=
  bpb.reservedSectors + bpb.fatCount * bpb.sectorsPerFat +
    (bpb.rootEntries * dirEntrySize + (bpb.bytesPerSector - 1)) / bpb.bytesPerSector

/-- A context that the rest of the driver can work with. -/
structure Fat16Layout.Usable (layout : Fat16Layout) : Prop where
  sectorPos : 0 < layout.bpb.bytesPerSector
  clusterPos : 0 < layout.bpb.sectorsPerCluster
  dataInside : layout.firstDataSector ≤ layout.totalSectors
  dataSectors : layout.dataSectorCnt + layout.bpb.sectorsBefore = layout.totalSectors
  clusters : layout.totalClusterCnt = layout.dataSectorCnt / layout.bpb.sectorsPerCluster
  supported : layout.fsType = .fat12 ∨ layout.fsType = .fat16

/-- A boot sector is refused, or leaves a context to work with. -/
def BootSectorChecked (buff : List (BitVec 8)) (ctx : Fat16Layout) : Prop :=
  ∃ hr layout, fat16ParseBpb (.ok 512) true (.ok buff) ctx = .ok (hr, layout) ∧
    (hr.failed = true ∨ layout.Usable)

/-- The fields of a FAT12 or FAT16 volume whose parts fit in it. -/
structure Fat16Bpb.MakesSense (bpb : Fat16Bpb) : Prop where
  sectorPos : bpb.bytesPerSector ≠ 0
  clusterPos : bpb.sectorsPerCluster ≠ 0
  fits : bpb.sectorsBefore ≤ bpb.sectors
  few : (bpb.sectors - bpb.sectorsBefore) / bpb.sectorsPerCluster < 65525

section

variable {bpb : Fat16Bpb} {layout : Fat16Layout} {ctx : Fat16Layout} {buff : List (BitVec 8)}

/-- A boot sector that was not read leaves the context as it was. -/
theorem fat16ParseBpb_unread {blockSize : Except HResult Nat} {allocated : Bool}
    {bootRecord : Except HResult (List (BitVec 8))}
    (unread : blockSize.toOption = none ∨ allocated = false ∨ bootRecord.toOption = none) :
    ∃ hr, fat16ParseBpb blockSize allocated bootRecord ctx = .ok (hr, ctx) := by
  cases blockSize with
  | error hr => exact ⟨hr, rfl⟩
  | ok size =>
    cases allocated with
    | false => exact ⟨.eOutOfMem, rfl⟩
    | true =>
      cases bootRecord with
      | error hr => exact ⟨hr, rfl⟩
      | ok bytes => simp [Except.toOption] at unread

theorem fatGetType_supported {count : Nat} :
    (fatGetType count = .fat12 ∨ fatGetType count = .fat16) ↔ count < 65525 := by
  unfold fatGetType
  split
  · simp
    omega
  · split
    · simp
      omega
    · split <;> simp <;> omega

theorem Fat16Bpb.sectors_lt (bpb : Fat16Bpb) : bpb.sectors < 2 ^ 32 := by
  have short := bpb.numSectors16_lt
  have long := bpb.numSectors32_lt
  unfold sectors
  split <;> omega

theorem Fat16Bpb.fatSectors_lt (bpb : Fat16Bpb) : bpb.fatCount * bpb.sectorsPerFat < 2 ^ 24 := by
  have product := Nat.mul_lt_mul'' bpb.fatCount_lt bpb.sectorsPerFat_lt
  omega

theorem Fat16Bpb.rootBytes (bpb : Fat16Bpb) :
    u32 (fatGetRootdirSize bpb + (bpb.bytesPerSector - 1)) =
      bpb.rootEntries * dirEntrySize + (bpb.bytesPerSector - 1) := by
  have entries := bpb.rootEntries_lt
  have bytes := bpb.bytesPerSector_lt
  unfold fatGetRootdirSize u32 dirEntrySize
  omega

/-- Subtracting one part after the other is exact if and only if all of them fit. -/
theorem subtractions_exact_iff {total a b c : Nat} (totalFits : total < 2 ^ 32) (aFits : a < 2 ^ 30)
    (bFits : b < 2 ^ 30) (cFits : c < 2 ^ 30) :
    sub32 (sub32 (sub32 total a) b) c + (a + b + c) = total ↔ a + b + c ≤ total := by
  unfold sub32 u32
  omega

theorem fat16Layout_eq (sectorPos : bpb.bytesPerSector ≠ 0)
    (clusterPos : bpb.sectorsPerCluster ≠ 0) :
    ∃ layout, fat16Layout bpb = .ok layout ∧ layout.bpb = bpb ∧
      layout.totalSectors = bpb.sectors ∧ layout.firstDataSector = bpb.sectorsBefore ∧
      layout.totalClusterCnt = layout.dataSectorCnt / bpb.sectorsPerCluster ∧
      layout.fsType = fatGetType layout.totalClusterCnt ∧
      (layout.dataSectorCnt + bpb.sectorsBefore = bpb.sectors ↔
        bpb.sectorsBefore ≤ bpb.sectors) := by
  have reserved := bpb.reservedSectors_lt
  have fats := bpb.fatSectors_lt
  have entries := bpb.rootEntries_lt
  have bytes := bpb.bytesPerSector_lt
  have root : (bpb.rootEntries * dirEntrySize + (bpb.bytesPerSector - 1)) / bpb.bytesPerSector <
      2 ^ 22 := by
    apply Nat.lt_of_le_of_lt (Nat.div_le_self _ _)
    unfold dirEntrySize
    omega
  rw [fat16Layout, if_neg sectorPos]
  dsimp only
  rw [if_neg clusterPos]
  refine ⟨_, rfl, rfl, rfl, ?_, rfl, rfl, ?_⟩
  · dsimp only
    rw [Fat16Bpb.rootBytes, Fat16Bpb.sectorsBefore]
    exact u32_of_lt (by omega)
  · dsimp only
    rw [Fat16Bpb.rootBytes]
    exact subtractions_exact_iff bpb.sectors_lt (by omega) (by omega) (by omega)

theorem fat16Layout_stuck (zero : bpb.bytesPerSector = 0 ∨ bpb.sectorsPerCluster = 0) :
    fat16Layout bpb = .error .stuck := by
  unfold fat16Layout
  by_cases bytes : bpb.bytesPerSector = 0
  · rw [if_pos bytes]
  · rw [if_neg bytes]
    exact if_pos (zero.resolve_left bytes)

theorem fat16ParseBpb_read (whole : buff.length = 512) :
    fat16ParseBpb (.ok 512) true (.ok buff) ctx = (fat16Layout (readBpb buff)).map (.sOk, ·) := by
  have long : ¬ buff.length < bootRecordSize := by
    rw [whole]
    decide
  simp only [fat16ParseBpb, if_neg long, if_true]

end

/-- A boot sector is handled as it should be if and only if its fields make sense. -/
theorem bootSectorChecked_iff {buff : List (BitVec 8)} (whole : buff.length = 512)
    (ctx : Fat16Layout) : BootSectorChecked buff ctx ↔ (readBpb buff).MakesSense := by
  rw [BootSectorChecked, fat16ParseBpb_read whole]
  by_cases zero : (readBpb buff).bytesPerSector = 0 ∨ (readBpb buff).sectorsPerCluster = 0
  · rw [fat16Layout_stuck zero]
    constructor
    · intro ⟨hr, layout, returned, _⟩
      contradiction
    · intro sense
      have divisors := sense.sectorPos
      have divisors' := sense.clusterPos
      omega
  · obtain ⟨sectorPos, clusterPos⟩ := not_or.mp zero
    obtain ⟨layout, computed, record, total, first, count, type, exact'⟩ :=
      fat16Layout_eq sectorPos clusterPos
    rw [computed]
    constructor
    · intro ⟨hr, layout', returned, fine⟩
      obtain ⟨rfl, rfl⟩ := eq_of_returned returned
      have usable := fine.resolve_left (by decide)
      have fits : (readBpb buff).sectorsBefore ≤ (readBpb buff).sectors := by
        rw [← first, ← total]
        exact usable.dataInside
      refine ⟨sectorPos, clusterPos, fits, ?_⟩
      have supported := usable.supported
      rw [type, fatGetType_supported, count, Nat.eq_sub_of_add_eq (exact'.mpr fits)] at supported
      exact supported
    · intro sense
      have data := exact'.mpr sense.fits
      refine ⟨.sOk, layout, rfl, .inr ?_⟩
      constructor
      case sectorPos =>
        rw [record]
        exact Nat.pos_of_ne_zero sectorPos
      case clusterPos =>
        rw [record]
        exact Nat.pos_of_ne_zero clusterPos
      case dataInside =>
        rw [first, total]
        exact sense.fits
      case dataSectors =>
        rw [record, total]
        exact data
      case clusters =>
        rw [record]
        exact count
      case supported =>
        rw [type, fatGetType_supported, count, Nat.eq_sub_of_add_eq data]
        exact sense.few

/-- The boot record of an empty 1.44 MB disk. -/
def floppyBootSector : List (BitVec 8) :=
  List.replicate 11 0 ++ bytesOf 2 512 ++ bytesOf 1 1 ++ bytesOf 2 1 ++ bytesOf 1 2 ++
    bytesOf 2 224 ++ bytesOf 2 2880 ++ bytesOf 1 0xF0 ++ bytesOf 2 9 ++ List.replicate 488 0

/-- The fields before a boot sector was read. -/
def unreadLayout : Fat16Layout where
  bpb := readBpb []
  fsType := .fat12
  firstDataSector := 0
  firstFatSector := 0
  firstRootSector := 0
  totalSectors := 0
  dataSectorCnt := 0
  totalClusterCnt := 0
  totalClusterCnt_lt := Nat.two_pow_pos 32

theorem bootSectorChecked_floppy : BootSectorChecked floppyBootSector unreadLayout := by
  have whole : floppyBootSector.length = 512 := by
    simp only [floppyBootSector, List.length_append, List.length_replicate, length_bytesOf]
  exact (bootSectorChecked_iff whole unreadLayout).mpr
    ⟨by decide, by decide, by decide, by decide⟩

/-- A disk that was never formatted is divided by zero. -/
theorem bootSector_not_checked : ¬ ∀ (buff : List (BitVec 8)) (ctx : Fat16Layout),
    buff.length = 512 → BootSectorChecked buff ctx := by
  intro checked
  obtain ⟨hr, layout, returned, _⟩ := checked (List.replicate 512 0) unreadLayout
    List.length_replicate
  have zero : (readBpb (List.replicate 512 0)).bytesPerSector = 0 := by decide
  rw [fat16ParseBpb_read List.length_replicate, fat16Layout_stuck (.inl zero)] at returned
  contradiction

end Antonix.Drivers
