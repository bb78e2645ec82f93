import Antonix.Drivers.FatRange

/-! # Looking up a name in a directory (`fat16.c`)

`fat16_find_subentry` reads a directory into a buffer of its own and goes through the entries.
What it allocates, what it reads and how far it goes are computed apart from each other; for the
root directory the size of the buffer is `root_entries & sizeof(FAT16_DIR_ENTRY)`. -/

namespace Antonix.Drivers

open Buffer ByteMem

/-- `FAT_ATTR_VOLUMEL` -/
abbrev fatAttrVolumel : Nat := 0x08

/-- `FAT_ATTR_DIRECTORY` -/
abbrev fatAttrDirectory : Nat := 0x10

/-- `FAT16_DIR_ENTRY` of a directory to look in. -/
structure Fat16Dir extends Fat16DirEntry where
  attributes : Nat

/-- What looking up a name has done: what it has asked of `kmalloc`, read into that, and scanned of
it, and how it has ended, with the entry that it has found. -/
structure Fat16Lookup where
  asked : Option Nat
  read : FatRead
  scanned : Nat
  outcome : Except Halt (HResult × Option (List (BitVec 8)))

/-- The loop of `fat16_read_rootdir_content`, from sector `i` on; `kmalloc` returns a block with
whatever is in it. -/
def readRootSectors (vol : Fat16Volume) (kmalloc : Nat → Option Block) (rootBytes : Nat) :
    Nat → Nat → FatRead → Except Halt HResult × FatRead
  | 0, _, r => (.ok .sOk, r)
  | left + 1, i, r =>
    let sector := u32 (vol.layout.firstRootSector + i)
    let rest := sub32 rootBytes r.writeIndex
    if rest ≥ vol.layout.bpb.bytesPerSector then
      match vol.storageDrv sector 1 with
      | .error hr => (.ok hr, r)
      | .ok content =>
        readRootSectors vol kmalloc rootBytes left (i + 1)
          (r.add vol.layout.bpb.bytesPerSector sector content)
    else
      -- the end of the directory takes the way through a temporary buffer, which is not checked
      match kmalloc vol.layout.bpb.bytesPerSector with
      | none => (.error .stuck, r)
      | some buff =>
        match vol.storageDrv sector 1 with
        | .error hr => (.ok hr, r)
        | .ok content =>
          readRootSectors vol kmalloc rootBytes left (i + 1) {
            sectors := r.sectors ++ [sector]
            writeIndex := r.writeIndex
            dst := put r.dst r.writeIndex (readAt (writeAt buff 0 content) 0 rest) }

/-- `fat16_read_rootdir_content` -/
def fat16ReadRootdirContent (vol : Fat16Volume) (kmalloc : Nat → Option Block) :
    Except Halt HResult × FatRead :=
  if vol.layout.bpb.bytesPerSector = 0 then (.error .stuck, .nothing)
  else
    let rootBytes := fatGetRootdirSize vol.layout.bpb
    let rootSectors := u32 (rootBytes + vol.layout.bpb.bytesPerSector - 1) /
      vol.layout.bpb.bytesPerSector
    readRootSectors vol kmalloc rootBytes rootSectors 0 .nothing

/-- `toupper` -/
def toupper (c : BitVec 8) : BitVec 8 := if 0x61 ≤ c ∧ c ≤ 0x7A then c - 0x20 else c

/-- `fat_copy_short_filename`, as far as the terminator; `entry` is the record of the entry. -/
def fatCopyShortFilename (entry : List (BitVec 8)) : List (BitVec 8) :=
  let name := (entry.take 8).takeWhile (· ≠ 0x20)
  let ext := (entry.drop 8).take 3
  if ext.head? = some 0x20 then name else name ++ 0x2E :: ext.takeWhile (· ≠ 0x20)

/-- `stricmp(s1, s2) == 0`, where `s2` ends at its terminator. -/
def stricmpEqual (s1 s2 : List (BitVec 8)) : Bool :=
  (s1.takeWhile (· ≠ 0)).map toupper = s2.map toupper

/-- The loop of `fat16_find_subentry`, from entry `i` of the buffer on; with the number of entries
that were looked at. -/
def scanEntries (filename : List (BitVec 8)) (flagmask : Nat) (skipVlabel : Bool) :
    Nat → Nat → Block → Nat × Option (List (BitVec 8))
  | 0, i, _ => (i, none)
  | left + 1, i, buf =>
    let first := buf (i * dirEntrySize)
    if first = 0xE5 then scanEntries filename flagmask skipVlabel left (i + 1) buf
    else
      let buf := if first = 0x05 then store8 buf (i * dirEntrySize) 0xE5 else buf
      let attributes := (buf (i * dirEntrySize + 11)).toNat
      if first = 0x00 then (i + 1, none)
      else if skipVlabel ∧ attributes &&& fatAttrVolumel ≠ 0 then
        scanEntries filename flagmask skipVlabel left (i + 1) buf
      else if flagmask ≠ 0 ∧ attributes &&& flagmask ≠ flagmask then
        scanEntries filename flagmask skipVlabel left (i + 1) buf
      else if stricmpEqual (fatCopyShortFilename (readAt buf (i * dirEntrySize) dirEntrySize))
          filename then
        (i + 1, some (readAt buf (i * dirEntrySize) dirEntrySize))
      else scanEntries filename flagmask skipVlabel left (i + 1) buf

/-- What follows a read: the entries are scanned if it went well. -/
def scanDirectory (asked entryCnt : Nat) (buf : Block) (filename : List (BitVec 8))
    (flagmask : Nat) (skipVlabel : Bool) : Except Halt HResult × FatRead → Fat16Lookup
  | (.error halt, r) => ⟨some asked, r, 0, .error halt⟩
  | (.ok hr, r) =>
    if hr.failed then ⟨some asked, r, 0, .ok (hr, none)⟩
    else
      match scanEntries filename flagmask skipVlabel entryCnt 0
        (fun i => (r.dst i).getD (buf i)) with
      | (scanned, none) => ⟨some asked, r, scanned, .ok (.eNotFound, none)⟩
      | (scanned, some entry) => ⟨some asked, r, scanned, .ok (hr, some entry)⟩

/-- `content_size` of a directory. -/
def fatContentSize (vol : Fat16Volume) (dir : Fat16Dir) : Except Halt Nat := do
  let firstCluster ← fatGetFirstCluster vol.drv dir.toFat16DirEntry
  let chain ← fatCountChain vol (2 ^ 32) firstCluster
  .ok (u32 (u32 (chain * vol.layout.bpb.bytesPerSector) * vol.layout.bpb.sectorsPerCluster))

/-- `fat16_find_subentry` -/
def fat16FindSubentry (vol : Fat16Volume) (kmalloc : Nat → Option Block) (dir : Option Fat16Dir)
    (filename : List (BitVec 8)) (flagmask : Nat) (skipVlabel : Bool) : Fat16Lookup :=
  match dir with
  | none =>
    let size := vol.layout.bpb.rootEntries &&& dirEntrySize
    match kmalloc size with
    | none => ⟨some size, .nothing, 0, .ok (.eOutOfMem, none)⟩
    | some buf => scanDirectory size vol.layout.bpb.rootEntries buf filename flagmask skipVlabel
        (fat16ReadRootdirContent vol kmalloc)
  | some dir =>
    match fatContentSize vol dir with
    | .error halt => ⟨none, .nothing, 0, .error halt⟩
    | .ok contentSize =>
      if dir.attributes &&& fatAttrDirectory = 0 then
        ⟨none, .nothing, 0, .ok (.eInvalidArg, none)⟩
      else
        match kmalloc contentSize with
        | none => ⟨some contentSize, .nothing, 0, .ok (.eOutOfMem, none)⟩
        | some buf => scanDirectory contentSize (contentSize / dirEntrySize) buf filename flagmask
            skipVlabel (fat16ReadFileContentInto vol.drv dir.toFat16DirEntry 0 contentSize)

/-! ## Buffers that are large enough -/

/-- What was read and scanned was inside of what was asked of `kmalloc`. -/
structure Fat16Lookup.Inside (lookup : Fat16Lookup) : Prop where
  read : ∀ size, lookup.asked = some size → ∀ i, (lookup.read.dst i).isSome = true → i < size
  scanned : ∀ size, lookup.asked = some size → lookup.scanned * dirEntrySize ≤ size

/-- The blocks of a storage are so many bytes long. -/
def BlocksOf (blockSize : Nat) (storageDrv : Nat → Nat → Except HResult (List (BitVec 8))) : Prop :=
  ∀ sector content, storageDrv sector 1 = .ok content → content.length = blockSize

/-- On every storage with blocks of this size, and whatever is asked for: the buffer is large
enough, and a root directory that fits in memory is not refused. -/
def LooksUpSafely (vol : Fat16Volume) (blockSize : Nat) (dir : Option Fat16Dir) : Prop :=
  ∀ storageDrv, BlocksOf blockSize storageDrv → ∀ kmalloc filename flagmask skipVlabel,
    (fat16FindSubentry { vol with storageDrv } kmalloc dir filename flagmask skipVlabel).Inside ∧
    (dir = none → 0 < vol.layout.bpb.rootEntries →
      (kmalloc (vol.layout.bpb.rootEntries * dirEntrySize)).isSome = true →
      (fat16FindSubentry { vol with storageDrv } kmalloc dir filename flagmask skipVlabel).outcome ≠
        .ok (.eOutOfMem, none))

/-- Sectors of a directory are read: it has whole ones, and not so many that their number wraps
around. -/
structure ReadsSectors (vol : Fat16Volume) (dir : Fat16Dir) (size : Nat) : Prop where
  content : fatContentSize vol dir = .ok size
  directory : dir.attributes &&& fatAttrDirectory ≠ 0
  nonempty : 0 < size
  whole : vol.layout.bpb.bytesPerSector ∣ size
  fits : size / vol.layout.bpb.bytesPerSector + vol.layout.bpb.sectorsPerCluster ≤ 2 ^ 32

/-- The root directory is empty; a block of the storage is no longer than a sector of the volume,
or nothing of the directory is read. -/
def BufferFits (vol : Fat16Volume) (blockSize : Nat) : Option Fat16Dir → Prop
  | none => vol.layout.bpb.rootEntries = 0
  | some dir => blockSize ≤ vol.layout.bpb.bytesPerSector ∨ ∀ size, ¬ ReadsSectors vol dir size

section

variable {vol : Fat16Volume} {ctx : Fat16DrvContext} {entry : Fat16DirEntry} {r : FatRead}
  {filename : List (BitVec 8)} {flagmask blockSize count : Nat} {skipVlabel : Bool}

theorem nothing_inside {asked : Option Nat}
    {outcome : Except Halt (HResult × Option (List (BitVec 8)))} :
    Fat16Lookup.Inside ⟨asked, .nothing, 0, outcome⟩ where
  read := by
    intro size _ i written
    contradiction
  scanned := by
    intro size _
    dsimp only
    omega

theorem scanEntries_le (left i : Nat) (buf : Block) :
    (scanEntries filename flagmask skipVlabel left i buf).1 ≤ i + left := by
  induction left generalizing i buf with
  | zero => exact Nat.le_refl i
  | succ left inductionHypothesis =>
    have rest (buf : Block) :
        (scanEntries filename flagmask skipVlabel left (i + 1) buf).1 ≤ i + (left + 1) := by
      have := inductionHypothesis (i + 1) buf
      omega
    unfold scanEntries
    dsimp only
    split
    · exact rest _
    · generalize (if buf (i * dirEntrySize) = 0x05 then _ else buf) = buf
      split
      · exact Nat.add_le_add_left (Nat.succ_le_succ (Nat.zero_le _)) i
      · split
        · exact rest _
        · split
          · exact rest _
          · split
            · exact Nat.add_le_add_left (Nat.succ_le_succ (Nat.zero_le _)) i
            · exact rest _

theorem scanEntries_deleted {buf : Block} (deleted : ∀ i, buf i = 0xE5) (left i : Nat) :
    (scanEntries filename flagmask skipVlabel left i buf).1 = i + left := by
  induction left generalizing i with
  | zero => rfl
  | succ left inductionHypothesis =>
    unfold scanEntries
    dsimp only
    rw [if_pos (deleted _), inductionHypothesis]
    omega

theorem scanDirectory_inside {asked entryCnt : Nat} {buf : Block}
    {result : Except Halt HResult × FatRead}
    (read : ∀ i, (result.2.dst i).isSome = true → i < asked)
    (entries : entryCnt * dirEntrySize ≤ asked) :
    (scanDirectory asked entryCnt buf filename flagmask skipVlabel result).Inside := by
  obtain ⟨outcome, r⟩ := result
  have inside : ∀ scanned result, scanned ≤ entryCnt →
      Fat16Lookup.Inside ⟨some asked, r, scanned, result⟩ := by
    intro scanned result few
    constructor
    · intro size same
      rw [← Option.some.inj same]
      exact read
    · intro size same
      rw [← Option.some.inj same]
      exact Nat.le_trans (Nat.mul_le_mul_right _ few) entries
  cases outcome with
  | error halt => exact inside 0 _ (Nat.zero_le _)
  | ok hr =>
    unfold scanDirectory
    dsimp only
    split
    · exact inside 0 _ (Nat.zero_le _)
    · have few := @scanEntries_le filename flagmask skipVlabel entryCnt 0
        fun i => (r.dst i).getD (buf i)
      split
      · rename_i scanned result
        rw [result] at few
        exact inside scanned _ (by omega)
      · rename_i scanned found result
        rw [result] at few
        exact inside scanned _ (by omega)

/-! ## Subdirectories -/

/-- Where blocks are no longer than sectors, no byte is put behind what was asked for. -/
theorem ReadsInside.dst_lt (inside : ReadsInside ctx count r)
    (short : ∀ sector content, ctx.storageDrv sector 1 = .ok content →
      content.length ≤ ctx.bytesPerSector) {i : Nat} (written : (r.dst i).isSome = true) :
    i < count := by
  induction inside with
  | nothing => contradiction
  | @add r sector content _ read bound inductionHypothesis =>
    by_contra beyond
    have length := short _ content read
    have kept : (r.add ctx.bytesPerSector (u32 sector) content).dst i = r.dst i :=
      writeAt_outside (.inr (by rw [List.length_map]; omega))
    rw [kept] at written
    exact beyond (inductionHypothesis written)

theorem ReadsInside.of_zero (inside : ReadsInside ctx 0 r) (sectorPos : 0 < ctx.bytesPerSector) :
    r = .nothing := by
  cases inside with
  | nothing => rfl
  | add _ _ bound => omega

/-- A chain that was counted is there, down to its mark. -/
theorem fatCountChainLoop_clusters {lookups current counted result k : Nat}
    (returned : fatCountChainLoop vol lookups current counted = .ok result) (positive : 0 < result)
    (guarded : vol.layout.totalClusterCnt = 0 ∧ counted < 2 ^ 32 ∨
      counted < vol.layout.totalClusterCnt)
    (here : clusterAt vol.drv entry k = some current) :
    counted ≤ result ∧ (clusterAt vol.drv entry (k + (result - counted))).isSome = true := by
  induction lookups generalizing current counted k with
  | zero =>
    unfold fatCountChainLoop at returned
    obtain ⟨ends, answer, rest⟩ := exists_of_bind returned
    cases ends with
    | false => contradiction
    | true =>
      obtain rfl : counted = result := Except.ok.inj rest
      rw [Nat.sub_self, Nat.add_zero, here]
      exact ⟨Nat.le_refl _, rfl⟩
  | succ lookups inductionHypothesis =>
    unfold fatCountChainLoop at returned
    obtain ⟨ends, answer, rest⟩ := exists_of_bind returned
    cases ends with
    | true =>
      obtain rfl : counted = result := Except.ok.inj rest
      rw [Nat.sub_self, Nat.add_zero, here]
      exact ⟨Nat.le_refl _, rfl⟩
    | false =>
      obtain ⟨next, lookup⟩ := lookup_of_unmarked answer
      have small := vol.layout.totalClusterCnt_lt
      simp only [Bool.false_eq_true, if_false, lookup, bind, Except.bind] at rest
      by_cases last : u32 (counted + 1) = vol.layout.totalClusterCnt
      · rw [if_pos last] at rest
        have := Except.ok.inj rest
        omega
      · -- the counter does not come round to zero before the guard
        have counts : u32 (counted + 1) = counted + 1 := by
          unfold u32 at last ⊢
          omega
        rw [if_neg last, counts] at rest
        rw [counts] at last
        have below : counted + 1 < 2 ^ 32 := by
          rw [← counts]
          exact u32_lt _
        obtain ⟨more, there⟩ := inductionHypothesis rest (by omega) (clusterAt_succ here lookup)
        have order : k + 1 + (result - (counted + 1)) = k + (result - counted) := by omega
        rw [order] at there
        exact ⟨by omega, there⟩

/-- The sectors that a directory is said to have are sectors of its chain. -/
theorem ReadsSectors.clusters {dir : Fat16Dir} {size : Nat} (reads : ReadsSectors vol dir size) :
    ∃ n, (clusterAt vol.drv dir.toFat16DirEntry n).isSome = true ∧
      size ≤ n * vol.layout.bpb.bytesPerSector * vol.layout.bpb.sectorsPerCluster := by
  obtain ⟨first, named, rest⟩ := exists_of_bind reads.content
  obtain ⟨n, counted, rest⟩ := exists_of_bind rest
  have bytes := Except.ok.inj rest
  have atMost : size ≤ n * vol.layout.bpb.bytesPerSector * vol.layout.bpb.sectorsPerCluster := by
    rw [← bytes]
    exact Nat.le_trans (Nat.mod_le _ _) (Nat.mul_le_mul_right _ (Nat.mod_le _ _))
  have positive : 0 < n := by
    by_contra none
    have zero : n = 0 := by omega
    have nonempty := reads.nonempty
    rw [zero, Nat.zero_mul, Nat.zero_mul] at atMost
    omega
  have nonzero : first ≠ 0 := by
    intro zero
    rw [fatCountChain, if_pos zero] at counted
    have := Except.ok.inj counted
    omega
  rw [fatCountChain, if_neg nonzero] at counted
  have begins : clusterAt vol.drv dir.toFat16DirEntry 0 = some first := by
    rw [clusterAt, named]
    rfl
  have there := (fatCountChainLoop_clusters counted positive (by omega) begins).2
  rw [Nat.zero_add, Nat.sub_zero] at there
  exact ⟨n, there, atMost⟩

/-! ## The root directory -/

/-- Everything that was read is a deleted entry. -/
def AllDeleted (r : FatRead) : Prop := ∀ i byte, r.dst i = some byte → byte = 0xE5

theorem AllDeleted.put {bytes : List (BitVec 8)} {sectors : List Nat} {writeIndex : Nat}
    (all : AllDeleted r) (deleted : ∀ byte ∈ bytes, byte = 0xE5) :
    AllDeleted ⟨sectors, writeIndex, put r.dst r.writeIndex bytes⟩ := by
  intro i byte written
  dsimp only [Drivers.put] at written
  by_cases before : i < r.writeIndex
  · rw [writeAt_outside (.inl before)] at written
    exact all i byte written
  · obtain ⟨d, rfl⟩ := Nat.exists_eq_add_of_le (Nat.not_lt.mp before)
    by_cases inside : d < bytes.length
    · rw [writeAt_inside (by rwa [List.length_map]), List.getElem_map] at written
      exact deleted byte (Option.some.inj written ▸ List.getElem_mem inside)
    · rw [writeAt_outside (.inr (by rw [List.length_map]; omega))] at written
      exact all _ byte written

/-- A storage and a memory that are full of deleted entries let the root directory be read. -/
theorem readRootSectors_deleted {rootBytes left i : Nat}
    (storage : ∀ sector, ∃ content, vol.storageDrv sector 1 = .ok content ∧
      ∀ byte ∈ content, byte = 0xE5) (all : AllDeleted r) :
    ∃ r', readRootSectors vol (fun _ => some fun _ => 0xE5) rootBytes left i r = (.ok .sOk, r') ∧
      AllDeleted r' := by
  induction left generalizing i r with
  | zero => exact ⟨r, rfl, all⟩
  | succ left inductionHypothesis =>
    obtain ⟨content, read, deleted⟩ := storage (u32 (vol.layout.firstRootSector + i))
    unfold readRootSectors
    dsimp only
    rw [read]
    split
    · exact inductionHypothesis (all.put deleted)
    · refine inductionHypothesis (all.put ?_)
      intro byte member
      obtain ⟨d, inside, rfl⟩ := List.getElem_of_mem member
      rw [getElem_readAt, Nat.zero_add]
      by_cases new : d < content.length
      · have same := @writeAt_inside _ (fun _ => 0xE5) 0 d content new
        rw [Nat.zero_add] at same
        rw [same]
        exact deleted _ (List.getElem_mem new)
      · exact writeAt_outside (.inr (by omega))

/-- The buffer of a root directory that has an entry is too small for its entries. -/
theorem rootBuffer_short (entries : Nat) (some : 0 < entries) :
    ¬ entries * dirEntrySize ≤ entries &&& dirEntrySize := by
  have atMost : entries &&& dirEntrySize ≤ dirEntrySize := Nat.and_le_right
  by_cases one : entries = 1
  · rw [one]
    decide
  · unfold dirEntrySize at *
    omega

/-! ## The storage of a volume -/

theorem fatCountChainLoop_storage
    (storageDrv : Nat → Nat → Except HResult (List (BitVec 8))) (lookups current counted : Nat) :
    fatCountChainLoop { vol with storageDrv } lookups current counted =
      fatCountChainLoop vol lookups current counted := by
  induction lookups generalizing current counted with
  | zero => rfl
  | succ lookups inductionHypothesis =>
    unfold fatCountChainLoop
    simp only [inductionHypothesis]
    rfl

theorem fatContentSize_storage (storageDrv : Nat → Nat → Except HResult (List (BitVec 8)))
    (dir : Fat16Dir) : fatContentSize { vol with storageDrv } dir = fatContentSize vol dir := by
  unfold fatContentSize fatCountChain
  simp only [fatCountChainLoop_storage]
  rfl

theorem fatContentSize_lt {dir : Fat16Dir} {size : Nat}
    (content : fatContentSize vol dir = .ok size) : size < 2 ^ 32 := by
  obtain ⟨first, -, rest⟩ := exists_of_bind content
  obtain ⟨n, -, rest⟩ := exists_of_bind rest
  rw [← Except.ok.inj rest]
  exact u32_lt _

/-- Parts of sectors are not read, and of so many that their number wraps around none is. -/
theorem fat16ReadFileContentInto_nothing {start : Nat} (countFits : count < 2 ^ 32)
    (refused : ¬ ctx.bytesPerSector ∣ count ∨
      2 ^ 32 < count / ctx.bytesPerSector + ctx.sectorsPerCluster)
    (clusterSmall : ctx.sectorsPerCluster < 2 ^ 8) :
    (fat16ReadFileContentInto ctx entry start count).2 = .nothing := by
  unfold fat16ReadFileContentInto
  dsimp only
  split
  · rfl
  · split
    · rfl
    · split
      · rfl
      · rename_i aligned
        have whole : ctx.bytesPerSector ∣ count := Nat.dvd_of_mod_eq_zero (by omega)
        have wraps := refused.resolve_left (not_not_intro whole)
        have few : count / ctx.bytesPerSector ≤ count := Nat.div_le_self _ _
        have none : u32 (count / ctx.bytesPerSector + ctx.sectorsPerCluster - 1) /
            ctx.sectorsPerCluster = 0 := by
          apply Nat.div_eq_of_lt
          unfold u32
          omega
        rw [none]
        split
        · rfl
        · rfl
        · unfold readClustersInto
          split <;> rfl

theorem scanDirectory_read (asked entryCnt : Nat) (buf : Block)
    (result : Except Halt HResult × FatRead) :
    (scanDirectory asked entryCnt buf filename flagmask skipVlabel result).asked = some asked ∧
      (scanDirectory asked entryCnt buf filename flagmask skipVlabel result).read = result.2 := by
  obtain ⟨outcome, r⟩ := result
  cases outcome with
  | error halt => exact ⟨rfl, rfl⟩
  | ok hr =>
    unfold scanDirectory
    dsimp only
    split
    · exact ⟨rfl, rfl⟩
    · split <;> exact ⟨rfl, rfl⟩

theorem scanDirectory_scanned (asked entryCnt : Nat) (buf : Block) (r : FatRead) :
    (scanDirectory asked entryCnt buf filename flagmask skipVlabel (.ok .sOk, r)).scanned =
      (scanEntries filename flagmask skipVlabel entryCnt 0 fun i => (r.dst i).getD (buf i)).1 := by
  have good : ¬ HResult.sOk.failed = true := by decide
  unfold scanDirectory
  dsimp only
  rw [if_neg good]
  split <;> rename_i result <;> rw [result]

/-- The last of the sectors that are read is put where it belongs, as long as a block is. -/
theorem readLog_last {content : Nat → List (BitVec 8)} {s k : Nat} (some : 0 < k)
    (fits : k * ctx.bytesPerSector < 2 ^ 32)
    (length : ∀ sector, (content sector).length = blockSize)
    (long : ctx.bytesPerSector < blockSize) :
    ((readLog ctx entry content s k).dst (k * ctx.bytesPerSector)).isSome = true := by
  obtain ⟨q, rfl⟩ := Nat.exists_eq_add_of_lt some
  rw [Nat.zero_add] at *
  have shorter : q * ctx.bytesPerSector < 2 ^ 32 := by
    rw [Nat.succ_mul] at fits
    omega
  rw [readLog, FatRead.add]
  dsimp only
  rw [readLog_index q shorter, Nat.succ_mul, put, writeAt_inside (by rwa [List.length_map, length]),
    List.getElem_map]
  rfl

/-! ## The lookups -/

/-- In a root directory with an entry, a scan leaves the buffer. -/
theorem root_not_safe (sectorPos : 1 ≤ vol.layout.bpb.bytesPerSector)
    (nonempty : 0 < vol.layout.bpb.rootEntries) : ¬ LooksUpSafely vol blockSize none := by
  intro safe
  -- a storage and a heap that are full of deleted entries
  have blocks : BlocksOf blockSize fun _ _ => .ok (List.replicate blockSize 0xE5) := by
    intro sector content read
    rw [← Except.ok.inj read, List.length_replicate]
  have inside := (safe _ blocks (fun _ => some fun _ => 0xE5) [] 0 false).1
  have pos : ¬ vol.layout.bpb.bytesPerSector = 0 := by omega
  have empty : AllDeleted .nothing := by
    intro i byte written
    contradiction
  obtain ⟨r, read, all⟩ := @readRootSectors_deleted
    { vol with storageDrv := fun _ _ => .ok (List.replicate blockSize 0xE5) } .nothing
    (fatGetRootdirSize vol.layout.bpb)
    (u32 (fatGetRootdirSize vol.layout.bpb + vol.layout.bpb.bytesPerSector - 1) /
      vol.layout.bpb.bytesPerSector) 0
    (fun sector => ⟨_, rfl, fun byte member => List.eq_of_mem_replicate member⟩) empty
  have content : fat16ReadRootdirContent
      { vol with storageDrv := fun _ _ => .ok (List.replicate blockSize 0xE5) }
      (fun _ => some fun _ => 0xE5) = (.ok .sOk, r) := by
    rw [fat16ReadRootdirContent, if_neg pos]
    exact read
  have deleted : ∀ i, (r.dst i).getD 0xE5 = 0xE5 := by
    intro i
    cases written : r.dst i with
    | none => rfl
    | some byte => exact all i byte written
  -- every entry is looked at
  simp only [fat16FindSubentry, content] at inside
  have scanned := inside.scanned _ (scanDirectory_read _ _ _ _).1
  rw [scanDirectory_scanned, scanEntries_deleted deleted, Nat.zero_add] at scanned
  exact rootBuffer_short _ nonempty scanned

theorem root_safe (sectorPos : 1 ≤ vol.layout.bpb.bytesPerSector)
    (empty : vol.layout.bpb.rootEntries = 0) : LooksUpSafely vol blockSize none := by
  intro storageDrv blocks kmalloc filename flagmask skipVlabel
  refine ⟨?_, fun _ some => by omega⟩
  have content : fat16ReadRootdirContent { vol with storageDrv } kmalloc =
      (.ok .sOk, .nothing) := by
    have bytes : fatGetRootdirSize vol.layout.bpb = 0 := by
      rw [fatGetRootdirSize, empty]
      rfl
    have small := vol.layout.bpb.bytesPerSector_lt
    have none : u32 (0 + vol.layout.bpb.bytesPerSector - 1) /
        vol.layout.bpb.bytesPerSector = 0 := by
      apply Nat.div_eq_of_lt
      unfold u32
      omega
    rw [fat16ReadRootdirContent]
    dsimp only
    rw [if_neg (by omega), bytes, none]
    rfl
  simp only [fat16FindSubentry, content, empty]
  cases kmalloc 0 with
  | none => exact nothing_inside
  | some buf =>
    refine scanDirectory_inside ?_ (Nat.le_refl 0)
    intro i written
    contradiction

/-- What is read of a subdirectory has room where the blocks of the storage fit in its sectors. -/
theorem dir_safe {dir : Fat16Dir} (sectorPos : 1 ≤ vol.layout.bpb.bytesPerSector)
    (fits : BufferFits vol blockSize (some dir)) : LooksUpSafely vol blockSize (some dir) := by
  intro storageDrv blocks kmalloc filename flagmask skipVlabel
  refine ⟨?_, fun root => by contradiction⟩
  simp only [fat16FindSubentry, fatContentSize_storage]
  cases content : fatContentSize vol dir with
  | error halt => exact nothing_inside
  | ok size =>
    dsimp only
    split
    · exact nothing_inside
    · rename_i directory
      cases kmalloc size with
      | none => exact nothing_inside
      | some buf =>
        have sizeFits := fatContentSize_lt content
        refine scanDirectory_inside ?_ (Nat.div_mul_le_self _ _)
        intro i written
        have inside := @fat16ReadFileContentInto_inside ({ vol with storageDrv } : Fat16Volume).drv
          dir.toFat16DirEntry 0 size sizeFits
        cases fits with
        | inl short =>
          refine inside.dst_lt (fun sector content read => ?_) written
          rw [blocks sector content read]
          exact short
        | inr nothing =>
          by_cases none : size = 0
          · -- no sector has room in a buffer of no bytes
            rw [none] at inside written
            rw [inside.of_zero sectorPos] at written
            contradiction
          · have refused : ¬ vol.layout.bpb.bytesPerSector ∣ size ∨
                2 ^ 32 < size / vol.layout.bpb.bytesPerSector +
                  vol.layout.bpb.sectorsPerCluster := by
              by_contra reads
              obtain ⟨whole, few⟩ := not_or.mp reads
              exact nothing size ⟨content, directory, Nat.pos_of_ne_zero none, not_not.mp whole,
                Nat.not_lt.mp few⟩
            rw [fat16ReadFileContentInto_nothing sizeFits refused
              vol.layout.bpb.sectorsPerCluster_lt] at written
            contradiction

theorem dir_not_safe {dir : Fat16Dir} {size : Nat} (sectorPos : 1 ≤ vol.layout.bpb.bytesPerSector)
    (long : vol.layout.bpb.bytesPerSector < blockSize) (reads : ReadsSectors vol dir size) :
    ¬ LooksUpSafely vol blockSize (some dir) := by
  intro safe
  have blocks : BlocksOf blockSize fun _ _ => .ok (List.replicate blockSize 0) := by
    intro sector content read
    rw [← Except.ok.inj read, List.length_replicate]
  have inside := (safe _ blocks (fun _ => some fun _ => 0) [] 0 false).1
  generalize same : ({ vol with storageDrv := fun _ _ => .ok (List.replicate blockSize 0) } :
    Fat16Volume) = vol' at inside
  have content : fatContentSize vol' dir = .ok size := by
    rw [← same, fatContentSize_storage, reads.content]
  have layout : vol'.layout = vol.layout := by rw [← same]
  have reads' : ReadsSectors vol' dir size := by
    refine ⟨content, reads.directory, reads.nonempty, ?_, ?_⟩
    · rw [layout]
      exact reads.whole
    · rw [layout]
      exact reads.fits
  obtain ⟨n, chain, atMost⟩ := reads'.clusters
  obtain ⟨k, rfl⟩ : ∃ k, size = k * vol'.drv.bytesPerSector :=
    exists_eq_mul_left_of_dvd reads'.whole
  have pos : 0 < vol'.drv.bytesPerSector := by
    rw [Fat16Volume.drv, layout]
    exact sectorPos
  have some : 0 < k := Nat.pos_of_mul_pos_right reads'.nonempty
  have clusterPos : 0 < vol'.drv.sectorsPerCluster := by
    by_contra none
    have zero : vol'.layout.bpb.sectorsPerCluster = 0 := Nat.le_zero.mp (Nat.not_lt.mp none)
    have nonempty := reads'.nonempty
    rw [zero, Nat.mul_zero] at atMost
    omega
  have inChain : 0 + k ≤ n * vol'.drv.sectorsPerCluster := by
    rw [Nat.zero_add]
    refine Nat.le_of_mul_le_mul_right ?_ pos
    rw [Nat.mul_right_comm]
    exact atMost
  have few : k + vol'.drv.sectorsPerCluster ≤ 2 ^ 32 := by
    have fits := reads'.fits
    rwa [show k * vol'.drv.bytesPerSector / vol'.layout.bpb.bytesPerSector = k from
      Nat.mul_div_cancel k pos] at fits
  have readable : Readable vol'.drv fun _ => List.replicate blockSize 0 := by
    intro sector
    rw [← same]
    rfl
  -- all clusters are visited, so that the last sector is read
  have log := fat16ReadFileContentInto_log readable pos clusterPos (fatContentSize_lt content) few
    chain inChain
  have enough : k ≤ sectorsReached vol'.drv 0 k := by
    have whole := Nat.div_add_mod' (k + vol'.drv.sectorsPerCluster - 1) vol'.drv.sectorsPerCluster
    have rest := Nat.mod_lt (k + vol'.drv.sectorsPerCluster - 1) clusterPos
    rw [sectorsReached, Nat.zero_mod]
    omega
  rw [if_pos enough, Nat.zero_mul] at log
  have last := @readLog_last vol'.drv dir.toFat16DirEntry blockSize
    (fun _ => List.replicate blockSize 0) 0 k some (fatContentSize_lt content)
    (fun _ => List.length_replicate) (by rw [Fat16Volume.drv, layout]; exact long)
  simp only [fat16FindSubentry, content, if_neg reads.directory] at inside
  have read := inside.read _ (scanDirectory_read _ _ _ _).1 (k * vol'.drv.bytesPerSector)
  rw [(scanDirectory_read _ _ _ _).2, log] at read
  exact Nat.lt_irrefl _ (read last)

end

/-- A root directory is looked up safely if and only if it is empty; a subdirectory, on every
volume whose sectors hold the blocks of the storage, and on others if nothing is read of it. -/
theorem looksUpSafely_iff {vol : Fat16Volume} (sectorPos : 1 ≤ vol.layout.bpb.bytesPerSector)
    (blockSize : Nat) (dir : Option Fat16Dir) :
    LooksUpSafely vol blockSize dir ↔ BufferFits vol blockSize dir := by
  cases dir with
  | none =>
    refine ⟨fun safe => ?_, root_safe sectorPos⟩
    by_contra nonempty
    exact root_not_safe sectorPos (Nat.pos_of_ne_zero nonempty) safe
  | some dir =>
    refine ⟨fun safe => ?_, dir_safe sectorPos⟩
    by_cases short : blockSize ≤ vol.layout.bpb.bytesPerSector
    · exact .inl short
    · exact .inr fun size reads => dir_not_safe sectorPos (Nat.not_le.mp short) reads safe

/-- The disk with the boot record of an empty one. -/
def floppyVolume : Fat16Volume where
  layout := { unreadLayout with bpb := readBpb floppyBootSector }
  fatCache := fun _ => 0
  storageDrv := fun _ _ => .error .eFail

/-- A subdirectory on it, read from a drive with blocks of 512 bytes. -/
theorem looksUpSafely_floppy : LooksUpSafely floppyVolume 512 (some ⟨⟨0, 2, 0⟩, 0x10⟩) :=
  (looksUpSafely_iff (by decide) 512 _).mpr (.inl (by decide))

/-- Its root directory of 224 entries is read into a buffer of 32 bytes. -/
theorem looksUpSafely_not : ¬ ∀ (vol : Fat16Volume) (blockSize : Nat) (dir : Option Fat16Dir),
    1 ≤ vol.layout.bpb.bytesPerSector → LooksUpSafely vol blockSize dir := by
  intro safe
  have nonempty : 0 < floppyVolume.layout.bpb.rootEntries := by decide
  exact root_not_safe (by decide) nonempty (safe floppyVolume 512 none (by decide))

end Antonix.Drivers
