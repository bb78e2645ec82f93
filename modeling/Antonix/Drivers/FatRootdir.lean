import Antonix.Drivers.FatDirectory

/-! # Reading the root directory (`fat16.c`)

`fat16_read_rootdir_content` reads whole sectors to where they belong.  A last sector that goes
beyond the directory is read to a buffer of its own, and the rest of the directory is copied. -/

namespace Antonix.Drivers

open Buffer LittleEndian

/-- Every read of the root directory succeeds: the storage has the sector, and there is a buffer
for a sector that is not read to `dst`. -/
structure RootReads (vol : Fat16Volume) (kmalloc : Nat → Option Block)
    (content : Nat → List (BitVec 8)) : Prop where
  sectorPos : 1 ≤ vol.layout.bpb.bytesPerSector
  storage : ∀ k, k * vol.layout.bpb.bytesPerSector < fatGetRootdirSize vol.layout.bpb →
    vol.storageDrv (u32 (vol.layout.firstRootSector + k)) 1 = .ok (content k)
  whole : ∀ k, (content k).length = vol.layout.bpb.bytesPerSector
  buffer : fatGetRootdirSize vol.layout.bpb % vol.layout.bpb.bytesPerSector ≠ 0 →
    (kmalloc vol.layout.bpb.bytesPerSector).isSome

/-- `root_sectors` -/
def rootSectorCnt (bpb : Fat16Bpb) : Nat :=
  u32 (fatGetRootdirSize bpb + bpb.bytesPerSector - 1) / bpb.bytesPerSector

/-- The first `n` sectors. -/
def rootContent (content : Nat → List (BitVec 8)) (n : Nat) : List (BitVec 8) :=
  (List.range n).flatMap content

/-- What the first `n` turns have read: `write_index` is only moved by a sector that goes straight
to `dst`. -/
def rootRead (vol : Fat16Volume) (content : Nat → List (BitVec 8)) (rootBytes n : Nat) :
    FatRead where
  sectors := (List.range n).map fun k => u32 (vol.layout.firstRootSector + k)
  writeIndex := min n (rootBytes / vol.layout.bpb.bytesPerSector) * vol.layout.bpb.bytesPerSector
  dst := put (fun _ => none) 0 ((rootContent content n).take rootBytes)

section

variable {vol : Fat16Volume} {kmalloc : Nat → Option Block} {content : Nat → List (BitVec 8)}
  {bytes rootBytes i n : Nat}

theorem rootContent_succ (content : Nat → List (BitVec 8)) (n : Nat) :
    rootContent content (n + 1) = rootContent content n ++ content n := by
  simp [rootContent, List.range_succ]

theorem length_rootContent (whole : ∀ k, (content k).length = bytes) (n : Nat) :
    (rootContent content n).length = n * bytes := by
  induction n with
  | zero => simp [rootContent]
  | succ n inductionHypothesis =>
    rw [rootContent_succ, List.length_append, inductionHypothesis, whole, Nat.succ_mul]

theorem rootBytes_eq (bpb : Fat16Bpb) :
    fatGetRootdirSize bpb = bpb.rootEntries * dirEntrySize := by
  have entries := bpb.rootEntries_lt
  rw [fatGetRootdirSize, u32_of_lt (by simp only [dirEntrySize]; omega)]

/-- The part of a sector that is in the directory goes behind the sectors before it. -/
theorem put_rootContent (whole : ∀ k, (content k).length = bytes) (before : n * bytes ≤ rootBytes) :
    put (put (fun _ => none) 0 ((rootContent content n).take rootBytes)) (n * bytes)
        ((content n).take (rootBytes - n * bytes)) =
      put (fun _ => none) 0 ((rootContent content (n + 1)).take rootBytes) := by
  have length := length_rootContent whole n
  have all : (rootContent content n).take rootBytes = rootContent content n :=
    List.take_of_length_le (by omega)
  have position : n * bytes = 0 + ((rootContent content n).map some).length := by
    rw [List.length_map, length, Nat.zero_add]
  rw [rootContent_succ, List.take_append, all, length, put, put, put, List.map_append]
  nth_rewrite 1 [position]
  exact writeAt_append

/-! ## One turn -/

theorem rootRead_writeIndex (before : i * vol.layout.bpb.bytesPerSector ≤ rootBytes)
    (sectorPos : 1 ≤ vol.layout.bpb.bytesPerSector) :
    (rootRead vol content rootBytes i).writeIndex = i * vol.layout.bpb.bytesPerSector := by
  rw [rootRead, Nat.min_eq_left ((Nat.le_div_iff_mul_le sectorPos).mpr before)]

/-- A turn reads one sector more, on either way. -/
theorem readRootSectors_turn (reads : RootReads vol kmalloc content) (left : Nat)
    (inside : i * vol.layout.bpb.bytesPerSector < fatGetRootdirSize vol.layout.bpb) :
    readRootSectors vol kmalloc (fatGetRootdirSize vol.layout.bpb) (left + 1) i
        (rootRead vol content (fatGetRootdirSize vol.layout.bpb) i) =
      readRootSectors vol kmalloc (fatGetRootdirSize vol.layout.bpb) left (i + 1)
        (rootRead vol content (fatGetRootdirSize vol.layout.bpb) (i + 1)) := by
  have sectorPos := reads.sectorPos
  have fits : fatGetRootdirSize vol.layout.bpb < 2 ^ 32 := u32_lt _
  have index := @rootRead_writeIndex vol content _ i (Nat.le_of_lt inside) sectorPos
  have next := @put_rootContent content _ _ i reads.whole (Nat.le_of_lt inside)
  have whole := reads.whole i
  rw [readRootSectors]
  rw [index, sub32_of_le (Nat.le_of_lt inside) fits, reads.storage i inside]
  by_cases full : fatGetRootdirSize vol.layout.bpb - i * vol.layout.bpb.bytesPerSector ≥
      vol.layout.bpb.bytesPerSector
  · -- a sector that is in the directory as a whole
    have after : (i + 1) * vol.layout.bpb.bytesPerSector ≤ fatGetRootdirSize vol.layout.bpb := by
      rw [Nat.succ_mul]
      omega
    have index' := @rootRead_writeIndex vol content _ (i + 1) after sectorPos
    have straight : (content i).take (fatGetRootdirSize vol.layout.bpb -
        i * vol.layout.bpb.bytesPerSector) = content i := List.take_of_length_le (by omega)
    rw [straight] at next
    rw [if_pos full]
    dsimp only
    congr 1
    have moved : u32 (i * vol.layout.bpb.bytesPerSector + vol.layout.bpb.bytesPerSector) =
        (rootRead vol content (fatGetRootdirSize vol.layout.bpb) (i + 1)).writeIndex := by
      rw [index', Nat.succ_mul]
      exact u32_of_lt (by rw [Nat.succ_mul] at after; omega)
    rw [FatRead.add, index, moved]
    simp only [rootRead, List.range_succ, List.map_append, List.map_cons, List.map_nil, next]
  · -- the last one, by way of the buffer
    have last : fatGetRootdirSize vol.layout.bpb / vol.layout.bpb.bytesPerSector = i := by
      apply Nat.div_eq_of_lt_le (Nat.le_of_lt inside)
      rw [Nat.succ_mul]
      omega
    have partly : fatGetRootdirSize vol.layout.bpb % vol.layout.bpb.bytesPerSector ≠ 0 := by
      intro none
      have all := Nat.div_add_mod (fatGetRootdirSize vol.layout.bpb) vol.layout.bpb.bytesPerSector
      rw [last, none, Nat.mul_comm] at all
      omega
    obtain ⟨buff, given⟩ := Option.isSome_iff_exists.mp (reads.buffer partly)
    have copied : readAt (writeAt buff 0 (content i)) 0 (fatGetRootdirSize vol.layout.bpb -
        i * vol.layout.bpb.bytesPerSector) = (content i).take
          (fatGetRootdirSize vol.layout.bpb - i * vol.layout.bpb.bytesPerSector) := by
      rw [← take_readAt (n := (content i).length) (by omega), readAt_writeAt]
    rw [if_neg full, given]
    dsimp only
    rw [copied]
    congr 1
    simp only [rootRead, List.range_succ, List.map_append, List.map_cons, List.map_nil, ← next,
      last, Nat.min_self, Nat.min_eq_right (Nat.le_succ i)]

/-! ## All turns -/

theorem readRootSectors_eq (reads : RootReads vol kmalloc content) (left : Nat) : ∀ i,
    (left ≠ 0 → (i + left - 1) * vol.layout.bpb.bytesPerSector <
      fatGetRootdirSize vol.layout.bpb) →
    readRootSectors vol kmalloc (fatGetRootdirSize vol.layout.bpb) left i
        (rootRead vol content (fatGetRootdirSize vol.layout.bpb) i) =
      (.ok .sOk, rootRead vol content (fatGetRootdirSize vol.layout.bpb) (i + left)) := by
  induction left with
  | zero =>
    intro i _
    rfl
  | succ left inductionHypothesis =>
    intro i inside
    have inside := inside (Nat.succ_ne_zero left)
    have here : i * vol.layout.bpb.bytesPerSector < fatGetRootdirSize vol.layout.bpb :=
      Nat.lt_of_le_of_lt (Nat.mul_le_mul_right _ (by omega)) inside
    have order : i + 1 + left = i + (left + 1) := by omega
    rw [readRootSectors_turn reads left here, inductionHypothesis (i + 1) ?_, order]
    intro _
    rwa [order]

theorem rootSectorCnt_bounds (bpb : Fat16Bpb) (sectorPos : 1 ≤ bpb.bytesPerSector) :
    fatGetRootdirSize bpb ≤ rootSectorCnt bpb * bpb.bytesPerSector ∧
      (rootSectorCnt bpb ≠ 0 →
        (rootSectorCnt bpb - 1) * bpb.bytesPerSector < fatGetRootdirSize bpb) := by
  have entries := bpb.rootEntries_lt
  have small := bpb.bytesPerSector_lt
  have size := rootBytes_eq bpb
  simp only [dirEntrySize] at size
  have count : rootSectorCnt bpb =
      (fatGetRootdirSize bpb + bpb.bytesPerSector - 1) / bpb.bytesPerSector := by
    rw [rootSectorCnt, u32_of_lt (by omega)]
  have all := Nat.div_add_mod (fatGetRootdirSize bpb + bpb.bytesPerSector - 1) bpb.bytesPerSector
  have rest := Nat.mod_lt (fatGetRootdirSize bpb + bpb.bytesPerSector - 1) sectorPos
  rw [← count, Nat.mul_comm] at all
  constructor
  · omega
  · intro nonzero
    have less : (rootSectorCnt bpb - 1) * bpb.bytesPerSector =
        rootSectorCnt bpb * bpb.bytesPerSector - bpb.bytesPerSector := by
      rw [Nat.sub_mul, Nat.one_mul]
    have more := Nat.le_mul_of_pos_left bpb.bytesPerSector (Nat.pos_of_ne_zero nonzero)
    omega

/-- What is left is a difference that does not wrap, in any number of turns and whatever the
storage answers. -/
theorem readRootSectors_writeIndex (fits : rootBytes < 2 ^ 32) (left : Nat) : ∀ i r,
    r.writeIndex ≤ rootBytes →
    (readRootSectors vol kmalloc rootBytes left i r).2.writeIndex ≤ rootBytes := by
  induction left with
  | zero =>
    intro i r below
    exact below
  | succ left inductionHypothesis =>
    intro i r below
    rw [readRootSectors, sub32_of_le below fits]
    by_cases full : rootBytes - r.writeIndex ≥ vol.layout.bpb.bytesPerSector
    · rw [if_pos full]
      cases vol.storageDrv (u32 (vol.layout.firstRootSector + i)) 1 with
      | error hr => exact below
      | ok content =>
        apply inductionHypothesis
        rw [FatRead.add]
        exact Nat.le_trans (Nat.mod_le _ _) (by omega)
    · rw [if_neg full]
      cases kmalloc vol.layout.bpb.bytesPerSector with
      | none => exact below
      | some buff =>
        cases vol.storageDrv (u32 (vol.layout.firstRootSector + i)) 1 with
        | error hr => exact below
        | ok content => exact inductionHypothesis _ _ below

theorem fat16ReadRootdirContent_eq (reads : RootReads vol kmalloc content) :
    fat16ReadRootdirContent vol kmalloc =
      (.ok .sOk, rootRead vol content (fatGetRootdirSize vol.layout.bpb)
        (rootSectorCnt vol.layout.bpb)) := by
  have sectorPos := reads.sectorPos
  have bounds := rootSectorCnt_bounds vol.layout.bpb sectorPos
  have begin : FatRead.nothing =
      rootRead vol content (fatGetRootdirSize vol.layout.bpb) 0 := by
    simp [FatRead.nothing, rootRead, rootContent, put]
  have run := readRootSectors_eq reads (rootSectorCnt vol.layout.bpb) 0
  rw [Nat.zero_add] at run
  rw [fat16ReadRootdirContent, if_neg (by omega), begin]
  exact run bounds.2

end

/-- When the reads succeed, `dst` is the first `root_entries * 32` bytes of the sectors of the root
directory and nothing else is written, and `write_index` does not go beyond them in any turn. -/
theorem fat16ReadRootdirContent_reads (vol : Fat16Volume) (kmalloc : Nat → Option Block)
    (content : Nat → List (BitVec 8)) (reads : RootReads vol kmalloc content) :
    (fat16ReadRootdirContent vol kmalloc).1 = .ok .sOk ∧
    ((rootContent content (rootSectorCnt vol.layout.bpb)).take
      (vol.layout.bpb.rootEntries * dirEntrySize)).length =
        vol.layout.bpb.rootEntries * dirEntrySize ∧
    (∀ i, (fat16ReadRootdirContent vol kmalloc).2.dst i =
      ((rootContent content (rootSectorCnt vol.layout.bpb)).take
        (vol.layout.bpb.rootEntries * dirEntrySize))[i]?) ∧
    ∀ n, (readRootSectors vol kmalloc (fatGetRootdirSize vol.layout.bpb) n 0
      .nothing).2.writeIndex ≤ fatGetRootdirSize vol.layout.bpb := by
  have bounds := rootSectorCnt_bounds vol.layout.bpb reads.sectorPos
  rw [fat16ReadRootdirContent_eq reads, ← rootBytes_eq]
  refine ⟨rfl, ?_, ?_, ?_⟩
  · rw [List.length_take, length_rootContent reads.whole]
    exact Nat.min_eq_left bounds.1
  · intro i
    simp only [rootRead, put, writeAt, Nat.zero_le, if_true, Nat.sub_zero, List.getElem?_map]
    cases ((rootContent content (rootSectorCnt vol.layout.bpb)).take
      (fatGetRootdirSize vol.layout.bpb))[i]? with
    | none => rfl
    | some byte => rfl
  · intro n
    exact readRootSectors_writeIndex (u32_lt _) n 0 _ (Nat.zero_le _)

/-- A volume with sectors of 48 bytes and two entries in the root directory. -/
def rootVolume : Fat16Volume where
  layout := {
    unreadLayout with
    bpb := readBpb (List.replicate 11 0 ++ bytesOf 2 48 ++ List.replicate 4 0 ++ bytesOf 2 2)
    firstRootSector := 7 }
  fatCache := fun _ => 0
  storageDrv := fun sector _ => .ok (List.replicate 48 (BitVec.ofNat 8 sector))

theorem rootVolume_reads : RootReads rootVolume (fun _ => some fun _ => 0)
    (fun k => List.replicate 48 (BitVec.ofNat 8 (u32 (7 + k)))) where
  sectorPos := by decide
  storage := fun _ _ => rfl
  whole := by
    intro k
    rw [List.length_replicate]
    decide
  buffer := fun _ => rfl

/-- Sixteen bytes of the second sector are in the directory. -/
theorem fat16ReadRootdirContent_two :
    (fat16ReadRootdirContent rootVolume fun _ => some fun _ => 0).2.dst 63 = some 8 ∧
    (fat16ReadRootdirContent rootVolume fun _ => some fun _ => 0).2.dst 64 = none :=
  have reads := (fat16ReadRootdirContent_reads rootVolume _ _ rootVolume_reads).2.2.1
  ⟨(reads 63).trans (by decide), (reads 64).trans (by decide)⟩

end Antonix.Drivers
