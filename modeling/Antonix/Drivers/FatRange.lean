import Mathlib.Data.List.Perm.Subperm
import Antonix.Drivers.FatRead
import Antonix.Drivers.FatChain

/-! # Reading a range of a chain (`fat16.c`)

A range of whole sectors of any chain, wherever in a cluster it starts.  The clusters to visit
are counted from the length of the range alone. -/

namespace Antonix.Drivers

open Buffer ByteMem Chains LittleEndian

/-- The range of the chain, and nothing else, is in `dst`, and each of its sectors has been read
once, in order. -/
structure ReadsRange (vol : Fat16Volume) (entry : Fat16DirEntry) (image : Block)
    (start count : Nat) : Prop where
  returns : (fat16ReadFileContentInto vol.drv entry start count).1 = .ok .sOk
  content : (fat16ReadFileContentInto vol.drv entry start count).2.dst =
    put (fun _ => none) 0 (readAt (fatContent vol.drv entry image) start count)
  once : (fat16ReadFileContentInto vol.drv entry start count).2.sectors =
    (List.range (count / vol.drv.bytesPerSector)).map fun i =>
      fatSector vol.drv entry (start / vol.drv.bytesPerSector + i)

/-- A FAT12 or FAT16 volume whose storage holds the image. -/
structure Fat16Volume.Holds (vol : Fat16Volume) (image : Block) : Prop where
  fat : vol.layout.fsType = .fat12 ∨ vol.layout.fsType = .fat16
  sectorPos : 1 ≤ vol.layout.bpb.bytesPerSector
  clusterPos : 1 ≤ vol.layout.bpb.sectorsPerCluster
  storage : ∀ sector < 2 ^ 32, vol.storageDrv sector 1 =
    .ok (readAt image (sector * vol.layout.bpb.bytesPerSector) vol.layout.bpb.bytesPerSector)

section

variable {vol : Fat16Volume} {entry : Fat16DirEntry} {image : Block} {first c k : Nat}
  {clusters : List Nat}

/-- The clusters of a chain are those that a read follows, and the mark behind the last of them is
looked up, too. -/
theorem clusterAt_chain (linked : Chain (fatNext vol.drv) (some c) clusters)
    (unmarked : ∀ c ∈ clusters, fatIsEndOfChain vol.drv c = .ok false)
    (here : clusterAt vol.drv entry k = some c) :
    (clusterAt vol.drv entry (k + clusters.length)).isSome = true := by
  induction clusters generalizing c k with
  | nil => cases linked
  | cons d rest inductionHypothesis =>
    cases linked with
    | cons tail =>
      obtain ⟨next, lookup, follows⟩ := link_of_chain (unmarked d List.mem_cons_self) tail
      have after : clusterAt vol.drv entry (k + 1) = some next := clusterAt_succ here lookup
      rw [List.length_cons]
      cases follows with
      | inl last =>
        rw [last.1, List.length_nil, Nat.zero_add, after]
        rfl
      | inr more =>
        have rest' := inductionHypothesis more.2
          (fun x member => unmarked x (List.mem_cons_of_mem _ member)) after
        have order : k + 1 + rest.length = k + (rest.length + 1) := by omega
        rwa [order] at rest'

/-- A FAT12 or FAT16 volume has fewer than `2 ^ 16` clusters to chain. -/
theorem FatChain.length_lt (chain : FatChain vol first clusters)
    (fat : vol.layout.fsType = .fat12 ∨ vol.layout.fsType = .fat16) :
    clusters.length < 2 ^ 16 := by
  have small : ∀ c ∈ clusters, c < 0xFFF7 := by
    intro c member
    have unmarked := chain.unmarked c member
    cases fat with
    | inl fat12 =>
      have type : vol.drv.fsType = .fat12 := fat12
      simp only [fatIsEndOfChain, type, Except.ok.injEq, decide_eq_false_iff_not] at unmarked
      omega
    | inr fat16 =>
      have type : vol.drv.fsType = .fat16 := fat16
      simp only [fatIsEndOfChain, type, Except.ok.injEq, decide_eq_false_iff_not] at unmarked
      omega
  have subset : clusters ⊆ List.range 0xFFF7 := fun c member =>
    List.mem_range.mpr (small c member)
  have length := (chain.distinct.subperm subset).length_le
  rw [List.length_range] at length
  omega

theorem Fat16Volume.Holds.readable (holds : vol.Holds image) :
    Readable vol.drv fun sector =>
      readAt image (sector * vol.drv.bytesPerSector) vol.drv.bytesPerSector :=
  fun sector => holds.storage (u32 sector) (u32_lt sector)

end

/-- A range of a chain is read as it should be if and only if the clusters counted for its length
reach its end. -/
theorem readsRange_iff {vol : Fat16Volume} {entry : Fat16DirEntry} {image : Block}
    {first start count : Nat} {clusters : List Nat} (holds : vol.Holds image)
    (named : fatGetFirstCluster vol.drv entry = .ok first) (chain : FatChain vol first clusters)
    (covers : start + count ≤ clusters.length *
      (vol.layout.bpb.sectorsPerCluster * vol.layout.bpb.bytesPerSector))
    (startWhole : vol.layout.bpb.bytesPerSector ∣ start)
    (countWhole : vol.layout.bpb.bytesPerSector ∣ count) (countFits : count < 2 ^ 32) :
    ReadsRange vol entry image start count ↔ FatComplete vol.drv start count := by
  have sectorPos : 0 < vol.drv.bytesPerSector := holds.sectorPos
  have clusterPos : 0 < vol.drv.sectorsPerCluster := holds.clusterPos
  have clusterSmall : vol.drv.sectorsPerCluster < 2 ^ 8 := vol.layout.bpb.sectorsPerCluster_lt
  obtain ⟨s, rfl⟩ : ∃ s, start = s * vol.drv.bytesPerSector := exists_eq_mul_left_of_dvd startWhole
  obtain ⟨k, rfl⟩ : ∃ k, count = k * vol.drv.bytesPerSector := exists_eq_mul_left_of_dvd countWhole
  have begins : clusterAt vol.drv entry 0 = some first := by
    rw [clusterAt, named]
    rfl
  have followed := clusterAt_chain chain.linked chain.unmarked begins
  rw [Nat.zero_add] at followed
  -- the sectors are sectors of the chain, and there are not so many of them
  have inChain : s + k ≤ clusters.length * vol.drv.sectorsPerCluster := by
    have bytes : (s + k) * vol.drv.bytesPerSector ≤
        clusters.length * vol.drv.sectorsPerCluster * vol.drv.bytesPerSector := by
      rw [Nat.add_mul, Nat.mul_assoc]
      exact covers
    exact Nat.le_of_mul_le_mul_right bytes sectorPos
  have few : clusters.length * vol.drv.sectorsPerCluster < 2 ^ 16 * 2 ^ 8 :=
    Nat.mul_lt_mul'' (chain.length_lt holds.fat) clusterSmall
  have log := fat16ReadFileContentInto_log holds.readable sectorPos clusterPos countFits
    (by omega) followed inChain
  rw [fatComplete_iff sectorPos]
  by_cases enough : k ≤ sectorsReached vol.drv s k
  · rw [if_pos enough] at log
    refine ⟨fun _ => enough, fun _ => ?_⟩
    constructor
    case returns => rw [log]
    case content =>
      rw [log]
      exact readLog_dst sectorPos k countFits
    case once =>
      rw [log, Nat.mul_div_cancel _ sectorPos, Nat.mul_div_cancel _ sectorPos]
      exact readLog_sectors k
  · rw [if_neg enough] at log
    refine ⟨fun reads => ?_, fun complete => absurd complete enough⟩
    have returned := reads.returns
    rw [log] at returned
    contradiction

/-! ## A file of two clusters -/

/-- A volume with sectors of one byte, two of them in a cluster, and a file in clusters 2 and 3. -/
def smallVolume : Fat16Volume where
  layout := {
    unreadLayout with
    bpb := readBpb (List.replicate 11 0 ++ bytesOf 2 1 ++ bytesOf 1 2)
    totalClusterCnt := 3
    totalClusterCnt_lt := by decide }
  fatCache := fun i => if i = 3 then 0x03 else if i = 4 then 0xF0 else 0xFF
  storageDrv := fun sector _ => .ok [BitVec.ofNat 8 sector]

theorem smallVolume_holds : smallVolume.Holds (BitVec.ofNat 8) where
  fat := .inl rfl
  sectorPos := by decide
  clusterPos := by decide
  storage := by
    intro sector _
    have size : smallVolume.layout.bpb.bytesPerSector = 1 := by decide
    rw [size, Nat.mul_one]
    rfl

theorem smallVolume_chain : FatChain smallVolume 2 [2, 3] where
  linked := by
    have second : fatNext smallVolume.drv 2 = some 3 := by decide +kernel
    have last : fatNext smallVolume.drv 3 = none := by decide +kernel
    apply Chain.cons
    rw [second]
    apply Chain.cons
    rw [last]
    exact .nil
  unmarked := by decide +kernel
  data := by decide +kernel
  distinct := by decide

/-- The file of the two clusters. -/
def smallEntry : Fat16DirEntry where
  firstClustHigh := 0
  firstClustLow := 2
  size := 4

/-- The first three sectors. -/
theorem readsRange_first : ReadsRange smallVolume smallEntry (BitVec.ofNat 8) 0 3 :=
  (readsRange_iff smallVolume_holds rfl smallVolume_chain (by decide) (by decide) (by decide)
    (by decide)).mpr (.inr (by decide))

/-- The two sectors in the middle are sectors of two clusters, and one cluster is counted. -/
theorem readsRange_not : ¬ ∀ (vol : Fat16Volume) (entry : Fat16DirEntry) (image : Block)
    (first start count : Nat) (clusters : List Nat), vol.Holds image →
    fatGetFirstCluster vol.drv entry = .ok first → FatChain vol first clusters →
    start + count ≤ clusters.length *
      (vol.layout.bpb.sectorsPerCluster * vol.layout.bpb.bytesPerSector) →
    vol.layout.bpb.bytesPerSector ∣ start → vol.layout.bpb.bytesPerSector ∣ count →
    count < 2 ^ 32 → ReadsRange vol entry image start count := by
  intro reads
  have returned := (reads smallVolume smallEntry (BitVec.ofNat 8) 2 1 2 [2, 3] smallVolume_holds
    rfl smallVolume_chain (by decide) (by decide) (by decide) (by decide)).returns
  revert returned
  decide +kernel

end Antonix.Drivers
