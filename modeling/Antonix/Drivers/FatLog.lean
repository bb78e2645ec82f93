import Antonix.Drivers.Fat16

/-! # The sectors that `fat16_read_file_content` reads

The loops of `fat16_read_file_content` with all they do: which sectors they read, in their order,
and where in `dst` they put them, also when the call does not end well.  `fat16ReadFileContent`
is what remains when the log is dropped. -/

namespace Antonix.Drivers

open Buffer

/-- What a call has read: the sectors, `write_index`, and what it has put to `dst`. -/
structure FatRead where
  sectors : List Nat
  writeIndex : Nat
  dst : OutBuf

/-- Nothing. -/
def FatRead.nothing : FatRead where
  sectors := []
  writeIndex := 0
  dst := fun _ => none

/-- One more sector. -/
def FatRead.add (r : FatRead) (bytesPerSector sector : Nat) (content : List (BitVec 8)) :
    FatRead where
  sectors := r.sectors ++ [sector]
  writeIndex := u32 (r.writeIndex + bytesPerSector)
  dst := put r.dst r.writeIndex content

/-- The loop over the sectors of one cluster, from sector `j` on. -/
def readSectorsInto (ctx : Fat16DrvContext) (count sector : Nat) :
    Nat → Nat → Nat → FatRead → HResult × Nat × FatRead
  | 0, _, skipSectors, r => (.sOk, skipSectors, r)
  | left + 1, j, skipSectors, r =>
    if skipSectors > 0 then readSectorsInto ctx count sector left (j + 1) (skipSectors - 1) r
    else
      match ctx.storageDrv (u32 (sector + j)) 1 with
      | .error hr => (hr, skipSectors, r)
      | .ok content =>
        let r := r.add ctx.bytesPerSector (u32 (sector + j)) content
        if r.writeIndex = count then (.sOk, skipSectors, r)
        else readSectorsInto ctx count sector left (j + 1) skipSectors r

/-- The loop over the clusters. -/
def readClustersInto (ctx : Fat16DrvContext) (count : Nat) :
    Nat → Nat → Nat → FatRead → Except Halt HResult × FatRead
  | 0, _, _, r =>
    if r.writeIndex ≠ count then (.error (.panic "fat16_read_file_content(): Unexpected."), r)
    else (.ok .sOk, r)
  | clusters + 1, clusterId, skipSectors, r =>
    match readSectorsInto ctx count (clusterSector ctx clusterId) ctx.sectorsPerCluster 0
      skipSectors r with
    | (hr, skipSectors, r) =>
      if hr.failed then (.ok hr, r)
      else
        match fat16FatLookup ctx clusterId with
        | .error halt => (.error halt, r)
        | .ok (.error _) => (.ok .eFail, r)
        | .ok (.ok next) => readClustersInto ctx count clusters next skipSectors r

/-- `fat16_read_file_content` -/
def fat16ReadFileContentInto (ctx : Fat16DrvContext) (entry : Fat16DirEntry) (start count : Nat) :
    Except Halt HResult × FatRead :=
  if ctx.bytesPerSector = 0 ∨ ctx.sectorsPerCluster = 0 then (.error .stuck, .nothing)
  else
    let skipSectors := start / ctx.bytesPerSector
    let countSectors := count / ctx.bytesPerSector
    let countClusters := u32 (countSectors + ctx.sectorsPerCluster - 1) / ctx.sectorsPerCluster
    match fatGetFirstCluster ctx entry with
    | .error halt => (.error halt, .nothing)
    | .ok clusterId =>
      if start % ctx.bytesPerSector ≠ 0 ∨ count % ctx.bytesPerSector ≠ 0 then
        (.ok .eInvalidArg, .nothing)
      else
        match skipClusters ctx skipSectors skipSectors clusterId with
        | .error halt => (.error halt, .nothing)
        | .ok (.error hr) => (.ok hr, .nothing)
        | .ok (.ok (skipSectors, clusterId)) =>
          readClustersInto ctx count countClusters clusterId skipSectors .nothing

/-! ## What a log can hold -/

/-- The sectors that a call has read on a storage, one after the other, each of them where
`write_index` was and inside of the `count` bytes asked for. -/
inductive ReadsInside (ctx : Fat16DrvContext) (count : Nat) : FatRead → Prop
  | nothing : ReadsInside ctx count .nothing
  | add {r : FatRead} {sector : Nat} {content : List (BitVec 8)} :
      ReadsInside ctx count r → ctx.storageDrv (u32 sector) 1 = .ok content →
      r.writeIndex + ctx.bytesPerSector ≤ count →
      ReadsInside ctx count (r.add ctx.bytesPerSector (u32 sector) content)

/-- A block of the storage is a sector of the volume. -/
def Blocks (ctx : Fat16DrvContext) : Prop :=
  ∀ sector content, ctx.storageDrv (u32 sector) 1 = .ok content →
    content.length = ctx.bytesPerSector

/-- So many sectors are read, and fewer than asked for. -/
structure Unfinished (ctx : Fat16DrvContext) (k q : Nat) (r : FatRead) : Prop where
  reads : ReadsInside ctx (k * ctx.bytesPerSector) r
  index : r.writeIndex = q * ctx.bytesPerSector
  more : q ≤ k

section

variable {ctx : Fat16DrvContext} {entry : Fat16DirEntry} {r : FatRead} {k q : Nat}

theorem Unfinished.add {sector : Nat} {content : List (BitVec 8)}
    (unfinished : Unfinished ctx k q r) (short : q < k) (fits : k * ctx.bytesPerSector < 2 ^ 32)
    (read : ctx.storageDrv (u32 sector) 1 = .ok content) :
    Unfinished ctx k (q + 1) (r.add ctx.bytesPerSector (u32 sector) content) := by
  have inside : (q + 1) * ctx.bytesPerSector ≤ k * ctx.bytesPerSector :=
    Nat.mul_le_mul_right _ short
  rw [Nat.succ_mul, ← unfinished.index] at inside
  refine ⟨unfinished.reads.add read inside, ?_, short⟩
  rw [FatRead.add, Nat.succ_mul, ← unfinished.index]
  exact u32_of_lt (by omega)

/-- The loop over a cluster reads some of the sectors that are asked for. -/
theorem readSectorsInto_inside {sector left j o : Nat} (unfinished : Unfinished ctx k q r)
    (short : q < k) (fits : k * ctx.bytesPerSector < 2 ^ 32) :
    ∃ q' ≤ q + left, Unfinished ctx k q'
      (readSectorsInto ctx (k * ctx.bytesPerSector) sector left j o r).2.2 := by
  induction left generalizing j o q r with
  | zero => exact ⟨q, Nat.le_refl _, unfinished⟩
  | succ left inductionHypothesis =>
    unfold readSectorsInto
    by_cases skip : o > 0
    · rw [if_pos skip]
      obtain ⟨q', few, rest⟩ := inductionHypothesis unfinished short
      exact ⟨q', by omega, rest⟩
    · rw [if_neg skip]
      cases read : ctx.storageDrv (u32 (sector + j)) 1 with
      | error hr => exact ⟨q, by omega, unfinished⟩
      | ok content =>
        have next := unfinished.add short fits read
        dsimp only
        split
        · exact ⟨q + 1, by omega, next⟩
        · rename_i open'
          have more : q + 1 < k := by
            by_contra last
            have all : q + 1 = k := by omega
            rw [next.index, all] at open'
            contradiction
          obtain ⟨q', few, rest⟩ := inductionHypothesis next more
          exact ⟨q', by omega, rest⟩

/-- The loop over the clusters reads nothing behind what is asked for, if it does not go around
too often. -/
theorem readClustersInto_inside {clusters clusterId o : Nat} (unfinished : Unfinished ctx k q r)
    (few : q + clusters * ctx.sectorsPerCluster ≤ k + ctx.sectorsPerCluster - 1)
    (clusterPos : 0 < ctx.sectorsPerCluster) (fits : k * ctx.bytesPerSector < 2 ^ 32) :
    ReadsInside ctx (k * ctx.bytesPerSector)
      (readClustersInto ctx (k * ctx.bytesPerSector) clusters clusterId o r).2 := by
  induction clusters generalizing clusterId o q r with
  | zero =>
    unfold readClustersInto
    split <;> exact unfinished.reads
  | succ clusters inductionHypothesis =>
    rw [Nat.succ_mul] at few
    obtain ⟨q', bound, next⟩ := @readSectorsInto_inside ctx r k q (clusterSector ctx clusterId)
      ctx.sectorsPerCluster 0 o unfinished (by omega) fits
    unfold readClustersInto
    dsimp only
    split
    · exact next.reads
    · split
      · exact next.reads
      · exact next.reads
      · exact inductionHypothesis next (by omega)

theorem nothing_unfinished (ctx : Fat16DrvContext) (k : Nat) : Unfinished ctx k 0 .nothing where
  reads := .nothing
  index := (Nat.zero_mul _).symm
  more := Nat.zero_le k

/-- The clusters that the call counts, and no wrap-around makes them more. -/
theorem countClusters_le (k spc : Nat) : u32 (k + spc - 1) / spc * spc ≤ k + spc - 1 :=
  Nat.le_trans (Nat.div_mul_le_self _ _) (Nat.mod_le _ _)

/-- No call reads anything behind what it was asked for. -/
theorem fat16ReadFileContentInto_inside {start count : Nat} (fits : count < 2 ^ 32) :
    ReadsInside ctx count (fat16ReadFileContentInto ctx entry start count).2 := by
  unfold fat16ReadFileContentInto
  dsimp only
  split
  · exact .nothing
  · rename_i nonzero
    split
    · exact .nothing
    · split
      · exact .nothing
      · rename_i aligned
        split
        · exact .nothing
        · exact .nothing
        · -- the sectors are whole, and the clusters counted for them are not too many
          have clusterPos : 0 < ctx.sectorsPerCluster := by omega
          have whole : count / ctx.bytesPerSector * ctx.bytesPerSector = count :=
            Nat.div_mul_cancel (Nat.dvd_of_mod_eq_zero (by omega))
          have inside := @readClustersInto_inside ctx .nothing (count / ctx.bytesPerSector) 0
          rw [whole] at inside
          refine inside (nothing_unfinished ctx _) ?_ clusterPos fits
          rw [Nat.zero_add]
          exact countClusters_le _ _

/-! ## Without the log -/

/-- The bytes that a call has put to `dst`. -/
def FatRead.bytes (r : FatRead) : List (BitVec 8) :=
  (List.range r.writeIndex).map fun i => (r.dst i).getD 0

theorem FatRead.length_bytes (r : FatRead) : r.bytes.length = r.writeIndex := by
  simp [FatRead.bytes]

theorem FatRead.bytes_add {sector : Nat} {content : List (BitVec 8)}
    (length : content.length = ctx.bytesPerSector)
    (fits : r.writeIndex + ctx.bytesPerSector < 2 ^ 32) :
    (r.add ctx.bytesPerSector sector content).bytes = r.bytes ++ content := by
  have index : (r.add ctx.bytesPerSector sector content).writeIndex =
      r.writeIndex + content.length := by
    rw [length]
    exact u32_of_lt fits
  apply List.ext_getElem
  · rw [length_bytes, index, List.length_append, length_bytes]
  · intro i below below'
    rw [length_bytes, index] at below
    simp only [FatRead.bytes, List.getElem_map, List.getElem_range, FatRead.add, put]
    by_cases old : i < r.writeIndex
    · rw [writeAt_outside (.inl old), List.getElem_append_left (by simpa using old)]
      simp
    · obtain ⟨d, rfl⟩ := Nat.exists_eq_add_of_le (Nat.not_lt.mp old)
      rw [writeAt_inside (by simpa using (by omega : d < content.length)),
        List.getElem_append_right (by simp)]
      simp

theorem readSectors_eq {sector left j o : Nat} (unfinished : Unfinished ctx k q r) (short : q < k)
    (fits : k * ctx.bytesPerSector < 2 ^ 32)
    (blocks : Blocks ctx) :
    readSectors ctx (k * ctx.bytesPerSector) sector left j o r.bytes =
      ((readSectorsInto ctx (k * ctx.bytesPerSector) sector left j o r).1,
        (readSectorsInto ctx (k * ctx.bytesPerSector) sector left j o r).2.1,
        (readSectorsInto ctx (k * ctx.bytesPerSector) sector left j o r).2.2.bytes) := by
  induction left generalizing j o q r with
  | zero => rfl
  | succ left inductionHypothesis =>
    unfold readSectors readSectorsInto
    by_cases skip : o > 0
    · rw [if_pos skip, if_pos skip]
      exact inductionHypothesis unfinished short
    · rw [if_neg skip, if_neg skip]
      cases read : ctx.storageDrv (u32 (sector + j)) 1 with
      | error hr => rfl
      | ok content =>
        have next := unfinished.add short fits read
        have inside : r.writeIndex + ctx.bytesPerSector ≤ k * ctx.bytesPerSector := by
          rw [unfinished.index, ← Nat.succ_mul]
          exact Nat.mul_le_mul_right _ short
        have longer : (r.add ctx.bytesPerSector (u32 (sector + j)) content).bytes =
            r.bytes ++ content := FatRead.bytes_add (blocks _ _ read) (by omega)
        dsimp only
        rw [← longer, FatRead.length_bytes]
        by_cases last : (r.add ctx.bytesPerSector (u32 (sector + j)) content).writeIndex =
            k * ctx.bytesPerSector
        · rw [if_pos last, if_pos last]
        · rw [if_neg last, if_neg last]
          have more : q + 1 < k := by
            by_contra stop
            have all : q + 1 = k := by omega
            rw [next.index, all] at last
            contradiction
          exact inductionHypothesis next more

theorem readClusters_eq {clusters clusterId o : Nat} (unfinished : Unfinished ctx k q r)
    (few : q + clusters * ctx.sectorsPerCluster ≤ k + ctx.sectorsPerCluster - 1)
    (clusterPos : 0 < ctx.sectorsPerCluster) (fits : k * ctx.bytesPerSector < 2 ^ 32)
    (blocks : Blocks ctx) :
    readClusters ctx (k * ctx.bytesPerSector) clusters clusterId o r.bytes =
      (readClustersInto ctx (k * ctx.bytesPerSector) clusters clusterId o r).1.map
        (·, (readClustersInto ctx (k * ctx.bytesPerSector) clusters clusterId o r).2.bytes) := by
  induction clusters generalizing clusterId o q r with
  | zero =>
    unfold readClusters readClustersInto
    rw [FatRead.length_bytes]
    split <;> rfl
  | succ clusters inductionHypothesis =>
    rw [Nat.succ_mul] at few
    obtain ⟨q', bound, next⟩ := @readSectorsInto_inside ctx r k q (clusterSector ctx clusterId)
      ctx.sectorsPerCluster 0 o unfinished (by omega) fits
    unfold readClusters readClustersInto
    rw [readSectors_eq unfinished (by omega) fits blocks]
    dsimp only
    split
    · rfl
    · cases fat16FatLookup ctx clusterId with
      | error halt => rfl
      | ok found =>
        cases found with
        | error hr => rfl
        | ok c => exact inductionHypothesis next (by omega)

/-- Without its log a call returns what `fat16ReadFileContent` does. -/
theorem fat16ReadFileContent_eq_into {start count : Nat} (fits : count < 2 ^ 32)
    (blocks : Blocks ctx) :
    fat16ReadFileContent ctx entry start count =
      (fat16ReadFileContentInto ctx entry start count).1.map
        (·, (fat16ReadFileContentInto ctx entry start count).2.bytes) := by
  unfold fat16ReadFileContent fat16ReadFileContentInto
  dsimp only
  by_cases zero : ctx.bytesPerSector = 0 ∨ ctx.sectorsPerCluster = 0
  · rw [if_pos zero, if_pos zero]
    rfl
  · rw [if_neg zero, if_neg zero]
    cases fatGetFirstCluster ctx entry with
    | error halt => rfl
    | ok clusterId =>
      simp only [bind, Except.bind]
      by_cases misaligned : start % ctx.bytesPerSector ≠ 0 ∨ count % ctx.bytesPerSector ≠ 0
      · rw [if_pos misaligned, if_pos misaligned]
        rfl
      · rw [if_neg misaligned, if_neg misaligned]
        cases skipClusters ctx (start / ctx.bytesPerSector) (start / ctx.bytesPerSector)
          clusterId with
        | error halt => rfl
        | ok skipped =>
          cases skipped with
          | error hr => rfl
          | ok there =>
            have whole : count / ctx.bytesPerSector * ctx.bytesPerSector = count :=
              Nat.div_mul_cancel (Nat.dvd_of_mod_eq_zero (by omega))
            have same := @readClusters_eq ctx .nothing (count / ctx.bytesPerSector) 0
            rw [whole] at same
            refine same (nothing_unfinished ctx _) ?_ (by omega) fits blocks
            rw [Nat.zero_add]
            exact countClusters_le _ _

end

end Antonix.Drivers
