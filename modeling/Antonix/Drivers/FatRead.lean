import Antonix.Drivers.FatLog

/-! # What `fat16_read_file_content` reads

The loops read the sectors of the file in order: behind each of them the bytes so far
are the content of whole sectors, from the first one asked for. -/

namespace Antonix.Drivers

open Buffer

section

variable {ctx : Fat16DrvContext} {entry : Fat16DirEntry} {image : Block}
  {a c j k left o q s : Nat} {content : Nat → List (BitVec 8)}

/-! ## One cluster -/

theorem readAt_fatSector (pos : 0 < ctx.bytesPerSector) :
    readAt image (fatSector ctx entry s * ctx.bytesPerSector) ctx.bytesPerSector =
      readAt (fatContent ctx entry image) (s * ctx.bytesPerSector) ctx.bytesPerSector := by
  apply readAt_congr
  intro i inside
  have sector : (s * ctx.bytesPerSector + i) / ctx.bytesPerSector = s := by
    rw [Nat.mul_comm, Nat.mul_add_div pos, Nat.div_eq_of_lt inside, Nat.add_zero]
  have offset : (s * ctx.bytesPerSector + i) % ctx.bytesPerSector = i := by
    rw [Nat.mul_comm, Nat.mul_add_mod, Nat.mod_eq_of_lt inside]
  rw [fatContent, sector, offset]

theorem fatSector_eq (clusterPos : 0 < ctx.sectorsPerCluster)
    (here : clusterAt ctx entry a = some c) (inside : j < ctx.sectorsPerCluster) :
    fatSector ctx entry (a * ctx.sectorsPerCluster + j) = u32 (clusterSector ctx c + j) := by
  have cluster : (a * ctx.sectorsPerCluster + j) / ctx.sectorsPerCluster = a := by
    rw [Nat.mul_comm, Nat.mul_add_div clusterPos, Nat.div_eq_of_lt inside, Nat.add_zero]
  have sector : (a * ctx.sectorsPerCluster + j) % ctx.sectorsPerCluster = j := by
    rw [Nat.mul_comm, Nat.mul_add_mod, Nat.mod_eq_of_lt inside]
  rw [fatSector, cluster, sector, here]
  rfl

/-- The log of a read of the file, from sector `s` on. -/
def readLog (ctx : Fat16DrvContext) (entry : Fat16DirEntry) (content : Nat → List (BitVec 8))
    (s : Nat) : Nat → FatRead
  | 0 => .nothing
  | q + 1 => (readLog ctx entry content s q).add ctx.bytesPerSector (fatSector ctx entry (s + q))
      (content (fatSector ctx entry (s + q)))

/-- Every sector of the storage can be read. -/
def Readable (ctx : Fat16DrvContext) (content : Nat → List (BitVec 8)) : Prop :=
  ∀ sector, ctx.storageDrv (u32 sector) 1 = .ok (content (u32 sector))

theorem readLog_index (q : Nat) (fits : q * ctx.bytesPerSector < 2 ^ 32) :
    (readLog ctx entry content s q).writeIndex = q * ctx.bytesPerSector := by
  induction q with
  | zero => exact (Nat.zero_mul _).symm
  | succ q inductionHypothesis =>
    rw [Nat.succ_mul] at fits ⊢
    rw [readLog, FatRead.add, inductionHypothesis (by omega)]
    exact u32_of_lt fits

theorem readLog_sectors (q : Nat) :
    (readLog ctx entry content s q).sectors =
      (List.range q).map fun i => fatSector ctx entry (s + i) := by
  induction q with
  | zero => rfl
  | succ q inductionHypothesis =>
    rw [readLog, FatRead.add, inductionHypothesis, List.range_succ, List.map_append]
    rfl

theorem readSectorsInto_skip {r : FatRead} (count sector : Nat) :
    readSectorsInto ctx count sector (o + left) j o r =
      readSectorsInto ctx count sector left (j + o) 0 r := by
  induction o generalizing j with
  | zero => simp
  | succ o inductionHypothesis =>
    have split : o + 1 + left = (o + left) + 1 := by omega
    rw [split, readSectorsInto, if_pos (Nat.succ_pos o), Nat.add_sub_cancel, inductionHypothesis]
    congr 1
    omega

/-- The rest of a cluster is read, or as much of it as is asked for. -/
theorem readSectorsInto_log (readable : Readable ctx content) (sectorPos : 0 < ctx.bytesPerSector)
    (clusterPos : 0 < ctx.sectorsPerCluster) (fits : k * ctx.bytesPerSector < 2 ^ 32)
    (here : clusterAt ctx entry a = some c) (inside : j + left ≤ ctx.sectorsPerCluster)
    (next : s + q = a * ctx.sectorsPerCluster + j) (more : q < k) :
    readSectorsInto ctx (k * ctx.bytesPerSector) (clusterSector ctx c) left j 0
        (readLog ctx entry content s q) =
      (.sOk, 0, readLog ctx entry content s (min k (q + left))) := by
  induction left generalizing j q with
  | zero => rw [readSectorsInto, Nat.add_zero, Nat.min_eq_right (Nat.le_of_lt more)]
  | succ left inductionHypothesis =>
    have sector : u32 (clusterSector ctx c + j) = fatSector ctx entry (s + q) := by
      rw [next]
      exact (fatSector_eq clusterPos here (by omega)).symm
    have index := @readLog_index ctx entry s content (q + 1)
      (Nat.lt_of_le_of_lt (Nat.mul_le_mul_right _ more) fits)
    have read := readable (clusterSector ctx c + j)
    rw [sector] at read
    rw [readSectorsInto, if_neg (Nat.lt_irrefl 0), sector, read]
    dsimp only
    rw [← readLog, Nat.succ_eq_add_one, index]
    by_cases last : q + 1 = k
    · -- enough is read, and the loop breaks
      have least : min k (q + (left + 1)) = k := Nat.min_eq_left (by omega)
      rw [if_pos (by rw [last]), least, last]
    · have short : ¬ (q + 1) * ctx.bytesPerSector = k * ctx.bytesPerSector := fun same =>
        last (Nat.eq_of_mul_eq_mul_right sectorPos same)
      have order : q + 1 + left = q + (left + 1) := by omega
      rw [if_neg short, inductionHypothesis (by omega) (by omega) (by omega), order]

/-! ## The clusters -/

/-- The sectors are read if the clusters that are left reach them, and else the kernel panics. -/
theorem readClustersInto_log {n : Nat} (clusters : Nat) (readable : Readable ctx content)
    (sectorPos : 0 < ctx.bytesPerSector) (clusterPos : 0 < ctx.sectorsPerCluster)
    (fits : k * ctx.bytesPerSector < 2 ^ 32)
    (chain : (clusterAt ctx entry n).isSome = true) (inChain : s + k ≤ n * ctx.sectorsPerCluster)
    (below : o < ctx.sectorsPerCluster) (notMore : q ≤ k)
    (needed : clusters ≠ 0 → clusterAt ctx entry a = some c ∧
      s + q = a * ctx.sectorsPerCluster + o ∧ q + (clusters - 1) * ctx.sectorsPerCluster < k) :
    readClustersInto ctx (k * ctx.bytesPerSector) clusters c o (readLog ctx entry content s q) =
      if k ≤ q + (clusters * ctx.sectorsPerCluster - o) then
        (.ok .sOk, readLog ctx entry content s k)
      else (.error (.panic "fat16_read_file_content(): Unexpected."),
        readLog ctx entry content s (q + (clusters * ctx.sectorsPerCluster - o))) := by
  induction clusters generalizing a c o q with
  | zero =>
    -- no cluster is left: the sanity check decides
    have index := @readLog_index ctx entry s content q
      (Nat.lt_of_le_of_lt (Nat.mul_le_mul_right _ notMore) fits)
    rw [readClustersInto, index, Nat.zero_mul, Nat.zero_sub, Nat.add_zero]
    by_cases all : k ≤ q
    · obtain rfl := Nat.le_antisymm notMore all
      rw [if_pos all, if_neg (not_not_intro rfl)]
    · have short : q * ctx.bytesPerSector ≠ k * ctx.bytesPerSector := fun same =>
        all (Nat.le_of_eq (Nat.eq_of_mul_eq_mul_right sectorPos same).symm)
      rw [if_neg all, if_pos short]
  | succ clusters inductionHypothesis =>
    obtain ⟨here, next, more⟩ := needed (Nat.succ_ne_zero _)
    rw [Nat.add_sub_cancel] at more
    -- the next sector is one of the chain, so this cluster is looked up
    have inside : a < n := by
      by_contra outside
      have := Nat.mul_le_mul_right ctx.sectorsPerCluster (Nat.not_lt.mp outside)
      omega
    obtain ⟨c', follows, lookup⟩ := lookup_of_chain chain inside here
    -- what is skipped in this cluster and what is read of it
    have split : ctx.sectorsPerCluster = o + (ctx.sectorsPerCluster - o) := by omega
    have whole : readSectorsInto ctx (k * ctx.bytesPerSector) (clusterSector ctx c)
        ctx.sectorsPerCluster 0 o (readLog ctx entry content s q) =
          (.sOk, 0, readLog ctx entry content s (min k (q + (ctx.sectorsPerCluster - o)))) := by
      conv_lhs => rw [split]
      rw [readSectorsInto_skip, Nat.zero_add, readSectorsInto_log readable sectorPos clusterPos fits
        here (by omega) next (by omega)]
    rw [readClustersInto, whole]
    have good : ¬ HResult.sOk.failed = true := by decide
    dsimp only
    rw [if_neg good, lookup]
    dsimp only
    have product : (clusters + 1) * ctx.sectorsPerCluster =
        clusters * ctx.sectorsPerCluster + ctx.sectorsPerCluster := Nat.succ_mul _ _
    rw [inductionHypothesis (a := a + 1) clusterPos (Nat.min_le_left _ _)]
    · -- a cluster that was not read to its end was the last one
      rw [product, Nat.sub_zero]
      by_cases enough : k ≤ q + (clusters * ctx.sectorsPerCluster + ctx.sectorsPerCluster - o)
      · rw [if_pos enough, if_pos (by omega)]
      · have order : min k (q + (ctx.sectorsPerCluster - o)) + clusters * ctx.sectorsPerCluster =
            q + (clusters * ctx.sectorsPerCluster + ctx.sectorsPerCluster - o) := by omega
        rw [if_neg enough, if_neg (by omega), order]
    · intro some
      have before : (clusters - 1) * ctx.sectorsPerCluster + ctx.sectorsPerCluster =
          clusters * ctx.sectorsPerCluster := by
        rw [← Nat.succ_mul, Nat.succ_eq_add_one, Nat.sub_add_cancel (Nat.pos_of_ne_zero some)]
      have notLast : min k (q + (ctx.sectorsPerCluster - o)) = q + (ctx.sectorsPerCluster - o) := by
        omega
      rw [notLast, Nat.add_mul, Nat.one_mul]
      exact ⟨follows, by omega, by omega⟩

/-! ## The skipped clusters -/

theorem skipClusters_skips {n rounds : Nat} (clusterPos : 0 < ctx.sectorsPerCluster)
    (chain : (clusterAt ctx entry n).isSome = true) (here : clusterAt ctx entry a = some c)
    (enough : s ≤ rounds) (inChain : a + s / ctx.sectorsPerCluster ≤ n) :
    ∃ c', clusterAt ctx entry (a + s / ctx.sectorsPerCluster) = some c' ∧
      skipClusters ctx rounds s c = .ok (.ok (s % ctx.sectorsPerCluster, c')) := by
  induction rounds generalizing a c s with
  | zero =>
    obtain rfl := Nat.le_zero.mp enough
    rw [Nat.zero_div, Nat.zero_mod]
    exact ⟨c, here, rfl⟩
  | succ rounds inductionHypothesis =>
    by_cases skips : s ≥ ctx.sectorsPerCluster
    · have quotient : s / ctx.sectorsPerCluster =
          (s - ctx.sectorsPerCluster) / ctx.sectorsPerCluster + 1 :=
        Nat.div_eq_sub_div clusterPos skips
      have inside : a < n := by
        rw [quotient] at inChain
        exact Nat.lt_of_lt_of_le (Nat.lt_add_of_pos_right (Nat.succ_pos _)) inChain
      obtain ⟨next, follows, lookup⟩ := lookup_of_chain chain inside here
      -- one lookup, and the rest is skipped from the next cluster
      obtain ⟨c', there, skipped⟩ := inductionHypothesis follows
        (show s - ctx.sectorsPerCluster ≤ rounds by omega) (by omega)
      have order : a + s / ctx.sectorsPerCluster =
          a + 1 + (s - ctx.sectorsPerCluster) / ctx.sectorsPerCluster := by omega
      refine ⟨c', by rw [order, there], ?_⟩
      rw [Nat.mod_eq_sub_mod skips, ← skipped]
      simp only [skipClusters, if_pos skips, lookup, bind, Except.bind]
    · have none : s / ctx.sectorsPerCluster = 0 := Nat.div_eq_of_lt (Nat.not_le.mp skips)
      rw [none, Nat.add_zero, Nat.mod_eq_of_lt (Nat.not_le.mp skips)]
      exact ⟨c, here, by rw [skipClusters, if_neg skips]⟩

/-! ## The whole call -/

/-- The first sectors that the clusters counted for a read reach. -/
def sectorsReached (ctx : Fat16DrvContext) (s k : Nat) : Nat :=
  (k + ctx.sectorsPerCluster - 1) / ctx.sectorsPerCluster * ctx.sectorsPerCluster -
    s % ctx.sectorsPerCluster

/-- Whole sectors of a chain are read if the clusters counted for them are enough. -/
theorem fat16ReadFileContentInto_log {n : Nat} (readable : Readable ctx content)
    (sectorPos : 0 < ctx.bytesPerSector) (clusterPos : 0 < ctx.sectorsPerCluster)
    (fits : k * ctx.bytesPerSector < 2 ^ 32) (few : k + ctx.sectorsPerCluster ≤ 2 ^ 32)
    (chain : (clusterAt ctx entry n).isSome = true)
    (inChain : s + k ≤ n * ctx.sectorsPerCluster) :
    fat16ReadFileContentInto ctx entry (s * ctx.bytesPerSector) (k * ctx.bytesPerSector) =
      if k ≤ sectorsReached ctx s k then (.ok .sOk, readLog ctx entry content s k)
      else (.error (.panic "fat16_read_file_content(): Unexpected."),
        readLog ctx entry content s (sectorsReached ctx s k)) := by
  have count : u32 (k + ctx.sectorsPerCluster - 1) = k + ctx.sectorsPerCluster - 1 :=
    u32_of_lt (by omega)
  obtain ⟨first, start⟩ := Option.isSome_iff_exists.mp (clusterAt_below chain (Nat.zero_le n))
  have firstCluster : fatGetFirstCluster ctx entry = .ok first := by
    cases result : fatGetFirstCluster ctx entry with
    | error halt =>
      rw [clusterAt, result] at start
      contradiction
    | ok value =>
      rw [clusterAt, result] at start
      exact congrArg Except.ok (Option.some.inj start)
  have skipped : s / ctx.sectorsPerCluster ≤ n := by
    rw [← Nat.mul_div_cancel n clusterPos]
    exact Nat.div_le_div_right (by omega)
  obtain ⟨c, there, skips⟩ := skipClusters_skips clusterPos chain start (Nat.le_refl s)
    (by rwa [Nat.zero_add])
  rw [Nat.zero_add] at there
  have nonzero : ¬ (ctx.bytesPerSector = 0 ∨ ctx.sectorsPerCluster = 0) := by omega
  have aligned : ¬ (s * ctx.bytesPerSector % ctx.bytesPerSector ≠ 0 ∨
      k * ctx.bytesPerSector % ctx.bytesPerSector ≠ 0) := by
    rw [Nat.mul_mod_left, Nat.mul_mod_left]
    omega
  have reads := readClustersInto_log (q := 0) ((k + ctx.sectorsPerCluster - 1) /
    ctx.sectorsPerCluster) readable sectorPos clusterPos fits chain inChain
    (Nat.mod_lt s clusterPos) (Nat.zero_le k)
    (fun some => ⟨there, (Nat.div_add_mod' s _).symm, by
      have below : ((k + ctx.sectorsPerCluster - 1) / ctx.sectorsPerCluster - 1) *
          ctx.sectorsPerCluster + ctx.sectorsPerCluster =
          (k + ctx.sectorsPerCluster - 1) / ctx.sectorsPerCluster * ctx.sectorsPerCluster := by
        rw [← Nat.succ_mul, Nat.succ_eq_add_one, Nat.sub_add_cancel (Nat.pos_of_ne_zero some)]
      have := Nat.div_mul_le_self (k + ctx.sectorsPerCluster - 1) ctx.sectorsPerCluster
      omega⟩)
  rw [Nat.zero_add] at reads
  rw [fat16ReadFileContentInto, if_neg nonzero]
  dsimp only
  rw [firstCluster]
  dsimp only
  rw [if_neg aligned, Nat.mul_div_cancel _ sectorPos, Nat.mul_div_cancel _ sectorPos, count, skips]
  exact reads

theorem FatWellFormed.readable (formed : FatWellFormed ctx entry image) :
    Readable ctx fun sector => readAt image (sector * ctx.bytesPerSector) ctx.bytesPerSector := by
  intro sector
  rw [formed.storage _ _ (u32_lt _), Nat.one_mul]

/-- What is read of an image is the content of the file. -/
theorem readLog_dst (pos : 0 < ctx.bytesPerSector) (q : Nat)
    (fits : q * ctx.bytesPerSector < 2 ^ 32) :
    (readLog ctx entry
        (fun sector => readAt image (sector * ctx.bytesPerSector) ctx.bytesPerSector) s q).dst =
      put (fun _ => none) 0 (readAt (fatContent ctx entry image) (s * ctx.bytesPerSector)
        (q * ctx.bytesPerSector)) := by
  induction q with
  | zero => rw [Nat.zero_mul, readAt_zero, put, List.map_nil, writeAt_nil, readLog, FatRead.nothing]
  | succ q inductionHypothesis =>
    have shorter : q * ctx.bytesPerSector < 2 ^ 32 := by
      rw [Nat.succ_mul] at fits
      omega
    have longer : readAt (fatContent ctx entry image) (s * ctx.bytesPerSector)
          ((q + 1) * ctx.bytesPerSector) =
        readAt (fatContent ctx entry image) (s * ctx.bytesPerSector) (q * ctx.bytesPerSector) ++
          readAt (fatContent ctx entry image) ((s + q) * ctx.bytesPerSector)
            ctx.bytesPerSector := by
      rw [Nat.succ_mul, readAt_add, Nat.add_mul]
    rw [readLog, FatRead.add]
    dsimp only
    rw [inductionHypothesis shorter, readLog_index q shorter, readAt_fatSector pos, longer, put,
      put, put, List.map_append, ← writeAt_append]
    simp

theorem readLog_bytes (pos : 0 < ctx.bytesPerSector) (fits : k * ctx.bytesPerSector < 2 ^ 32) :
    (readLog ctx entry
        (fun sector => readAt image (sector * ctx.bytesPerSector) ctx.bytesPerSector) s k).bytes =
      readAt (fatContent ctx entry image) (s * ctx.bytesPerSector) (k * ctx.bytesPerSector) := by
  have index := @readLog_index ctx entry s
    (fun sector => readAt image (sector * ctx.bytesPerSector) ctx.bytesPerSector) k fits
  apply List.ext_getElem
  · rw [FatRead.length_bytes, index, length_readAt]
  · intro i below below'
    rw [FatRead.length_bytes, index] at below
    have written := @writeAt_inside _ (fun _ => none) 0 i
      ((readAt (fatContent ctx entry image) (s * ctx.bytesPerSector)
        (k * ctx.bytesPerSector)).map some) (by rwa [List.length_map, length_readAt])
    rw [Nat.zero_add] at written
    simp only [FatRead.bytes, List.getElem_map, List.getElem_range, readLog_dst pos k fits, put]
    rw [written, List.getElem_map]
    rfl

/-- Whole sectors of the file are read if the clusters counted for them are enough. -/
theorem fat16ReadFileContent_eq (formed : FatWellFormed ctx entry image)
    (sizeSmall : entry.size < 2 ^ 31)
    (inside : s * ctx.bytesPerSector + k * ctx.bytesPerSector < entry.size + ctx.bytesPerSector) :
    fat16ReadFileContent ctx entry (s * ctx.bytesPerSector) (k * ctx.bytesPerSector) =
      if k ≤ sectorsReached ctx s k then
        .ok (.sOk, readAt (fatContent ctx entry image) (s * ctx.bytesPerSector)
          (k * ctx.bytesPerSector))
      else .error (.panic "fat16_read_file_content(): Unexpected.") := by
  have sectorPos := formed.sectorPos
  have sectorSmall := formed.sectorSmall
  have clusterSmall := formed.clusterSmall
  obtain ⟨n, chain, long⟩ := formed.chain
  -- the sectors are sectors of the chain
  have inChain : s + k ≤ n * ctx.sectorsPerCluster := by
    have bytes : (s + k) * ctx.bytesPerSector <
        (n * ctx.sectorsPerCluster + 1) * ctx.bytesPerSector := by
      rw [Nat.add_mul, Nat.add_mul, Nat.one_mul]
      omega
    have := Nat.lt_of_mul_lt_mul_right bytes
    omega
  have few : k ≤ k * ctx.bytesPerSector := Nat.le_mul_of_pos_right k sectorPos
  have fits : k * ctx.bytesPerSector < 2 ^ 32 := by omega
  have blocks : Blocks ctx := by
    intro sector content read
    rw [formed.readable sector] at read
    rw [← Except.ok.inj read, length_readAt]
  rw [fat16ReadFileContent_eq_into fits blocks, fat16ReadFileContentInto_log formed.readable
    sectorPos formed.clusterPos fits (by omega) chain inChain]
  by_cases enough : k ≤ sectorsReached ctx s k
  · rw [if_pos enough, if_pos enough, ← readLog_bytes sectorPos fits]
    rfl
  · rw [if_neg enough, if_neg enough]
    rfl

theorem fatComplete_iff (sectorPos : 0 < ctx.bytesPerSector) :
    FatComplete ctx (s * ctx.bytesPerSector) (k * ctx.bytesPerSector) ↔
      k ≤ sectorsReached ctx s k := by
  rw [FatComplete, sectorsReached, Nat.mul_div_cancel _ sectorPos, Nat.mul_div_cancel _ sectorPos]
  constructor
  · intro complete
    cases complete with
    | inl nothing =>
      have : k = 0 := (Nat.mul_eq_zero.mp nothing).resolve_right (Nat.ne_of_gt sectorPos)
      omega
    | inr enough => omega
  · intro enough
    by_cases nothing : k = 0
    · exact .inl (by rw [nothing, Nat.zero_mul])
    · exact .inr (by omega)

/-- The driver's function reads the file of the chain where its clusters are enough. -/
theorem fat16_reads (formed : FatWellFormed ctx entry image) (sizeSmall : entry.size < 2 ^ 31) :
    ReadsContent (fat16File ctx entry) (fatContent ctx entry image) (FatComplete ctx) := by
  have sectorPos := formed.sectorPos
  have clusterPos := formed.clusterPos
  constructor
  case blockPos => exact sectorPos
  case blockSmall => exact formed.sectorSmall
  case sizeSmall => exact sizeSmall
  case whole =>
    intro start count startAligned countAligned inside complete
    obtain ⟨s, rfl⟩ : ∃ s, start = s * ctx.bytesPerSector :=
      exists_eq_mul_left_of_dvd startAligned
    obtain ⟨k, rfl⟩ : ∃ k, count = k * ctx.bytesPerSector :=
      exists_eq_mul_left_of_dvd countAligned
    rw [fatComplete_iff sectorPos] at complete
    exact (fat16ReadFileContent_eq formed sizeSmall inside).trans (if_pos complete)
  case broken =>
    intro start count startAligned countAligned inside broken hr bytes returns
    obtain ⟨s, rfl⟩ : ∃ s, start = s * ctx.bytesPerSector :=
      exists_eq_mul_left_of_dvd startAligned
    obtain ⟨k, rfl⟩ : ∃ k, count = k * ctx.bytesPerSector :=
      exists_eq_mul_left_of_dvd countAligned
    rw [fatComplete_iff sectorPos] at broken
    have panics := (fat16ReadFileContent_eq formed sizeSmall inside).trans (if_neg broken)
    cases panics.symm.trans returns
  case single =>
    intro start startAligned inside
    obtain ⟨s, rfl⟩ : ∃ s, start = s * ctx.bytesPerSector :=
      exists_eq_mul_left_of_dvd startAligned
    have one : FatComplete ctx (s * ctx.bytesPerSector) (1 * ctx.bytesPerSector) := by
      have below := Nat.mod_lt s clusterPos
      -- a single sector needs one cluster and has it
      have cluster : (1 + ctx.sectorsPerCluster - 1) / ctx.sectorsPerCluster = 1 := by
        rw [Nat.add_sub_cancel_left, Nat.div_self clusterPos]
      rw [fatComplete_iff sectorPos, sectorsReached, cluster, Nat.one_mul]
      omega
    rwa [Nat.one_mul] at one

end

end Antonix.Drivers
