import Antonix.MmPhys.Search

/-! # How marking and unmarking fail

The debug checks of the two marking loops stop in the middle.  A failed
`kpmm_mark_blocks` leaves what it had marked, unless it stopped in its first
pass; `kpmm_unmark_blocks` reads a whole shifted element, so a clear block is
noticed only when no block is marked from it to the end of its element. -/

namespace Antonix

open Bitmap Set

/-! ## Marking -/

/-- The blocks that the first pass of `kpmm_mark_blocks` looks at: a whole element, or one
block. -/
def firstPass (blockId numBlocks : Nat) : Set Nat :=
  if 32 ≤ numBlocks ∧ blockId % 32 = 0 then Ico blockId (blockId + 32) else {blockId}

theorem mem_firstPass (blockId numBlocks : Nat) : blockId ∈ firstPass blockId numBlocks := by
  rw [firstPass]
  split
  · exact ⟨le_rfl, by omega⟩
  · rfl

theorem kpmmMarkLoop_firstPass (fuel numBlocks blockId : Nat) (bitmap : Bitmap 32) :
    (¬Disjoint (firstPass blockId (numBlocks + 1)) bitmap.bits →
      kpmmMarkLoop (fuel + 1) (numBlocks + 1) blockId bitmap = (.eFail, bitmap)) ∧
    (Disjoint (firstPass blockId (numBlocks + 1)) bitmap.bits →
      ∃ rest next marked, blockId ∈ marked.bits ∧
        kpmmMarkLoop (fuel + 1) (numBlocks + 1) blockId bitmap =
          kpmmMarkLoop fuel rest next marked) := by
  rw [kpmmMarkLoop, firstPass]
  split
  · rename_i fast
    have wholeElement : 32 * (blockId / 32) = blockId := by omega
    have test : bitmap (blockId / 32) = 0#32 ↔ _ := element_eq_zero_iff
    rw [wholeElement] at test
    constructor
    · intro occupied
      rw [if_pos fun clear => occupied (test.mp clear)]
    · intro free
      rw [if_neg (not_not.mpr (test.mpr free))]
      refine ⟨_, _, _, ?_, rfl⟩
      rw [bits_fillElement (by decide), wholeElement]
      exact .inr ⟨le_rfl, by omega⟩
  · have test : blockId ∈ bitmap.bits ↔ _ := mem_bits_iff_and (by decide)
    rw [disjoint_singleton_left, not_not]
    constructor
    · intro occupied
      rw [if_pos (test.mp occupied)]
    · intro free
      rw [if_neg fun isSet => free (test.mpr isSet)]
      refine ⟨_, _, _, ?_, rfl⟩
      rw [bits_setBit (by decide)]
      exact .inl rfl

/-- A failed marking leaves the bitmap as it was exactly when its first pass failed. -/
theorem kpmmMarkBlocks_unchanged_iff {bitmap : Bitmap 32} {addr numBlocks : Nat}
    (occupied : ¬Disjoint (blockRange addr numBlocks) bitmap.bits) :
    (kpmmMarkBlocks bitmap addr numBlocks).2 = bitmap ↔
      ¬Disjoint (firstPass (addr / pageSize) numBlocks) bitmap.bits := by
  rw [kpmmMarkBlocks]
  cases numBlocks with
  | zero => simp [blockRange] at occupied
  | succ numBlocks =>
    obtain ⟨stops, goesOn⟩ :=
      kpmmMarkLoop_firstPass numBlocks numBlocks (addr / pageSize) bitmap
    constructor
    · intro unchanged free
      obtain ⟨rest, next, marked, isSet, continued⟩ := goesOn free
      -- the first block has become marked and stays so
      have kept := (kpmmMarkLoop_bounds numBlocks rest next marked).1 isSet
      rw [← continued, unchanged] at kept
      exact disjoint_left.mp free (mem_firstPass _ _) kept
    · intro stopped
      rw [stops stopped]

/-! ## Reserving -/

/-- The region that the search accepts is beyond 4 GB, and the blocks that its address names
begin with clear ones. -/
def WrapsOntoFree (bitmap : Bitmap 32) (numBlocks s : Nat) : Prop :=
  IsLeast {s | FreeRun bitmap numBlocks s} s ∧ s + numBlocks / 32 < memoryBitmapLength ∧
    2 ^ 15 ≤ s ∧ Disjoint (firstPass (32 * (s % 2 ^ 15)) numBlocks) bitmap.bits

/-- The search hands out the run at element `s`, at its own address. -/
def HandsOut (bitmap : Bitmap 32) (numBlocks s : Nat) : Prop :=
  IsLeast {s | FreeRun bitmap numBlocks s} s ∧ s + numBlocks / 32 < memoryBitmapLength ∧ s < 2 ^ 15

/-- What comes of searching for a run and marking it. -/
inductive KpmmReserved (bitmap : Bitmap 32) (numBlocks : Nat) : Prop
  | notFound : kpmmFindFreeRegion bitmap numBlocks = .error .eFail →
      (¬∃ s, HandsOut bitmap numBlocks s) → (¬∃ s, WrapsOntoFree bitmap numBlocks s) →
      KpmmReserved bitmap numBlocks
  | taken {s marked} : HandsOut bitmap numBlocks s → (¬∃ s, WrapsOntoFree bitmap numBlocks s) →
      kpmmFindFreeRegion bitmap numBlocks = .ok (s * 32 * pageSize) →
      kpmmMarkBlocks bitmap (s * 32 * pageSize) numBlocks = (.sOk, marked) →
      (kpmmUnmarkBlocks marked (s * 32 * pageSize) numBlocks).2 = bitmap →
      (marked = bitmap ↔ numBlocks = 0) → KpmmReserved bitmap numBlocks
  | refused {area marked} : (¬∃ s, HandsOut bitmap numBlocks s) →
      kpmmFindFreeRegion bitmap numBlocks = .ok area →
      kpmmMarkBlocks bitmap area numBlocks = (.eFail, marked) →
      (marked = bitmap ↔ ¬∃ s, WrapsOntoFree bitmap numBlocks s) → KpmmReserved bitmap numBlocks

theorem kpmm_reserved (bitmap : Bitmap 32) (numBlocks : Nat) : KpmmReserved bitmap numBlocks := by
  cases searched : kpmmFindLoop bitmap numBlocks memoryBitmapLength 0 numBlocks 0 with
  | none =>
    refine .notFound (by simp [kpmmFindFreeRegion, searched]) ?_ ?_
    · rintro ⟨s, least, reached, -⟩
      rw [kpmmFindLoop_found.mpr ⟨least, reached⟩] at searched
      contradiction
    · rintro ⟨s, least, reached, -, -⟩
      rw [kpmmFindLoop_found.mpr ⟨least, reached⟩] at searched
      contradiction
  | some s =>
    obtain ⟨least, reached⟩ := kpmmFindLoop_found.mp searched
    have found := kpmmFindFreeRegion_eq_ok_iff.mpr ⟨s, searched, rfl⟩
    by_cases low : s < 2 ^ 15
    · have address : u32 (s * 32 * pageSize) = s * 32 * pageSize :=
        u32_of_lt (by simp only [pageSize]; omega)
      rw [address] at found
      have free : Disjoint (blockRange (s * 32 * pageSize) numBlocks) bitmap.bits := by
        rw [← address, blockRange_element, Nat.mod_eq_of_lt low]
        exact least.1
      obtain ⟨status, marked⟩ := kpmmMarkBlocks_free free
      have kept : blockRange (s * 32 * pageSize) numBlocks ⊆
          (kpmmMarkBlocks bitmap (s * 32 * pageSize) numBlocks).2.bits := by
        rw [marked]
        exact subset_union_right
      refine .taken ⟨least, reached, low⟩ ?_ found (Prod.ext status rfl) ?_ ?_
      · rintro ⟨t, leastToo, -, high, -⟩
        have same := least.unique leastToo
        omega
      · refine bits_injective ?_
        rw [(kpmmUnmarkBlocks_marked kept).2, marked, union_sdiff_right]
        exact free.symm.sdiff_eq_left
      · constructor
        · intro same
          have unchanged := congrArg bits same
          rw [marked, union_eq_left] at unchanged
          have empty := free.eq_bot_of_le unchanged
          rw [bot_eq_empty, blockRange, Ico_eq_empty_iff] at empty
          omega
        · rintro rfl
          refine bits_injective ?_
          rw [marked, blockRange, Nat.add_zero, Ico_self, union_empty]
    · have occupied : ¬Disjoint (blockRange (u32 (s * 32 * pageSize)) numBlocks) bitmap.bits := by
        rw [blockRange_element]
        intro free
        have := least.2 (show FreeRun bitmap numBlocks (s % 2 ^ 15) from free)
        omega
      refine .refused ?_ found (Prod.ext (kpmmMarkBlocks_occupied occupied) rfl) ?_
      · rintro ⟨t, leastToo, -, below⟩
        have same := least.unique leastToo
        omega
      · rw [kpmmMarkBlocks_unchanged_iff occupied, u32_element,
          Nat.mul_div_cancel _ (by decide : 0 < pageSize), not_iff_not]
        constructor
        · exact fun free => ⟨s, least, reached, by omega, free⟩
        · rintro ⟨t, leastToo, -, -, free⟩
          obtain rfl := least.unique leastToo
          exact free

/-! ## Atomicity -/

/-- When `kpmm_mark_blocks` fails, the bitmap is what it was. -/
def KpmmMarkAtomic (bitmap : Bitmap 32) (addr numBlocks : Nat) : Prop :=
  (kpmmMarkBlocks bitmap addr numBlocks).1.failed = true →
    (kpmmMarkBlocks bitmap addr numBlocks).2 = bitmap

/-- When `kpmm_alloc` fails, the bitmap is what it was. -/
def KpmmAllocAtomic (bitmap : Bitmap 32) (numBlocks : Nat) : Prop :=
  ∀ hr, (kpmmAlloc bitmap numBlocks).1 = .error hr → (kpmmAlloc bitmap numBlocks).2 = bitmap

theorem kpmmMarkBlocks_failed_iff (bitmap : Bitmap 32) (addr numBlocks : Nat) :
    (kpmmMarkBlocks bitmap addr numBlocks).1.failed = true ↔
      ¬Disjoint (blockRange addr numBlocks) bitmap.bits := by
  by_cases free : Disjoint (blockRange addr numBlocks) bitmap.bits
  · simp [kpmmMarkBlocks_free free, free, HResult.failed, HResult.succeeded]
  · simp [kpmmMarkBlocks_occupied free, free, HResult.failed, HResult.succeeded]

theorem kpmmMarkAtomic_iff {bitmap : Bitmap 32} {addr numBlocks : Nat} :
    KpmmMarkAtomic bitmap addr numBlocks ↔
      Disjoint (blockRange addr numBlocks) bitmap.bits ∨
        ¬Disjoint (firstPass (addr / pageSize) numBlocks) bitmap.bits := by
  rw [KpmmMarkAtomic, kpmmMarkBlocks_failed_iff]
  by_cases free : Disjoint (blockRange addr numBlocks) bitmap.bits
  · simp [free]
  · simp [free, kpmmMarkBlocks_unchanged_iff free]

theorem kpmmAllocAtomic_iff {bitmap : Bitmap 32} {numBlocks : Nat} :
    KpmmAllocAtomic bitmap numBlocks ↔ ¬∃ s, WrapsOntoFree bitmap numBlocks s := by
  rw [KpmmAllocAtomic, kpmmAlloc]
  cases kpmm_reserved bitmap numBlocks with
  | notFound found _ notWrapped => simp [found, notWrapped]
  | taken _ notWrapped found marked _ _ => simp [found, marked, notWrapped]
  | refused _ found marked unchanged => simp [found, marked, unchanged]

/-- A failed `kpmm_mark_blocks` changes nothing exactly when the first pass meets the conflict;
a failed `kpmm_alloc` changes nothing exactly when the search does not hand out a region
beyond 4 GB whose address names blocks that begin with clear ones. -/
theorem kpmm_marking_atomic (bitmap : Bitmap 32) (addr numBlocks : Nat) :
    (KpmmMarkAtomic bitmap addr numBlocks ↔
      Disjoint (blockRange addr numBlocks) bitmap.bits ∨
        ¬Disjoint (firstPass (addr / pageSize) numBlocks) bitmap.bits) ∧
    (KpmmAllocAtomic bitmap numBlocks ↔ ¬∃ s, WrapsOntoFree bitmap numBlocks s) :=
  ⟨kpmmMarkAtomic_iff, kpmmAllocAtomic_iff⟩

/-- Marking blocks 0 and 1 when block 1 is in use fails and leaves block 0 marked. -/
theorem kpmm_marking_not_atomic : ¬KpmmMarkAtomic (fun i => if i = 0 then 2#32 else 0#32) 0 2 := by
  intro atomic
  have unchanged := congrFun (atomic (by decide)) 0
  exact absurd unchanged (by decide)

/-! ## Unmarking -/

/-- No block is marked from `k` to the end of the element it lies in. -/
def ClearFrom (bitmap : Bitmap 32) (k : Nat) : Prop :=
  Disjoint (Ico k (32 * (k / 32) + 32)) bitmap.bits

theorem ClearFrom.clear {bitmap : Bitmap 32} {k : Nat} (tail : ClearFrom bitmap k) :
    k ∉ bitmap.bits := by
  intro isSet
  exact disjoint_left.mp tail ⟨le_rfl, by omega⟩ isSet

/-- Clearing a block does not change what is seen from a later one. -/
theorem clearFrom_clearBit {bitmap : Bitmap 32} {k j : Nat} (later : k < j) :
    ClearFrom (bitmap.clearBit k) j ↔ ClearFrom bitmap j := by
  have outside : k ∉ Ico j (32 * (j / 32) + 32) := fun inside => by
    have := inside.1
    omega
  rw [ClearFrom, ClearFrom, bits_clearBit (by decide), disjoint_left, disjoint_left]
  constructor
  · intro apart i inside isSet
    have other : i ≠ k := fun same => outside (same ▸ inside)
    exact apart inside ⟨isSet, other⟩
  · intro apart i inside isSet
    exact apart inside isSet.1

/-- The loop stops exactly at a block from which nothing is marked in its element; when it does
not stop, it has cleared the run. -/
theorem kpmmUnmarkLoop_spec : ∀ (numBlocks blockId : Nat) (bitmap : Bitmap 32),
    ((kpmmUnmarkLoop numBlocks blockId bitmap).1 = .eFail ∧
      ∃ k ∈ Ico blockId (blockId + numBlocks), ClearFrom bitmap k) ∨
    ((kpmmUnmarkLoop numBlocks blockId bitmap).1 = .sOk ∧
      (kpmmUnmarkLoop numBlocks blockId bitmap).2.bits =
        bitmap.bits \ Ico blockId (blockId + numBlocks) ∧
      ∀ k ∈ Ico blockId (blockId + numBlocks), ¬ClearFrom bitmap k)
  | 0, blockId, bitmap => by simp [kpmmUnmarkLoop]
  | numBlocks + 1, blockId, bitmap => by
    have test : bitmap (blockId / 32) >>> (blockId % 32) = 0#32 ↔ ClearFrom bitmap blockId :=
      shifted_eq_zero_iff (by decide)
    rw [kpmmUnmarkLoop]
    split
    · rename_i nothing
      exact .inl ⟨rfl, blockId, ⟨le_rfl, by omega⟩, test.mp nothing⟩
    · rename_i seen
      rw [test] at seen
      -- later blocks are judged as if this one had not been cleared
      cases kpmmUnmarkLoop_spec numBlocks (blockId + 1) (bitmap.clearBit blockId) with
      | inl stopped =>
        obtain ⟨status, k, ⟨low, high⟩, tail⟩ := stopped
        exact .inl ⟨status, k, ⟨by omega, by omega⟩, (clearFrom_clearBit low).mp tail⟩
      | inr finished =>
        obtain ⟨status, cleared, noTail⟩ := finished
        refine .inr ⟨status, ?_, ?_⟩
        · rw [cleared, bits_clearBit (by decide), Ico_run_succ, insert_eq, sdiff_sdiff]
        · rintro k ⟨low, high⟩ tail
          by_cases first : k = blockId
          · exact seen (first ▸ tail)
          · have later : blockId < k := by omega
            exact noTail k ⟨later, by omega⟩ ((clearFrom_clearBit later).mpr tail)

/-- `kpmm_unmark_blocks` fails exactly when a block of the run is clear already, and a success
has turned exactly the run from set to clear. -/
def KpmmUnmarkDetects (bitmap : Bitmap 32) (addr numBlocks : Nat) : Prop :=
  ((kpmmUnmarkBlocks bitmap addr numBlocks).1 = .eFail ↔
    ∃ k ∈ blockRange addr numBlocks, k ∉ bitmap.bits) ∧
  ((kpmmUnmarkBlocks bitmap addr numBlocks).1 = .sOk →
    blockRange addr numBlocks ⊆ bitmap.bits ∧
      (kpmmUnmarkBlocks bitmap addr numBlocks).2.bits = bitmap.bits \ blockRange addr numBlocks)

/-- A double free is detected exactly when some block of the run has no marked block from it to
the end of its element (or there is nothing to detect). -/
theorem kpmm_unmark_blocks_detects (bitmap : Bitmap 32) (addr numBlocks : Nat) :
    KpmmUnmarkDetects bitmap addr numBlocks ↔
      blockRange addr numBlocks ⊆ bitmap.bits ∨
        ∃ k ∈ blockRange addr numBlocks, ClearFrom bitmap k := by
  rw [KpmmUnmarkDetects, kpmmUnmarkBlocks]
  cases kpmmUnmarkLoop_spec numBlocks (addr / pageSize) bitmap with
  | inl stopped =>
    obtain ⟨status, k, member, tail⟩ := stopped
    refine iff_of_true ?_ (.inr ⟨k, member, tail⟩)
    rw [status]
    exact ⟨iff_of_true rfl ⟨k, member, tail.clear⟩, fun ok => by contradiction⟩
  | inr finished =>
    obtain ⟨status, cleared, noTail⟩ := finished
    have undetected : ¬∃ k ∈ blockRange addr numBlocks, ClearFrom bitmap k := by
      rintro ⟨k, member, tail⟩
      exact noTail k member tail
    rw [status, or_iff_left undetected]
    constructor
    · intro detects
      exact (detects.2 rfl).1
    · intro marked
      refine ⟨iff_of_false (by simp) ?_, fun _ => ⟨marked, cleared⟩⟩
      rintro ⟨k, member, clear⟩
      exact clear (marked member)

/-- Only block 1 is in use: freeing block 0 returns `S_OK`. -/
theorem kpmm_unmark_blocks_not_detects :
    ¬KpmmUnmarkDetects (fun i => if i = 0 then 2#32 else 0#32) 0 1 := by
  rintro ⟨fails, -⟩
  have clear : ∃ k ∈ blockRange 0 1, k ∉ bits (fun i => if i = 0 then 2#32 else 0#32) :=
    ⟨0, ⟨by decide, by decide⟩, by simp [mem_bits]⟩
  exact absurd (fails.mpr clear) (by decide)

end Antonix
