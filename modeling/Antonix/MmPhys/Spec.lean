import Antonix.MmPhys.Basic
import Mathlib.Order.CompletePartialOrder
import Mathlib.Order.Interval.Set.Disjoint

/-! # What the loops of `mm_phys.c` do to the set of marked blocks

One specification lemma for each routine, in terms of `Bitmap.bits`: marking
adds an interval of free blocks or stops at the first marked one, unmarking
removes an interval, and the search returns the first element from which
enough blocks are free. -/

namespace Antonix

open Bitmap Set

/-- The blocks of a region of `numBlocks` blocks at address `addr`. -/
def blockRange (addr numBlocks : Nat) : Set Nat :=
  Ico (addr / pageSize) (addr / pageSize + numBlocks)

/-! ## Marking -/

theorem kpmmMarkLoop_free : ∀ {fuel numBlocks blockId : Nat} {bitmap : Bitmap 32},
    numBlocks ≤ fuel → Disjoint (Ico blockId (blockId + numBlocks)) bitmap.bits →
    (kpmmMarkLoop fuel numBlocks blockId bitmap).1 = .sOk ∧
      (kpmmMarkLoop fuel numBlocks blockId bitmap).2.bits =
        bitmap.bits ∪ Ico blockId (blockId + numBlocks)
  | 0, numBlocks, blockId, bitmap, enough, _ => by
    obtain rfl : numBlocks = 0 := by omega
    simp [kpmmMarkLoop]
  | fuel + 1, 0, blockId, bitmap, _, _ => by simp [kpmmMarkLoop]
  | fuel + 1, numBlocks + 1, blockId, bitmap, enough, free => by
    rw [kpmmMarkLoop]
    split
    · -- a whole element at once
      rename_i fast
      have wholeElement : 32 * (blockId / 32) = blockId := by omega
      have elementFree : bitmap (blockId / 32) = 0#32 := by
        rw [element_eq_zero_iff, wholeElement]
        exact free.mono_left (Ico_subset_Ico_right (by omega))
      have filled := bits_fillElement (by decide) bitmap (blockId / 32)
      rw [wholeElement] at filled
      have restFree : Disjoint (Ico (blockId + 32) (blockId + 32 + (numBlocks - 31)))
          (bitmap.fillElement (blockId / 32)).bits := by
        rw [filled, disjoint_union_right]
        refine ⟨free.mono_left (Ico_subset_Ico (by omega) (by omega)), ?_⟩
        exact disjoint_left.mpr fun k high low => by simp only [mem_Ico] at high low; omega
      obtain ⟨status, marked⟩ := kpmmMarkLoop_free (by omega : numBlocks - 31 ≤ fuel) restFree
      rw [if_neg (not_not.mpr elementFree)]
      refine ⟨status, ?_⟩
      rw [marked, filled, union_assoc, Ico_union_Ico_eq_Ico (by omega) (by omega)]
      congr 2; omega
    · -- one block
      have blockFree : bitmap (blockId / 32) &&& (1#32 <<< (blockId % 32)) = 0#32 := by
        by_contra isSet
        exact disjoint_left.mp free ⟨le_rfl, by omega⟩
          ((mem_bits_iff_and (by decide)).mpr isSet)
      have set := bits_setBit (by decide) bitmap blockId
      have restFree : Disjoint (Ico (blockId + 1) (blockId + 1 + numBlocks))
          (bitmap.setBit blockId).bits := by
        rw [set, disjoint_insert_right]
        exact ⟨by simp, free.mono_left (Ico_subset_Ico (by omega) (by omega))⟩
      obtain ⟨status, marked⟩ := kpmmMarkLoop_free (by omega : numBlocks ≤ fuel) restFree
      rw [if_neg (not_not.mpr blockFree)]
      refine ⟨status, ?_⟩
      rw [marked, set, Ico_run_succ, insert_union, union_insert]

/-- Whatever happens, marking only adds blocks, and only blocks of the range. -/
theorem kpmmMarkLoop_bounds : ∀ (fuel numBlocks blockId : Nat) (bitmap : Bitmap 32),
    bitmap.bits ⊆ (kpmmMarkLoop fuel numBlocks blockId bitmap).2.bits ∧
      (kpmmMarkLoop fuel numBlocks blockId bitmap).2.bits ⊆
        bitmap.bits ∪ Ico blockId (blockId + numBlocks)
  | 0, _, _, _ => ⟨subset_rfl, subset_union_left⟩
  | _ + 1, 0, _, _ => ⟨subset_rfl, subset_union_left⟩
  | fuel + 1, numBlocks + 1, blockId, bitmap => by
    rw [kpmmMarkLoop]
    split
    · rename_i fast
      split
      · -- the debug check stops before the element is written
        exact ⟨subset_rfl, subset_union_left⟩
      · obtain ⟨lower, upper⟩ := kpmmMarkLoop_bounds fuel (numBlocks - 31) (blockId + 32)
          (bitmap.fillElement (blockId / 32))
        rw [bits_fillElement (by decide), show 32 * (blockId / 32) = blockId by omega]
          at lower upper
        refine ⟨subset_union_left.trans lower, upper.trans ?_⟩
        rw [union_assoc, Ico_union_Ico_eq_Ico (by omega) (by omega)]
        exact union_subset_union_right _ (Ico_subset_Ico_right (by omega))
    · split
      · exact ⟨subset_rfl, subset_union_left⟩
      · obtain ⟨lower, upper⟩ := kpmmMarkLoop_bounds fuel numBlocks (blockId + 1)
          (bitmap.setBit blockId)
        rw [bits_setBit (by decide)] at lower upper
        refine ⟨(subset_insert _ _).trans lower, upper.trans ?_⟩
        rw [Ico_run_succ, insert_union, union_insert]

/-- Marking a range that is not free stops with `E_FAIL`. -/
theorem kpmmMarkLoop_occupied : ∀ {fuel numBlocks blockId : Nat} {bitmap : Bitmap 32},
    numBlocks ≤ fuel → ¬Disjoint (Ico blockId (blockId + numBlocks)) bitmap.bits →
    (kpmmMarkLoop fuel numBlocks blockId bitmap).1 = .eFail
  | 0, numBlocks, blockId, bitmap, enough, occupied => by
    obtain rfl : numBlocks = 0 := by omega
    simp at occupied
  | fuel + 1, 0, blockId, bitmap, _, occupied => by simp at occupied
  | fuel + 1, numBlocks + 1, blockId, bitmap, enough, occupied => by
    rw [not_disjoint_iff] at occupied
    obtain ⟨k, ⟨low, high⟩, isSet⟩ := occupied
    rw [kpmmMarkLoop]
    split
    · rename_i fast
      split
      · rfl
      · rename_i elementFree
        have wholeElement : 32 * (blockId / 32) = blockId := by omega
        rw [not_not, element_eq_zero_iff, wholeElement] at elementFree
        -- the marked block is not in this element, so it is still ahead
        have ahead : blockId + 32 ≤ k := by
          by_contra inside
          exact disjoint_left.mp elementFree ⟨low, by omega⟩ isSet
        refine kpmmMarkLoop_occupied (by omega) (not_disjoint_iff.mpr ⟨k, ⟨ahead, by omega⟩, ?_⟩)
        rw [bits_fillElement (by decide)]
        exact .inl isSet
    · split
      · rfl
      · rename_i blockFree
        have notHere : k ≠ blockId := by
          rintro rfl
          exact blockFree ((mem_bits_iff_and (by decide)).mp isSet)
        refine kpmmMarkLoop_occupied (by omega)
          (not_disjoint_iff.mpr ⟨k, ⟨by omega, by omega⟩, ?_⟩)
        rw [bits_setBit (by decide)]
        exact .inr isSet

theorem kpmmMarkBlocks_free {bitmap : Bitmap 32} {addr numBlocks : Nat}
    (free : Disjoint (blockRange addr numBlocks) bitmap.bits) :
    (kpmmMarkBlocks bitmap addr numBlocks).1 = .sOk ∧
      (kpmmMarkBlocks bitmap addr numBlocks).2.bits = bitmap.bits ∪ blockRange addr numBlocks :=
  kpmmMarkLoop_free le_rfl free

theorem kpmmMarkBlocks_occupied {bitmap : Bitmap 32} {addr numBlocks : Nat}
    (occupied : ¬Disjoint (blockRange addr numBlocks) bitmap.bits) :
    (kpmmMarkBlocks bitmap addr numBlocks).1 = .eFail :=
  kpmmMarkLoop_occupied le_rfl occupied

theorem kpmmMarkBlocks_bounds (bitmap : Bitmap 32) (addr numBlocks : Nat) :
    bitmap.bits ⊆ (kpmmMarkBlocks bitmap addr numBlocks).2.bits ∧
      (kpmmMarkBlocks bitmap addr numBlocks).2.bits ⊆ bitmap.bits ∪ blockRange addr numBlocks :=
  kpmmMarkLoop_bounds _ _ _ _

/-! ## Unmarking -/

theorem kpmmUnmarkLoop_marked : ∀ {numBlocks blockId : Nat} {bitmap : Bitmap 32},
    Ico blockId (blockId + numBlocks) ⊆ bitmap.bits →
    (kpmmUnmarkLoop numBlocks blockId bitmap).1 = .sOk ∧
      (kpmmUnmarkLoop numBlocks blockId bitmap).2.bits =
        bitmap.bits \ Ico blockId (blockId + numBlocks)
  | 0, blockId, bitmap, _ => by simp [kpmmUnmarkLoop]
  | numBlocks + 1, blockId, bitmap, marked => by
    have here : blockId ∈ bitmap.bits := marked ⟨le_rfl, by omega⟩
    have cleared := bits_clearBit (by decide) bitmap blockId
    have restMarked : Ico (blockId + 1) (blockId + 1 + numBlocks) ⊆
        (bitmap.clearBit blockId).bits := by
      rintro k ⟨low, high⟩
      rw [cleared]
      exact ⟨marked ⟨by omega, by omega⟩, by simp only [mem_singleton_iff]; omega⟩
    obtain ⟨status, unmarked⟩ := kpmmUnmarkLoop_marked restMarked
    rw [kpmmUnmarkLoop, if_neg (shift_ne_zero_of_mem here)]
    refine ⟨status, ?_⟩
    rw [unmarked, cleared, Ico_run_succ, insert_eq, sdiff_sdiff]

theorem kpmmUnmarkBlocks_marked {bitmap : Bitmap 32} {addr numBlocks : Nat}
    (marked : blockRange addr numBlocks ⊆ bitmap.bits) :
    (kpmmUnmarkBlocks bitmap addr numBlocks).1 = .sOk ∧
      (kpmmUnmarkBlocks bitmap addr numBlocks).2.bits =
        bitmap.bits \ blockRange addr numBlocks :=
  kpmmUnmarkLoop_marked marked

/-! ## Searching -/

/-- What the search knows at element `i`: the elements from `iStart` on are free and hold
all but `icnt` of the blocks, and no earlier element starts a free region. -/
structure FindInvariant (bitmap : Bitmap 32) (numBlocks i icnt iStart : Nat) : Prop where
  started : iStart ≤ i
  counted : numBlocks = icnt + 32 * (i - iStart)
  free : Disjoint (Ico (32 * iStart) (32 * i)) bitmap.bits
  first : ∀ j < iStart, ¬Disjoint (Ico (32 * j) (32 * j + numBlocks)) bitmap.bits

theorem FindInvariant.init (bitmap : Bitmap 32) (numBlocks : Nat) :
    FindInvariant bitmap numBlocks 0 numBlocks 0 where
  started := le_rfl
  counted := by simp
  free := by simp
  first := by simp

/-- A marked block among those that element `i` still has to provide rules out every
start up to `i`, so the search goes on from the next element. -/
theorem FindInvariant.restart {bitmap : Bitmap 32} {numBlocks i icnt iStart k : Nat}
    (inv : FindInvariant bitmap numBlocks i icnt iStart)
    (low : 32 * i ≤ k) (high : k < 32 * i + icnt) (isSet : k ∈ bitmap.bits) :
    FindInvariant bitmap numBlocks (i + 1) numBlocks (i + 1) where
  started := le_rfl
  counted := by simp
  free := by simp
  first := by
    intro j below
    by_cases earlier : j < iStart
    · exact inv.first j earlier
    · have := inv.counted
      exact not_disjoint_iff.mpr ⟨k, ⟨by omega, by omega⟩, isSet⟩

theorem FindInvariant.advance {bitmap : Bitmap 32} {numBlocks i icnt iStart : Nat}
    (inv : FindInvariant bitmap numBlocks i icnt iStart) (large : 32 ≤ icnt)
    (elementFree : Disjoint (Ico (32 * i) (32 * i + 32)) bitmap.bits) :
    FindInvariant bitmap numBlocks (i + 1) (icnt - 32) iStart where
  started := by have := inv.started; omega
  counted := by have := inv.started; have := inv.counted; omega
  free := by
    have := inv.started
    rw [show 32 * (i + 1) = 32 * i + 32 by omega,
      ← Ico_union_Ico_eq_Ico (b := 32 * i) (by omega) (by omega), disjoint_union_left]
    exact ⟨inv.free, elementFree⟩
  first := inv.first

/-- The search ends at the first element from which enough blocks are free, if it comes to
the element after the full ones among them. -/
theorem kpmmFindLoop_eq_some_iff {bitmap : Bitmap 32} {numBlocks : Nat} :
    ∀ {remaining i icnt iStart found : Nat}, FindInvariant bitmap numBlocks i icnt iStart →
      (kpmmFindLoop bitmap numBlocks remaining i icnt iStart = some found ↔
        Disjoint (Ico (32 * found) (32 * found + numBlocks)) bitmap.bits ∧
          found + numBlocks / 32 < i + remaining ∧
          ∀ j < found, ¬Disjoint (Ico (32 * j) (32 * j + numBlocks)) bitmap.bits)
  | 0, i, icnt, iStart, found, inv => by
    have started := inv.started
    have counted := inv.counted
    simp only [kpmmFindLoop, reduceCtorEq, false_iff]
    rintro ⟨free, reached, -⟩
    exact inv.first found (by omega) free
  | remaining + 1, i, icnt, iStart, found, inv => by
    rw [show i + (remaining + 1) = i + 1 + remaining by omega, kpmmFindLoop]
    split
    · -- all of element `i` is needed
      rename_i large
      split
      · rename_i elementTaken
        rw [Ne, element_eq_zero_iff, not_disjoint_iff] at elementTaken
        obtain ⟨k, ⟨low, high⟩, isSet⟩ := elementTaken
        exact kpmmFindLoop_eq_some_iff (inv.restart low (by omega) isSet)
      · rename_i elementFree
        rw [not_not, element_eq_zero_iff] at elementFree
        exact kpmmFindLoop_eq_some_iff (inv.advance large elementFree)
    · -- the last blocks are the low ones of element `i`
      rename_i small
      split
      · rename_i lowTaken
        rw [Ne, masked_eq_zero_iff (by omega), not_disjoint_iff] at lowTaken
        obtain ⟨k, ⟨low, high⟩, isSet⟩ := lowTaken
        exact kpmmFindLoop_eq_some_iff (inv.restart low high isSet)
      · rename_i lowFree
        rw [not_not, masked_eq_zero_iff (by omega)] at lowFree
        have started := inv.started
        have counted := inv.counted
        have free : Disjoint (Ico (32 * iStart) (32 * iStart + numBlocks)) bitmap.bits := by
          rw [show 32 * iStart + numBlocks = 32 * i + icnt by omega,
            ← Ico_union_Ico_eq_Ico (b := 32 * i) (by omega) (by omega), disjoint_union_left]
          exact ⟨inv.free, lowFree⟩
        constructor
        · intro result
          obtain rfl : iStart = found := by simpa using result
          exact ⟨free, by omega, inv.first⟩
        · rintro ⟨foundFree, -, first⟩
          have notBefore : ¬found < iStart := fun before => inv.first found before foundFree
          have notAfter : ¬iStart < found := fun after => first iStart after free
          rw [show iStart = found by omega]

/-- The region found is free, inside the bitmap, and no earlier element starts one. -/
theorem kpmmFindLoop_spec {bitmap : Bitmap 32} {numBlocks remaining i icnt iStart found : Nat}
    (inv : FindInvariant bitmap numBlocks i icnt iStart)
    (result : kpmmFindLoop bitmap numBlocks remaining i icnt iStart = some found) :
    Disjoint (Ico (32 * found) (32 * found + numBlocks)) bitmap.bits ∧
      32 * found + numBlocks ≤ 32 * (i + remaining) ∧
      ∀ j < found, ¬Disjoint (Ico (32 * j) (32 * j + numBlocks)) bitmap.bits := by
  obtain ⟨free, reached, first⟩ := (kpmmFindLoop_eq_some_iff inv).mp result
  exact ⟨free, by omega, first⟩

/-! ## Allocating -/

/-- The blocks that `kpmm_memory_bitmap` has bits for. -/
def bitmapBlocks : Set Nat := Ico 0 (32 * memoryBitmapLength)

/-- The address of a region is computed in 32 bits, so a region beyond 4 GB is handed out
at a lower address: still one of the bitmap's. -/
theorem kpmmFindFreeRegion_inside {bitmap : Bitmap 32} {numBlocks area : Nat}
    (found : kpmmFindFreeRegion bitmap numBlocks = .ok area) :
    blockRange area numBlocks ⊆ bitmapBlocks := by
  unfold kpmmFindFreeRegion at found
  split at found
  · rename_i iStart searched
    obtain ⟨-, inside, -⟩ := kpmmFindLoop_spec (.init bitmap numBlocks) searched
    obtain rfl : u32 (iStart * 32 * pageSize) = area := by simpa using found
    have lower : u32 (iStart * 32 * pageSize) / pageSize ≤ iStart * 32 :=
      (Nat.div_le_div_right (Nat.mod_le _ _)).trans (by simp)
    exact Ico_subset_Ico (Nat.zero_le _) (by omega)
  · simp at found

/-- A region that `kpmm_alloc` returns was free and is all that it marked; a failed
allocation may leave blocks of the bitmap marked, but unmarks none. -/
theorem kpmmAlloc_spec (bitmap : Bitmap 32) (numBlocks : Nat) :
    match kpmmAlloc bitmap numBlocks with
    | (.ok area, marked) =>
      Disjoint (blockRange area numBlocks) bitmap.bits ∧
        blockRange area numBlocks ⊆ bitmapBlocks ∧
        marked.bits = bitmap.bits ∪ blockRange area numBlocks
    | (.error _, marked) =>
      bitmap.bits ⊆ marked.bits ∧ marked.bits ⊆ bitmap.bits ∪ bitmapBlocks := by
  unfold kpmmAlloc
  cases found : kpmmFindFreeRegion bitmap numBlocks with
  | error hr => exact ⟨subset_rfl, subset_union_left⟩
  | ok area =>
    have inside := kpmmFindFreeRegion_inside found
    obtain ⟨lower, upper⟩ := kpmmMarkBlocks_bounds bitmap area numBlocks
    replace upper := upper.trans (union_subset_union_right _ inside)
    -- an address that has wrapped around may be that of a region in use
    by_cases free : Disjoint (blockRange area numBlocks) bitmap.bits
    · obtain ⟨status, marked⟩ := kpmmMarkBlocks_free free
      cases outcome : kpmmMarkBlocks bitmap area numBlocks with
      | mk hr after => simp_all
    · have status := kpmmMarkBlocks_occupied free
      cases outcome : kpmmMarkBlocks bitmap area numBlocks with
      | mk hr after => simp_all

end Antonix
