import Antonix.MmPhys.Spec
import Mathlib.Order.Nat

/-! # What `kpmm_find_free_region` finds

The search looks for a run of free blocks that starts with an element of the
bitmap.  `FreeRun` says that such a run is free, `FitsFree` that it also exists
in the bitmap; the two results of this file compare what the search answers
with them.

The bitmap describes 16 GB while an address has 32 bits, and a run of whole
elements is accepted only at the element after it.  So the answer is right
for the runs of the first 4 GB, and complete except for a run of whole elements
that ends with the bitmap. -/

namespace Antonix

open Bitmap Set

/-- The `numBlocks` blocks from element `s` on are clear. -/
def FreeRun (bitmap : Bitmap 32) (numBlocks s : Nat) : Prop :=
  Disjoint (Ico (32 * s) (32 * s + numBlocks)) bitmap.bits

/-- They are clear, and the bitmap has them all. -/
def FitsFree (bitmap : Bitmap 32) (numBlocks s : Nat) : Prop :=
  FreeRun bitmap numBlocks s ∧ 32 * s + numBlocks ≤ 32 * memoryBitmapLength

theorem kpmmFindLoop_found {bitmap : Bitmap 32} {numBlocks s : Nat} :
    kpmmFindLoop bitmap numBlocks memoryBitmapLength 0 numBlocks 0 = some s ↔
      IsLeast {s | FreeRun bitmap numBlocks s} s ∧ s + numBlocks / 32 < memoryBitmapLength := by
  rw [kpmmFindLoop_eq_some_iff (.init bitmap numBlocks), Nat.zero_add]
  constructor
  · rintro ⟨free, reached, first⟩
    refine ⟨⟨free, fun j freeToo => ?_⟩, reached⟩
    by_contra below
    exact first j (by omega) freeToo
  · rintro ⟨⟨free, least⟩, reached⟩
    refine ⟨free, reached, fun j below freeToo => ?_⟩
    have := least freeToo
    omega

/-- A search that some run meets ends. -/
theorem kpmmFindLoop_of_run {bitmap : Bitmap 32} {numBlocks s : Nat}
    (free : FreeRun bitmap numBlocks s) (reached : s + numBlocks / 32 < memoryBitmapLength) :
    ∃ found ≤ s, IsLeast {s | FreeRun bitmap numBlocks s} found ∧
      kpmmFindLoop bitmap numBlocks memoryBitmapLength 0 numBlocks 0 = some found := by
  classical
  have least := Nat.isLeast_find (p := FreeRun bitmap numBlocks) ⟨s, free⟩
  have below := least.2 free
  exact ⟨_, below, least, kpmmFindLoop_found.mpr ⟨least, by omega⟩⟩

theorem kpmmFindFreeRegion_eq_ok_iff {bitmap : Bitmap 32} {numBlocks area : Nat} :
    kpmmFindFreeRegion bitmap numBlocks = .ok area ↔
      ∃ s, kpmmFindLoop bitmap numBlocks memoryBitmapLength 0 numBlocks 0 = some s ∧
        area = u32 (s * 32 * pageSize) := by
  rw [kpmmFindFreeRegion]
  cases kpmmFindLoop bitmap numBlocks memoryBitmapLength 0 numBlocks 0 with
  | none => simp
  | some s => simp [eq_comm]

/-- The address of element `s` names the element `s % 2 ^ 15`. -/
theorem u32_element (s : Nat) : u32 (s * 32 * pageSize) = 32 * (s % 2 ^ 15) * pageSize := by
  simp only [u32, pageSize]
  omega

theorem blockRange_element (s numBlocks : Nat) :
    blockRange (u32 (s * 32 * pageSize)) numBlocks =
      Ico (32 * (s % 2 ^ 15)) (32 * (s % 2 ^ 15) + numBlocks) := by
  rw [u32_element, blockRange, Nat.mul_div_cancel _ (by decide)]

/-! ## Soundness -/

/-- The address handed out identifies blocks that are clear, below 4 GB. -/
def KpmmFindSound (bitmap : Bitmap 32) (numBlocks : Nat) : Prop :=
  ∀ area, kpmmFindFreeRegion bitmap numBlocks = .ok area →
    Disjoint (blockRange area numBlocks) bitmap.bits ∧ area + pageSize * numBlocks ≤ 2 ^ 32

/-- The search is sound for the bitmaps that have a free run in the first 4 GB, or none at all
that it reaches. -/
theorem kpmm_find_free_region_sound (bitmap : Bitmap 32) (numBlocks : Nat)
    (positive : 1 ≤ numBlocks) :
    KpmmFindSound bitmap numBlocks ↔
      (∃ s, FreeRun bitmap numBlocks s ∧ 32 * s + numBlocks ≤ 2 ^ 20) ∨
        ∀ s, s + numBlocks / 32 < memoryBitmapLength → ¬FreeRun bitmap numBlocks s := by
  constructor
  · intro sound
    by_cases reachable : ∃ s, s + numBlocks / 32 < memoryBitmapLength ∧ FreeRun bitmap numBlocks s
    · obtain ⟨s, reached, free⟩ := reachable
      obtain ⟨found, -, -, searched⟩ := kpmmFindLoop_of_run free reached
      obtain ⟨apart, below⟩ := sound _ (kpmmFindFreeRegion_eq_ok_iff.mpr ⟨found, searched, rfl⟩)
      -- the run that the address names is itself one of the first 4 GB
      rw [blockRange_element] at apart
      rw [u32_element, pageSize] at below
      exact .inl ⟨found % 2 ^ 15, apart, by omega⟩
    · right
      intro s reached free
      exact reachable ⟨s, reached, free⟩
  · intro condition area found
    obtain ⟨s, searched, rfl⟩ := kpmmFindFreeRegion_eq_ok_iff.mp found
    obtain ⟨least, reached⟩ := kpmmFindLoop_found.mp searched
    cases condition with
    | inl low =>
      obtain ⟨t, free, inside⟩ := low
      have below := least.2 free
      have unwrapped : s % 2 ^ 15 = s := Nat.mod_eq_of_lt (by omega)
      rw [blockRange_element, u32_element, unwrapped, pageSize]
      exact ⟨least.1, by omega⟩
    | inr none => exact absurd least.1 (none s reached)

/-- With the first block of an empty bitmap the condition holds. -/
theorem kpmm_find_free_region_sound_empty : KpmmFindSound (fun _ => 0#32) 1 := by
  refine (kpmm_find_free_region_sound _ 1 (by decide)).mpr (.inl ⟨0, ?_, by decide⟩)
  rw [FreeRun, bits_zero]
  exact disjoint_empty _

/-- All of the first 4 GB is in use, and nothing above. -/
def fullBelow4G : Bitmap 32 := fun i => if i < 2 ^ 15 then BitVec.allOnes 32 else 0#32

/-- Block 2^20 is found free, and the address returned is that of block 0. -/
theorem kpmm_find_free_region_not_sound : ¬KpmmFindSound fullBelow4G 1 := by
  have free : FreeRun fullBelow4G 1 (2 ^ 15) := by
    rw [FreeRun, disjoint_left]
    rintro k ⟨low, high⟩ isSet
    obtain rfl : k = 32 * 2 ^ 15 := by omega
    simp [mem_bits, fullBelow4G] at isSet
  intro sound
  obtain ⟨found, -, least, searched⟩ := kpmmFindLoop_of_run free (by decide)
  obtain ⟨apart, -⟩ := sound _ (kpmmFindFreeRegion_eq_ok_iff.mpr ⟨found, searched, rfl⟩)
  rw [blockRange_element, disjoint_left] at apart
  refine apart (a := 32 * (found % 2 ^ 15)) ⟨le_rfl, by omega⟩ ?_
  rw [mem_bits, fullBelow4G, if_pos (by omega)]
  simp

/-! ## Completeness -/

/-- When some run fits and is clear, the search succeeds with the lowest one. -/
def KpmmFindComplete (bitmap : Bitmap 32) (numBlocks : Nat) : Prop :=
  (∃ s, FitsFree bitmap numBlocks s) →
    ∃ s, IsLeast {s | FitsFree bitmap numBlocks s} s ∧
      kpmmFindLoop bitmap numBlocks memoryBitmapLength 0 numBlocks 0 = some s ∧
      kpmmFindFreeRegion bitmap numBlocks = .ok (u32 (s * 32 * pageSize))

/-- The only clear run is made of the last elements of the bitmap. -/
def OnlyAtTheEnd (bitmap : Bitmap 32) (numBlocks : Nat) : Prop :=
  numBlocks % 32 = 0 ∧
    IsLeast {s | FitsFree bitmap numBlocks s} (memoryBitmapLength - numBlocks / 32)

/-- The search is complete except when the only run ends with the bitmap and is made of whole
elements. -/
theorem kpmm_find_free_region_complete (bitmap : Bitmap 32) (numBlocks : Nat) :
    KpmmFindComplete bitmap numBlocks ↔ ¬OnlyAtTheEnd bitmap numBlocks := by
  constructor
  · rintro complete ⟨whole, last⟩
    obtain ⟨s, least, searched, -⟩ := complete ⟨_, last.1⟩
    obtain ⟨-, reached⟩ := kpmmFindLoop_found.mp searched
    have same := least.unique last
    omega
  · rintro notLast ⟨s, fits⟩
    classical
    obtain ⟨first, least⟩ : ∃ first, IsLeast {s | FitsFree bitmap numBlocks s} first :=
      ⟨_, Nat.isLeast_find ⟨s, fits⟩⟩
    obtain ⟨free, inside⟩ := least.1
    -- the search reaches the element after the full ones of every run but the last
    have reached : first + numBlocks / 32 < memoryBitmapLength := by
      by_contra beyond
      have whole : numBlocks % 32 = 0 := by omega
      have last : first = memoryBitmapLength - numBlocks / 32 := by omega
      exact notLast ⟨whole, last ▸ least⟩
    have searched :
        kpmmFindLoop bitmap numBlocks memoryBitmapLength 0 numBlocks 0 = some first := by
      refine kpmmFindLoop_found.mpr ⟨⟨free, fun j freeToo => ?_⟩, reached⟩
      by_contra below
      have fitsToo : FitsFree bitmap numBlocks j := ⟨freeToo, by omega⟩
      exact below (least.2 fitsToo)
    exact ⟨first, least, searched, kpmmFindFreeRegion_eq_ok_iff.mpr ⟨first, searched, rfl⟩⟩

/-- Everything but the last element is in use. -/
def fullButLast : Bitmap 32 := fun i =>
  if i < memoryBitmapLength - 1 then BitVec.allOnes 32 else 0#32

/-- The 32 blocks of the last element are clear and are not found. -/
theorem kpmm_find_free_region_not_complete : ¬KpmmFindComplete fullButLast 32 := by
  have last : FitsFree fullButLast 32 (memoryBitmapLength - 1) := by
    refine ⟨?_, by decide⟩
    rw [FreeRun, ← element_eq_zero_iff]
    rfl
  intro complete
  obtain ⟨s, least, searched, -⟩ := complete ⟨_, last⟩
  obtain ⟨-, reached⟩ := kpmmFindLoop_found.mp searched
  -- an earlier run would contain a block of a full element
  have apart := disjoint_left.mp least.1.1
  refine apart (a := 32 * s) ⟨le_rfl, by omega⟩ ?_
  rw [mem_bits, fullButLast, if_pos (by omega)]
  simp

end Antonix
