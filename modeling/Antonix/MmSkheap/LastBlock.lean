import Antonix.MmSkheap.Ownership

/-! # The last block of the static kernel heap

The searches use all 4096 blocks, but `skheap_mark_region` takes a region that
ends with the last block for one outside the heap.  An allocation therefore
halts the kernel exactly when the only place for it is the one at the very end
of the pool. -/

namespace Antonix

open Bitmap Set Transition

/-- The number of blocks that both allocators look for. -/
def skhBlocks (size : Int) : Nat := asU32 (skhExtSize size) / skheapBlockSize

/-! ## Marking what a search has found -/

/-- Marking free blocks panics only when they reach the end of the heap. -/
theorem skheapMarkRegion_returns_iff {heap : SkHeap} {blocks start : Nat}
    (fits : SkhFits heap.bitmap blocks start) (positive : 0 < blocks) :
    (∃ marked, skheapMarkRegion heap (heap.regionStart + start * skheapBlockSize)
        (blocks * skheapBlockSize) true = .ok marked) ↔ start + blocks ≠ skheapBlockCount := by
  obtain ⟨free, inside⟩ := fits
  have count : skheapBlockCount = 4096 := rfl
  rw [skheapMarkRegion_blocks (by omega) positive]
  by_cases last : start + blocks = skheapBlockCount
  · rw [if_pos last.ge]
    simp [last]
  · obtain ⟨bitmap, marking, -⟩ := skheapMarkLoop_inUse free
    rw [if_neg (by omega), marking]
    exact ⟨fun _ => last, fun _ => ⟨{ heap with bitmap }, rfl⟩⟩

/-- The lowest start reaches the end of the heap when there is no other. -/
theorem lowest_at_end_iff {starts : Set Nat} {blocks start : Nat} (least : IsLeast starts start)
    (inside : ∀ t ∈ starts, t + blocks ≤ skheapBlockCount) :
    start + blocks = skheapBlockCount ↔ starts = {skheapBlockCount - blocks} := by
  constructor
  · intro last
    refine Subset.antisymm (fun t member => ?_) ?_
    · have low := least.2 member
      have high := inside t member
      exact mem_singleton_iff.mpr (by omega)
    · rw [singleton_subset_iff, show skheapBlockCount - blocks = start by omega]
      exact least.1
  · intro only
    have high := inside start least.1
    have here : start = skheapBlockCount - blocks := by
      have member := least.1
      rw [only] at member
      exact member
    omega

/-- After a search for the lowest start, an allocator returns unless the only start is the one
that reaches the end of the heap. -/
theorem skhRequest_returns_iff {heap : SkHeap} {search : Except Halt (Option Nat)}
    {starts : Set Nat} {extSize : Nat} (place : Nat → Nat) (write : Nat → ByteMem → ByteMem)
    (lowest : ReturnsLowest heap starts search)
    (fits : ∀ start ∈ starts, SkhFits heap.bitmap (extSize / skheapBlockSize) start)
    (whole : extSize % skheapBlockSize = 0) (positive : 0 < extSize / skheapBlockSize) :
    (∃ answer : Option Nat × SkHeap, (search >>= fun found => match found with
      | none => .ok (none, heap)
      | some p => skheapMarkRegion heap p extSize true >>= fun marked =>
        .ok (some (place p), { marked with memory := write p marked.memory })) = .ok answer) ↔
      starts ≠ {skheapBlockCount - extSize / skheapBlockSize} := by
  cases lowest with
  | inr none =>
    obtain ⟨empty, rfl⟩ := none
    rw [empty]
    exact ⟨fun _ => (singleton_ne_empty _).symm, fun _ => ⟨(Option.none, heap), rfl⟩⟩
  | inl found =>
    obtain ⟨start, least, rfl⟩ := found
    have marks := skheapMarkRegion_returns_iff (fits start least.1) positive
    rw [Nat.div_mul_cancel (Nat.dvd_of_mod_eq_zero whole)] at marks
    rw [Ne, ← lowest_at_end_iff least fun t member => (fits t member).2, ← Ne, ← marks]
    constructor
    · rintro ⟨answer, returned⟩
      obtain ⟨found, searched, rest⟩ := exists_of_bind returned
      rw [Except.ok.injEq] at searched
      subst searched
      obtain ⟨marked, marking, -⟩ := exists_of_bind rest
      exact ⟨marked, marking⟩
    · rintro ⟨marked, marking⟩
      let p := heap.regionStart + start * skheapBlockSize
      refine ⟨(some (place p), { marked with memory := write p marked.memory }), ?_⟩
      simp only [bind, Except.bind, marking, p]

/-! ## The allocators -/

/-- An allocator's answer: `NULL` from a heap that it left alone, or blocks that it granted. -/
inductive SkhAnswered (heap : SkHeap) (size : Int) (aligned : Bool) :
    Except Halt (Option Nat × SkHeap) → Prop
  | null : SkhAnswered heap size aligned (.ok (none, heap))
  | block {ptr : Nat} {heap' : SkHeap} : SkhGrant heap ⟨ptr, size, aligned⟩ heap' →
      SkhAnswered heap size aligned (.ok (some ptr, heap'))

theorem skhAnswered_iff {heap : SkHeap} {size : Int} {aligned : Bool}
    {outcome : Except Halt (Option Nat × SkHeap)}
    (nulls : ∀ heap', outcome = .ok (none, heap') → heap' = heap)
    (grants : ∀ ptr heap', outcome = .ok (some ptr, heap') →
      SkhGrant heap ⟨ptr, size, aligned⟩ heap') :
    SkhAnswered heap size aligned outcome ↔ ∃ answer, outcome = .ok answer := by
  constructor
  · intro answered
    cases answered with
    | null => exact ⟨_, rfl⟩
    | block _ => exact ⟨_, rfl⟩
  · rintro ⟨⟨ptr, heap'⟩, returned⟩
    cases ptr with
    | none =>
      obtain rfl := nulls heap' returned
      exact returned ▸ .null
    | some ptr => exact returned ▸ .block (grants ptr heap' returned)

/-- There is nowhere to go but to the end of the pool. -/
def OnlyAtEnd (starts : Set Nat) (size : Int) : Prop :=
  0 < size ∧ starts = {skheapBlockCount - skhBlocks size}

theorem skheapMalloc_answers_iff (heap : SkHeap) {size : Int} (int32 : size < 2 ^ 31) :
    SkhAnswered heap size false (skheapMalloc heap size) ↔
      ¬OnlyAtEnd (plainStarts heap.bitmap (skhBlocks size)) size := by
  rw [skhAnswered_iff (fun _ => skheapMalloc_null) fun _ _ => skheapMalloc_grant int32,
    skheapMalloc, OnlyAtEnd]
  by_cases positive : 0 < size
  · have whole := skhExtSize_whole positive int32
    have blocks := skhExtSize_blocks positive int32
    have lowest := (skheap_search_lowest heap _ (Nat.pos_of_div_pos blocks) whole).1
    rw [if_neg (by omega), and_iff_right positive]
    exact skhRequest_returns_iff (· + skhControlSize)
      (fun p memory => (skhControlOf size 0).store memory p) lowest
      (fun start member => member.2) whole blocks
  · rw [if_pos (by omega)]
    exact ⟨fun _ only => positive only.1, fun _ => ⟨_, rfl⟩⟩

theorem skheapMallocA_answers_iff (heap : SkHeap) {size : Int} (int32 : size < 2 ^ 31) :
    SkhAnswered heap size true (skheapMallocA heap size) ↔
      ¬OnlyAtEnd (alignedStarts boundariesInside heap.bitmap (skhBlocks size)) size := by
  rw [skhAnswered_iff (fun _ => skheapMallocA_null) fun _ _ => skheapMallocA_grant int32,
    skheapMallocA, OnlyAtEnd]
  by_cases positive : 0 < size
  · have whole := skhExtSize_whole positive int32
    have blocks := skhExtSize_blocks positive int32
    have lowest := (skheap_search_lowest heap _ (Nat.pos_of_div_pos blocks) whole).2
    rw [if_neg (by omega), and_iff_right positive]
    exact skhRequest_returns_iff (· + skheapBlockSize) (fun p memory =>
        (skhControlOf size (skheapBlockSize - skhControlSize)).store memory
          (p + (skheapBlockSize - skhControlSize))) lowest
      (fun start member => member.2) whole blocks
  · rw [if_pos (by omega)]
    exact ⟨fun _ only => positive only.1, fun _ => ⟨_, rfl⟩⟩

/-! ## Histories -/

/-- Requests ask for an `int32_t` size. -/
def SkhCall.Int32 : SkhCall → Prop
  | .malloc size => -2 ^ 31 ≤ size ∧ size < 2 ^ 31
  | .mallocA size => -2 ^ 31 ≤ size ∧ size < 2 ^ 31
  | _ => True

/-- An allocation returns. -/
def SkhHistory.answers (history : SkhHistory) : SkhCall → Prop
  | .malloc size => SkhAnswered history.heap size false (skheapMalloc history.heap size)
  | .mallocA size => SkhAnswered history.heap size true (skheapMallocA history.heap size)
  | _ => True

/-- The allocation is impossible, or has a place other than the one at the end of the pool. -/
def SkhHistory.clearOfEnd (history : SkhHistory) : SkhCall → Prop
  | .malloc size => ¬OnlyAtEnd (plainStarts history.heap.bitmap (skhBlocks size)) size
  | .mallocA size =>
    ¬OnlyAtEnd (alignedStarts boundariesInside history.heap.bitmap (skhBlocks size)) size
  | _ => True

theorem SkhHistory.answers_iff (history : SkhHistory) {call : SkhCall} (int32 : call.Int32) :
    history.answers call ↔ history.clearOfEnd call := by
  cases call with
  | malloc size => exact skheapMalloc_answers_iff history.heap int32.2
  | mallocA size => exact skheapMallocA_answers_iff history.heap int32.2
  | free alloc => exact Iff.rfl
  | poke addr value => exact Iff.rfl

/-- In every sequence of calls all allocations return, with `NULL` or with a block, if and only
if none of them finds the end of the pool as its only place. -/
theorem skheap_allocations_return_iff (start : SkHeap) {calls : List SkhCall}
    (int32 : ∀ call ∈ calls, call.Int32) :
    Along SkhStep SkhHistory.answers ⟨start, []⟩ calls ↔
      Along SkhStep SkhHistory.clearOfEnd ⟨start, []⟩ calls :=
  Along.iff_of_inv (fun _ => True) int32 (fun history _ _ valid => history.answers_iff valid)
    (fun _ _ _ _ _ _ _ => trivial) trivial

/-- The heap after `skheap_init`. -/
def emptySkHeap : SkHeap where
  regionStart := 0xC0200000
  bitmap := fun _ => 0#8
  memory := fun _ => 0#8
  fits := by decide

theorem skheap_allocations_return_first :
    Along SkhStep SkhHistory.answers ⟨emptySkHeap, []⟩ [.malloc 100] := by
  have int32 : ∀ call ∈ [SkhCall.malloc 100], call.Int32 :=
    List.forall_mem_singleton.mpr ⟨by decide, by decide⟩
  refine (skheap_allocations_return_iff emptySkHeap int32).mpr (.single fun only => ?_)
  have first : 0 ∈ plainStarts emptySkHeap.bitmap (skhBlocks 100) := by
    refine ⟨rfl, disjoint_left.mpr fun b _ isSet => ?_, by decide⟩
    simp [emptySkHeap] at isSet
  rw [only.2] at first
  exact absurd first (by decide)

/-- The first allocation takes the whole pool. -/
theorem skheap_allocations_panic :
    skheapInit ⟨0xC0200000, rfl, by decide⟩ (fun _ => 0#8) = .ok emptySkHeap ∧
    skheapMalloc emptySkHeap 0xFFFEF =
      .error (.panic "Trying to mark region outside of static kernel heap region.") ∧
    ¬Along SkhStep SkhHistory.answers ⟨emptySkHeap, []⟩ [.malloc 0xFFFEF] := by
  have panics : skheapMalloc emptySkHeap 0xFFFEF =
      .error (.panic "Trying to mark region outside of static kernel heap region.") := by
    set_option maxRecDepth 20000 in rfl
  refine ⟨rfl, panics, fun along => ?_⟩
  have answered : SkhAnswered _ _ _ (skheapMalloc emptySkHeap 0xFFFEF) := along.1
  rw [panics] at answered
  cases answered

end Antonix
