import Antonix.StdlibMemory.Failure

/-! # Successful reallocations

The new block gets the bytes of the old one, wherever the two lie, and the old
one becomes free. -/

namespace Antonix

open Set

/-- A sound state whose heaps all end below `2 ^ 32`, so that the pointer past the last byte
exists. -/
structure MmState.WellFormed (state : MmState) (live : List MmAllocation)
    (layout : Nat → List MmBlock) : Prop extends state.Sound live layout where
  ends : ∀ d ∈ state.ctx.heaps, d.memory + d.size < 2 ^ 32

/-- A heap that the kernel creates ends below `2 ^ 32` and is apart from the earlier heaps. -/
def MmKernel.WellPlaced (kernel : MmKernel) (state : MmState) : Prop :=
  ∀ pid usage base, kernel.vmmCreateHeap pid defaultHeapSize usage = .ok base →
    base + defaultHeapSize < 2 ^ 32 ∧
      ∀ d ∈ state.ctx.heaps, Disjoint (MmHeapDescriptor.range ⟨base, defaultHeapSize⟩) d.range

section

variable {kernel : MmKernel} {state state' : MmState} {live : List MmAllocation}
  {layout : Nat → List MmBlock} {size : Nat} {alloc : MmAllocation}

theorem MmKernel.WellPlaced.fresh (placed : kernel.WellPlaced state) : kernel.Fresh state :=
  fun pid usage base answer => ⟨(placed pid usage base answer).1.le,
    (placed pid usage base answer).2⟩

theorem MmKernel.WellPlaced.ends (placed : kernel.WellPlaced state)
    (before : ∀ d ∈ state.ctx.heaps, d.memory + d.size < 2 ^ 32)
    (heaps : ∀ d ∈ state'.ctx.heaps, d ∈ state.ctx.heaps ∨ kernel.Made d) :
    ∀ d ∈ state'.ctx.heaps, d.memory + d.size < 2 ^ 32 := by
  intro d member
  cases heaps d member with
  | inl older => exact before d older
  | inr made =>
    obtain ⟨pid, usage, base, answer, rfl⟩ := made
    exact (placed pid usage base answer).1

theorem MmState.WellFormed.mergeable (wellFormed : state.WellFormed live layout) :
    ¬MmState.Sound.Unmergeable state layout alloc := by
  rintro ⟨id, d, heap, -, top, -⟩
  have := wellFormed.ends d (List.mem_of_getElem? heap)
  omega

/-- When `realloc` returns a block, that block is live and holds the first bytes of the old one,
which is free; no other live block has lost a byte, and the state is well formed. -/
theorem realloc_preserves {q : Nat} (wellFormed : state.WellFormed live layout)
    (placed : kernel.WellPlaced state) (isLive : alloc ∈ live) (positive : 0 < size)
    (request : size + mmControlSize < 2 ^ 32)
    (returned : realloc kernel state (some alloc.ptr) size = .ok (some q, state')) :
    (∃ layout', state'.WellFormed (⟨q, size⟩ :: live.erase alloc) layout') ∧
      (∀ k < min alloc.size size, state'.memory (q + k) = state.memory (alloc.ptr + k)) ∧
      (∀ other ∈ live.erase alloc, EqOn state'.memory state.memory other.payload) ∧
      (MmControlBlock.load state'.memory (alloc.ptr - mmControlSize)).free = true ∧
      ∀ other ∈ (⟨q, size⟩ :: live.erase alloc : List MmAllocation), other.ptr ≠ alloc.ptr := by
  have notEmpty : ¬size = 0 := by omega
  obtain ⟨new, middle, allocated, ⟨layout', sound⟩, frame⟩ :=
    wellFormed.malloc placed.fresh request
  obtain ⟨new', middle', allocated', -, heaps⟩ := wellFormed.malloc_returns placed.fresh size
  obtain ⟨rfl, rfl⟩ := eq_of_returned (allocated.symm.trans allocated')
  have ends := placed.ends wellFormed.ends heaps
  cases new with
  | none =>
    obtain ⟨state'', freed, -⟩ := sound.free isLive
    simp only [realloc, if_neg notEmpty, allocated, freed, bind, Except.bind] at returned
    obtain ⟨none, -⟩ := eq_of_returned returned
    contradiction
  | some new =>
    obtain ⟨state'', freed, ctx, ⟨layout'', sound''⟩, bytes, others, isFree⟩ := sound.move isLive
    simp only [realloc, if_neg notEmpty, allocated, bind, Except.bind] at returned
    rw [freed] at returned
    obtain ⟨newest, rfl⟩ := eq_of_returned returned
    obtain rfl := Option.some.inj newest
    refine ⟨⟨layout'', sound'', ctx ▸ ends⟩, ?_, ?_, ?_, ?_⟩
    · intro k small
      obtain ⟨_, _, _, oldPlaced⟩ := wellFormed.placed alloc isLive
      have inside : alloc.ptr + k ∈ alloc.payload := ⟨by omega, by omega⟩
      rw [← oldPlaced.payload_eq] at inside
      rw [bytes k small, frame alloc isLive (MmBlock.payload_subset inside)]
    · intro other left
      obtain ⟨_, _, _, otherPlaced⟩ := wellFormed.placed other (List.mem_of_mem_erase left)
      rw [← otherPlaced.payload_eq]
      exact ((others other left).trans (frame other (List.mem_of_mem_erase left))).mono
        MmBlock.payload_subset
    · exact isFree (MmState.WellFormed.mergeable ⟨sound, ends⟩)
    · refine List.forall_mem_cons.mpr ⟨(List.pairwise_cons.mp sound.distinct).1 alloc isLive,
        fun other left => (wellFormed.ptr_ne_of_erase isLive left).symm⟩

end

/-- The first block of all grows from 100 to 200 bytes. -/
theorem realloc_preserves_first : ∃ state state',
    malloc oneHeapKernel ⟨mmContext, fun _ => 0#8⟩ 100 = .ok (some 0xC8000014, state) ∧
      realloc noHeapKernel state (some 0xC8000014) 200 = .ok (some 0xC800008C, state') ∧
      ∀ k < 100, state'.memory (0xC800008C + k) = state.memory (0xC8000014 + k) := by
  obtain ⟨state, layout, allocated, heaps, sound⟩ := exists_first_block
  have known : (malloc oneHeapKernel ⟨mmContext, fun _ => 0#8⟩ 100 >>= fun result =>
      realloc noHeapKernel result.2 (some 0xC8000014) 200).toOption.map Prod.fst =
      some (some 0xC800008C) := by decide +kernel
  rw [allocated] at known
  obtain ⟨state', moved⟩ :
      ∃ state', realloc noHeapKernel state (some 0xC8000014) 200 = .ok (some 0xC800008C, state') :=
    exists_of_value known
  have ends : ∀ d ∈ state.ctx.heaps, d.memory + d.size < 2 ^ 32 := by
    rw [heaps]
    decide
  have placed : noHeapKernel.WellPlaced state := by
    intro pid usage base answer
    simp [noHeapKernel] at answer
  have isLive : (⟨0xC8000014, 100⟩ : MmAllocation) ∈ [(⟨0xC8000014, 100⟩ : MmAllocation)] :=
    List.mem_cons_self
  exact ⟨state, state', allocated, moved,
    (realloc_preserves ⟨sound, ends⟩ placed isLive (by decide) (by decide) moved).2.1⟩

end Antonix
