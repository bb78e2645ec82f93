import Antonix.StdlibMemory.Layout

/-! # What the allocator writes

Taking a block, freeing one and creating a heap write headers only: the headers
read back as those of the new blocks, and every other byte stays. -/

namespace Antonix

open Set

section

variable {memory : ByteMem} {id size : Nat} {block : MmBlock}

/-- Taking a block that suits splits it in two. -/
theorem mmTakeBlock_spec (header : MmControlBlock.load memory block.addr = block.control id)
    (suits : block.Suits size) (fits : block.addr + block.len ≤ 2 ^ 32)
    (request : size + mmControlSize < 2 ^ 32) :
    let taken : MmBlock := ⟨block.addr, size, false⟩
    let rest : MmBlock :=
      ⟨block.addr + mmControlSize + size, block.size - size - mmControlSize, true⟩
    Headed (mmTakeBlock memory block.addr size) id [taken, rest] ∧
      EqOn (mmTakeBlock memory block.addr size) memory (taken.header ∪ rest.header)ᶜ := by
  obtain ⟨-, room⟩ := suits
  simp only [MmBlock.control, MmControlBlock.load, MmControlBlock.mk.injEq] at header
  obtain ⟨heapId, magic, blockSize, padding, -⟩ := header
  have idFits : id < 2 ^ 32 := heapId ▸ memory.load32_lt _
  simp only [MmBlock.len, mmControlSize] at fits room request
  have next : u32 (block.addr + mmControlSize + size) = block.addr + 20 + size := by
    rw [mmControlSize, u32_of_lt (by omega)]
  have restSize : u32 (block.size + (2 ^ 32 - size) + (2 ^ 32 - mmControlSize)) =
      block.size - size - 20 := by
    simp only [u32, mmControlSize]
    omega
  -- a block that suits is larger than the request, so it is always split
  have notEqual : memory.load32 (block.addr + 8) ≠ size := by omega
  rw [mmTakeBlock, if_neg notEqual]
  simp (disch := omega) only [next, ByteMem.load32_store32_of_apart,
    ByteMem.load32_store8_of_apart, blockSize, heapId, restSize]
  constructor
  · intro written member
    simp only [List.mem_cons, List.not_mem_nil, or_false] at member
    cases member with
    | inl first =>
      subst first
      simp (disch := omega) only [MmControlBlock.load, MmBlock.control, ByteMem.load32_store32,
        ByteMem.load32_store32_of_apart, ByteMem.load32_store8_of_apart, heapId, magic, padding,
        ByteMem.store32_apply_of_apart, ByteMem.store8_same]
      rfl
    | inr second =>
      subst second
      simp (disch := omega) only [MmControlBlock.load, MmBlock.control, ByteMem.load32_store32,
        ByteMem.load32_store32_of_apart, ByteMem.load32_store8_of_apart, mmControlSize, mmMagic,
        ByteMem.store32_apply_of_apart, ByteMem.store8_apply_of_ne, ByteMem.store8_same]
      rfl
  · intro b outside
    simp only [MmBlock.header, mem_compl_iff, mem_union, mem_Ico, mmControlSize] at outside
    simp (disch := omega) only [ByteMem.store32_apply_of_apart, ByteMem.store8_apply_of_ne]

/-- Freeing rewrites size and flag of one header. -/
theorem mmFreeHeader_spec (header : MmControlBlock.load memory block.addr = block.control id)
    (fits : size < 2 ^ 32) :
    let merged : MmBlock := ⟨block.addr, size, true⟩
    let memory' := (memory.store32 (block.addr + 8) size).store8 (block.addr + 16) 1
    MmControlBlock.load memory' block.addr = merged.control id ∧
      EqOn memory' memory merged.headerᶜ := by
  simp only [MmBlock.control, MmControlBlock.load, MmControlBlock.mk.injEq] at header
  obtain ⟨heapId, magic, -, padding, -⟩ := header
  constructor
  · simp (disch := omega) only [MmControlBlock.load, MmBlock.control, ByteMem.load32_store32,
      ByteMem.load32_store32_of_apart, ByteMem.load32_store8_of_apart, heapId, magic, padding,
      ByteMem.store8_same]
    rfl
  · intro b outside
    simp only [MmBlock.header, mem_compl_iff, mem_Ico, mmControlSize] at outside
    simp (disch := omega) only [ByteMem.store32_apply_of_apart, ByteMem.store8_apply_of_ne]

end

/-- A block has been freed: it has grown over the run of free blocks behind it, up to `stop`. -/
structure MmFreed (d : MmHeapDescriptor) (id : Nat) (memory : ByteMem) (block : MmBlock)
    (back run rest : List MmBlock) (size stop : Nat) (memory' : ByteMem) : Prop where
  split : back = run ++ rest
  runFree : ∀ block ∈ run, block.free = true
  stopped : ∀ block ∈ rest.head?, block.free = false
  ends : block.addr + mmControlSize + size = stop
  right : MmTiling stop rest (d.memory + d.size)
  header : MmControlBlock.load memory' block.addr = (MmBlock.mk block.addr size true).control id
  same : EqOn memory' memory block.headerᶜ

/-- Freeing a block merges it with what is behind it, or does nothing when the heap ends at the
top of the address space and the block is not its last. -/
theorem mmFreeBlockFromHeap_spec {d : MmHeapDescriptor} {id : Nat} {memory : ByteMem}
    {block : MmBlock} {blocks front back : List MmBlock} (heap : d.Represents id memory blocks)
    (blocksEq : blocks = front ++ block :: back) :
    (mmFreeBlockFromHeap memory d block.addr = .ok (false, memory) ∧ d.memory + d.size = 2 ^ 32 ∧
      block.addr + mmControlSize + block.size < 2 ^ 32) ∨
    ((d.memory + d.size = 2 ^ 32 → block.addr + mmControlSize + block.size = 2 ^ 32) ∧
      ∃ run rest size stop memory', MmFreed d id memory block back run rest size stop memory' ∧
        mmFreeBlockFromHeap memory d block.addr = .ok (true, memory')) := by
  subst blocksEq
  obtain ⟨a, left, tiled⟩ := Tiling.split heap.tiled
  obtain ⟨rfl, -⟩ := MmTiling.block_bounds tiled
  have tail := MmTiling.tail tiled
  have fits := heap.fits
  have heapSize := heap.size
  have started := left.le
  have header := heap.headed block (by simp)
  have next : u32 (block.addr + mmControlSize + block.size + 0) =
      u32 (block.addr + mmControlSize + block.size) := rfl
  have backHeaded : Headed memory id back := fun later member =>
    heap.headed later (by simp [member])
  have enough : back.length < d.size + 1 := by
    have := heap.length_lt
    rw [List.length_append, List.length_cons] at this
    omega
  have walk := mmMergeLoop_spec fits 0 tail backHeaded
    (by simp only [defaultHeapSize] at heapSize; omega) enough
  rw [show u32 0 = 0 from rfl] at walk
  simp only [mmFreeBlockFromHeap, header, MmBlock.control, next]
  rw [show MmHeapDescriptor.endAddress d = u32 (d.memory + d.size) from rfl]
  cases walk with
  | inl gaveUp =>
    refine .inl ⟨?_, gaveUp.2.1, gaveUp.2.1 ▸ gaveUp.2.2⟩
    rw [gaveUp.1]
    rfl
  | inr merged =>
    obtain ⟨last, run, rest, stop, split, runFree, stopped, runTiled, result⟩ := merged
    have grown := runTiled.le
    obtain ⟨stop', runTiled', right⟩ := Tiling.split (split ▸ tail)
    obtain rfl := runTiled.stop_unique runTiled'
    have after := right.le
    let size := block.size + (stop - (block.addr + mmControlSize + block.size))
    have newSize : u32 (block.size + u32 (0 + (stop -
        (block.addr + mmControlSize + block.size)))) = size := by
      simp only [size, u32, mmControlSize, defaultHeapSize] at *
      omega
    have small : size < 2 ^ 32 := by
      simp only [size, mmControlSize, defaultHeapSize] at *
      omega
    obtain ⟨freed, same⟩ := mmFreeHeader_spec header small
    refine .inr ⟨fun top => (last top).trans top, run, rest, size, stop, _,
      ⟨split, runFree, stopped, ?_, right, freed, same⟩, ?_⟩
    · simp only [size]
      omega
    · rw [result]
      simp only [bind, Except.bind, newSize]

/-- A new heap is one free block. -/
theorem mmCreateHeap_spec {kernel : MmKernel} {state state' : MmState}
    (created : mmCreateHeap kernel state = (true, state'))
    (few : state.ctx.heaps.length < 2 ^ 32) :
    ∃ base usage, kernel.vmmCreateHeap state.ctx.pid defaultHeapSize usage = .ok base ∧
      let whole : MmBlock := ⟨base, defaultHeapSize - mmControlSize, true⟩
      state'.ctx = { state.ctx with heaps := state.ctx.heaps ++ [⟨base, defaultHeapSize⟩] } ∧
        MmControlBlock.load state'.memory base = whole.control state.ctx.heaps.length ∧
        EqOn state'.memory state.memory whole.headerᶜ := by
  unfold mmCreateHeap at created
  split at created
  · simp at created
  · simp only at created
    split at created
    · simp at created
    · rename_i base allocated
      simp only [Prod.mk.injEq, true_and] at created
      subst created
      refine ⟨base, _, allocated, rfl, ?_, ?_⟩
      · simp (disch := omega) only [MmControlBlock.load, MmBlock.control, ByteMem.load32_store32,
          ByteMem.load32_store32_of_apart, ByteMem.load32_store8_of_apart, mmMagic,
          ByteMem.store32_apply_of_apart, ByteMem.store8_same, defaultHeapSize, mmControlSize]
        rfl
      · intro b outside
        simp only [MmBlock.header, mem_compl_iff, mem_Ico, mmControlSize] at outside
        simp (disch := omega) only [ByteMem.store32_apply_of_apart, ByteMem.store8_apply_of_ne]

theorem mmCreateHeap_refused {kernel : MmKernel} {state state' : MmState}
    (refused : mmCreateHeap kernel state = (false, state')) : state' = state := by
  unfold mmCreateHeap at refused
  split at refused
  · simpa using refused.symm
  · simp only at refused
    split at refused
    · simpa using refused.symm
    · simp at refused

end Antonix
