import Antonix.StdlibMemory.Realloc

/-! # First fit

`mm_allocate_block_from_heap` could take a block whole when it has exactly the
size of the request, but its walk passes over such blocks: the test in front of
that case asks for the room of another header.  The walk takes the first block
that can hold the request unless that is one of exactly its size. -/

namespace Antonix

/-- The block can hold the request, whole or split. -/
def MmBlock.CanHold (size : Nat) (block : MmBlock) : Prop :=
  block.free = true ∧ (block.size = size ∨ size + mmControlSize ≤ block.size)

/-- The block is the first that can hold the request. -/
structure FirstToHold (size : Nat) (blocks front : List MmBlock) (block : MmBlock)
    (back : List MmBlock) : Prop where
  split : blocks = front ++ block :: back
  holds : block.CanHold size
  first : ∀ earlier ∈ front, ¬earlier.CanHold size

/-- Only one element is the first with a property. -/
theorem first_unique {α : Type*} {p : α → Prop} {x x' : α} {front front' back back' : List α}
    (same : front ++ x :: back = front' ++ x' :: back') (holds : p x) (first : ∀ y ∈ front, ¬p y)
    (holds' : p x') (first' : ∀ y ∈ front', ¬p y) : x = x' := by
  classical
  have left : (front ++ x :: back).find? (fun y => decide (p y)) = some x :=
    List.find?_eq_some_iff_append.mpr ⟨by simpa using holds, front, back, rfl, by simpa using first⟩
  have right : (front' ++ x' :: back').find? (fun y => decide (p y)) = some x' :=
    List.find?_eq_some_iff_append.mpr
      ⟨by simpa using holds', front', back', rfl, by simpa using first'⟩
  rw [same] at left
  exact Option.some.inj (left.symm.trans right)

section

variable {d : MmHeapDescriptor} {id size : Nat} {memory : ByteMem} {blocks : List MmBlock}
  {block : MmBlock}

/-- A block that can hold the request passes the test unless it has exactly its size. -/
theorem MmHeapDescriptor.Represents.passes_iff (heap : d.Represents id memory blocks)
    (member : block ∈ blocks) (holds : block.CanHold size) :
    block.Passes size ↔ block.size ≠ size := by
  have small := (heap.block_bounds member).2
  obtain ⟨free, room⟩ := holds
  have request : size + mmControlSize < 2 ^ 32 := by
    simp only [mmControlSize, defaultHeapSize] at *
    omega
  rw [MmBlock.passes_iff_suits request, MmBlock.Suits, and_iff_right free]
  simp only [mmControlSize] at *
  omega

/-- The walk takes the first block that can hold the request if and only if that block is not
one of exactly the requested size. -/
theorem mm_first_fit_iff (heap : d.Represents id memory blocks) (positive : 0 < size) :
    (∀ front block back, FirstToHold size blocks front block back →
      ∃ memory', mmAllocateBlockFromHeap memory d size =
        .ok (true, some (block.addr + mmControlSize), memory')) ↔
    ∀ front block back, FirstToHold size blocks front block back → block.size ≠ size := by
  have bounds : ∀ {front block back}, FirstToHold size blocks front block back →
      block ∈ blocks ∧ size + mmControlSize < 2 ^ 32 ∧
        u32 (block.addr + mmControlSize) = block.addr + mmControlSize := by
    intro front block back first
    have member : block ∈ blocks := by rw [first.split]; simp
    obtain ⟨inside, small⟩ := heap.block_bounds member
    have room := first.holds.2
    simp only [mmControlSize, defaultHeapSize] at *
    exact ⟨member, by omega, u32_of_lt (by omega)⟩
  constructor
  · intro takes front block back first
    obtain ⟨memory', taken⟩ := takes front block back first
    obtain ⟨member, -, -⟩ := bounds first
    rw [← heap.passes_iff member first.holds]
    cases mmScan_passes heap size with
    | inl ended =>
      rw [mmAllocateBlockFromHeap, ended.1] at taken
      obtain ⟨-, none⟩ := eq_of_returned taken
      exact absurd (Prod.mk.inj none).1 (by simp)
    | inr found =>
      -- the block found has the address of the one that was to be taken
      obtain ⟨front', block', back', split, passes, -, scan⟩ := found
      rw [mmAllocateBlockFromHeap, scan] at taken
      have member' : block' ∈ blocks := by rw [split]; simp
      obtain ⟨inside', -⟩ := heap.block_bounds member'
      obtain ⟨-, answer⟩ := eq_of_returned taken
      have same := Option.some.inj (Prod.mk.inj answer).1
      obtain rfl : block' = block := by
        refine heap.eq_of_addr member' member ?_
        simp only [u32, mmControlSize] at same inside'
        omega
      exact passes
  · intro notExact front block back first
    obtain ⟨member, request, ptr⟩ := bounds first
    have passes := (heap.passes_iff member first.holds).mpr (notExact front block back first)
    cases mmScan_passes heap size with
    | inl ended => exact absurd passes (ended.2 block member)
    | inr found =>
      obtain ⟨front', block', back', split, passes', first', scan⟩ := found
      -- what passes the test can hold the request
      have before : ∀ earlier ∈ front, ¬earlier.Passes size := by
        intro earlier inFront suits
        rw [MmBlock.passes_iff_suits request] at suits
        exact first.first earlier inFront ⟨suits.1, .inr suits.2⟩
      obtain rfl := first_unique (first.split.symm.trans split) passes before passes' first'
      refine ⟨mmTakeBlock memory block.addr size, ?_⟩
      rw [mmAllocateBlockFromHeap, scan, ← ptr]
      rfl

end

/-- In a heap that has just been created, the one block is taken. -/
theorem mm_first_fit_whole : ∃ memory memory',
    MmHeapDescriptor.Represents ⟨0xC8000000, defaultHeapSize⟩ 0 memory [.whole 0xC8000000] ∧
      mmAllocateBlockFromHeap memory ⟨0xC8000000, defaultHeapSize⟩ 100 =
        .ok (true, some 0xC8000014, memory') := by
  let memory := (mmCreateHeap oneHeapKernel ⟨⟨true, 0, true, []⟩, fun _ => 0#8⟩).2.memory
  have heap : MmHeapDescriptor.Represents ⟨0xC8000000, defaultHeapSize⟩ 0 memory
      [.whole 0xC8000000] :=
    { size := rfl
      fits := by decide
      tiled := .cons rfl (MmTiling.nil_iff.mpr rfl)
      headed := List.forall_mem_singleton.mpr (by decide +kernel) }
  have first : FirstToHold 100 [.whole 0xC8000000] [] (.whole 0xC8000000) [] :=
    ⟨rfl, ⟨rfl, .inr (by decide)⟩, by simp⟩
  obtain ⟨memory', taken⟩ := (mm_first_fit_iff heap (by decide)).mpr (by
    intro front block back first
    have member : block ∈ [MmBlock.whole 0xC8000000] := by rw [first.split]; simp
    rw [List.mem_singleton.mp member]
    decide) [] _ [] first
  exact ⟨memory, memory', heap, taken⟩

/-- Two blocks of 100 and 200 bytes are allocated and the first is freed: a request for 100
bytes passes over it and takes the block behind the second. -/
theorem mm_first_fit_passes_over : ∃ state,
    (malloc oneHeapKernel ⟨mmContext, fun _ => 0#8⟩ 100 >>= fun first =>
      malloc noHeapKernel first.2 200 >>= fun second => free second.2 0xC8000014) = .ok state ∧
    MmHeapDescriptor.Represents ⟨0xC8000000, defaultHeapSize⟩ 0 state.memory
      [⟨0xC8000000, 100, true⟩, ⟨0xC8000078, 200, false⟩, ⟨0xC8000154, 8388248, true⟩] ∧
    ¬∃ memory', mmAllocateBlockFromHeap state.memory ⟨0xC8000000, defaultHeapSize⟩ 100 =
      .ok (true, some 0xC8000014, memory') := by
  have known : (malloc oneHeapKernel ⟨mmContext, fun _ => 0#8⟩ 100 >>= fun first =>
      malloc noHeapKernel first.2 200 >>= fun second =>
        free second.2 0xC8000014).toOption.map (fun state =>
          (MmControlBlock.load state.memory 0xC8000000, MmControlBlock.load state.memory 0xC8000078,
            MmControlBlock.load state.memory 0xC8000154,
            (mmAllocateBlockFromHeap state.memory ⟨0xC8000000, defaultHeapSize⟩ 100).toOption.map
              fun answer => answer.2.1)) =
      some (⟨0, mmMagic, 100, 0, true⟩, ⟨0, mmMagic, 200, 0, false⟩, ⟨0, mmMagic, 8388248, 0, true⟩,
        some (some 0xC8000168)) := by decide +kernel
  obtain ⟨state, returned, same⟩ := exists_of_known known
  simp only [Prod.mk.injEq] at same
  obtain ⟨first, second, third, answer⟩ := same
  refine ⟨state, returned, ⟨rfl, by decide, ?_, ?_⟩, ?_⟩
  · exact .cons rfl (.cons rfl (.cons rfl (MmTiling.nil_iff.mpr rfl)))
  · exact List.forall_mem_cons.mpr ⟨first, List.forall_mem_cons.mpr ⟨second,
      List.forall_mem_singleton.mpr third⟩⟩
  · rintro ⟨memory', taken⟩
    rw [taken] at answer
    simp [Except.toOption] at answer

end Antonix
