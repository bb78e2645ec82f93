import Antonix.StdlibMemory.ShortBlocks

/-! # What a failed request leaves behind

`malloc` creates a heap before it knows that the request fits in one, and
`realloc` frees the old block whether or not it got a new one. -/

namespace Antonix

open Set

/-! ## Walks over heaps that may be corrupted -/

section

variable {kernel : MmKernel} {state : MmState} {size : Nat}

end

/-- The block still has its header, which says that it is not free, and its bytes. -/
def MmAllocation.StillLive (alloc : MmAllocation) (state state' : MmState) : Prop :=
  MmControlBlock.load state'.memory (alloc.ptr - mmControlSize) =
      MmControlBlock.load state.memory (alloc.ptr - mmControlSize) ∧
    EqOn state'.memory state.memory alloc.payload

namespace MmState.Sound

variable {kernel : MmKernel} {state state' : MmState} {live : List MmAllocation}
  {layout layout' : Nat → List MmBlock} {size : Nat} {alloc : MmAllocation}

/-- A request that fails, for whatever size, leaves the occupied blocks where they are. -/
structure Spares (state state' : MmState) (live : List MmAllocation)
    (layout layout' : Nat → List MmBlock) : Prop where
  sound : state'.Sound live layout'
  occupied : ∀ id d block, block.free = false →
    (state'.ctx.heaps[id]? = some d ∧ block ∈ layout' id ↔
      state.ctx.heaps[id]? = some d ∧ block ∈ layout id)
  bytes : ∀ alloc ∈ live, EqOn state'.memory state.memory alloc.block.extent

theorem served_null (sound : state.Sound live layout) (fresh : kernel.Fresh state)
    (ready : state.ctx.initialized = true)
    (answer : MmServed kernel state layout size none state' layout') :
    Spares state state' live layout layout' := by
  cases answer with
  | noSlot _ _ => exact ⟨sound, fun _ _ _ _ => Iff.rfl, fun _ _ => eqOn_refl _ _⟩
  | refused _ _ _ => exact ⟨sound, fun _ _ _ _ => Iff.rfl, fun _ _ => eqOn_refl _ _⟩
  | wasted _ slot created ctx _ =>
    obtain ⟨sound', bytes⟩ := sound.createHeap fresh created ctx slot ready
    refine ⟨sound', fun id d block occupied => ?_, bytes⟩
    by_cases older : id < state.ctx.heaps.length
    · rw [Function.update_of_ne older.ne, ctx, List.getElem?_append_left older]
    · -- the only block of the new heap is free
      have beyond : state.ctx.heaps[id]? = none := List.getElem?_eq_none (Nat.le_of_not_lt older)
      refine iff_of_false (fun newest => ?_) (by simp [beyond])
      have inside := (List.getElem?_eq_some_iff.mp newest.1).1
      obtain rfl : id = state.ctx.heaps.length := by
        rw [ctx, List.length_append, List.length_singleton] at inside
        omega
      have member := newest.2
      rw [Function.update_self, List.mem_singleton] at member
      subst member
      contradiction

theorem malloc_null (sound : state.Sound live layout) (fresh : kernel.Fresh state)
    (failed : Antonix.malloc kernel state size = .ok (none, state')) :
    ∃ layout', Spares state state' live layout layout' := by
  obtain ⟨result, state'', returned, answered⟩ := sound.malloc_answered fresh size
  obtain ⟨rfl, rfl⟩ := eq_of_returned (returned.symm.trans failed)
  cases answered with
  | uninitialized _ => exact ⟨layout, sound, fun _ _ _ _ => Iff.rfl, fun _ _ => eqOn_refl _ _⟩
  | empty initialized _ =>
    obtain ⟨-, heaps, memory⟩ := mmReady_same sound.uninitialized initialized
    refine ⟨layout, sound.ready initialized, fun _ _ _ _ => ?_, fun _ _ => ?_⟩
    · rw [heaps]
    · rw [memory]
      exact eqOn_refl _ _
  | @served ready _ _ layout' initialized _ answer =>
    obtain ⟨isReady, heaps, memory⟩ := mmReady_same sound.uninitialized initialized
    have spares := (sound.ready initialized).served_null (fresh.of_heaps heaps) isReady answer
    exact ⟨layout', spares.sound, heaps ▸ spares.occupied, memory ▸ spares.bytes⟩

theorem Spares.unmergeable
    (spares : Spares state state' live layout layout') :
    Unmergeable state' layout' alloc ↔ Unmergeable state layout alloc := by
  have occupied := fun id d => spares.occupied id d alloc.block rfl
  simp only [Unmergeable, ← and_assoc, occupied]

/-- A live block is not marked free. -/
theorem live_header (sound : state.Sound live layout) (isLive : alloc ∈ live) :
    (MmControlBlock.load state.memory (alloc.ptr - mmControlSize)).free = false := by
  obtain ⟨id, d, heap, placed⟩ := sound.placed alloc isLive
  exact congrArg MmControlBlock.free
    ((sound.represents id d heap).headed alloc.block placed.member)

end MmState.Sound

/-- A `realloc` that fails frees the block: it keeps it only where `malloc` does not fail, or
where `free` cannot free it. -/
theorem realloc_failure_keeps_iff {kernel : MmKernel} {state : MmState}
    {live : List MmAllocation} {layout : Nat → List MmBlock} {size : Nat} {alloc : MmAllocation}
    (sound : state.Sound live layout) (fresh : kernel.Fresh state) (isLive : alloc ∈ live)
    (positive : 0 < size) :
    (∀ state', realloc kernel state (some alloc.ptr) size = .ok (none, state') →
      alloc.StillLive state state') ↔
    ¬state.Denies kernel layout size ∨ MmState.Sound.Unmergeable state layout alloc := by
  obtain ⟨result, state', allocated, null, -⟩ := sound.malloc_returns fresh size
  have notEmpty : ¬size = 0 := by omega
  rw [← null]
  cases result with
  | some new =>
    refine iff_of_true (fun state'' failed => ?_) (.inl (by simp))
    simp only [realloc, if_neg notEmpty, allocated, bind, Except.bind] at failed
    split at failed
    · contradiction
    · obtain ⟨none, -⟩ := eq_of_returned failed
      contradiction
  | none =>
    obtain ⟨layout', spares⟩ := sound.malloc_null fresh allocated
    have failed : ∀ state'', free state' alloc.ptr = .ok state'' →
        realloc kernel state (some alloc.ptr) size = .ok (none, state'') := by
      intro state'' freed
      simp only [realloc, if_neg notEmpty, allocated, freed, bind, Except.bind]
    rw [or_iff_right (by simp), ← spares.unmergeable]
    obtain ⟨state'', freed, -, -, outcome⟩ := spares.sound.free_merges isLive
    constructor
    · intro keeps
      by_contra mergeable
      have isFree := spares.sound.free_header isLive mergeable freed
      rw [(keeps state'' (failed state'' freed)).1, sound.live_header isLive] at isFree
      contradiction
    · intro unmergeable kept result
      obtain ⟨-, rfl⟩ := eq_of_returned ((failed state'' freed).symm.trans result)
      obtain ⟨-, rfl⟩ | ⟨mergeable, -⟩ := outcome
      · -- the block is as `malloc` left it
        obtain ⟨_, _, _, placed⟩ := sound.placed alloc isLive
        have bytes := spares.bytes alloc isLive
        have header : alloc.block.header ⊆ alloc.block.extent := MmBlock.header_subset
        refine ⟨MmControlBlock.load_congr (bytes.mono header), ?_⟩
        rw [← placed.payload_eq]
        exact bytes.mono MmBlock.payload_subset
      · exact absurd unmergeable mergeable

theorem realloc_failure_keeps_first : ∃ state,
    malloc oneHeapKernel ⟨mmContext, fun _ => 0#8⟩ 100 = .ok (some 0xC8000014, state) ∧
      ∀ state', realloc noHeapKernel state (some 0xC8000014) 200 = .ok (none, state') →
        MmAllocation.StillLive ⟨0xC8000014, 100⟩ state state' := by
  obtain ⟨state, layout, allocated, heaps, sound⟩ := exists_first_block
  have known : (malloc oneHeapKernel ⟨mmContext, fun _ => 0#8⟩ 100 >>= fun result =>
      malloc noHeapKernel result.2 200).toOption.map Prod.fst = some (some 0xC800008C) := by
    decide +kernel
  rw [allocated] at known
  obtain ⟨state', second⟩ :
      ∃ state', malloc noHeapKernel state 200 = .ok (some 0xC800008C, state') :=
    exists_of_value known
  -- the second request is served, so it is not denied
  obtain ⟨result, state'', second', null, -⟩ := sound.malloc_returns (noHeapKernel_fresh state) 200
  obtain ⟨rfl, rfl⟩ := eq_of_returned (second.symm.trans second')
  have isLive : (⟨0xC8000014, 100⟩ : MmAllocation) ∈ [(⟨0xC8000014, 100⟩ : MmAllocation)] :=
    List.mem_cons_self
  exact ⟨state, allocated, (realloc_failure_keeps_iff sound (noHeapKernel_fresh state) isLive
    (by decide)).mpr (.inl fun denied => absurd (null.mpr denied) (by simp))⟩

/-- A block of 100 bytes is to grow to 8 MB: `realloc` returns `NULL` and the block is free. -/
theorem realloc_failure_frees : ∃ state state',
    malloc oneHeapKernel ⟨mmContext, fun _ => 0#8⟩ 100 = .ok (some 0xC8000014, state) ∧
      realloc noHeapKernel state (some 0xC8000014) 0x800000 = .ok (none, state') ∧
      (MmControlBlock.load state'.memory 0xC8000000).free = true ∧
      ¬MmAllocation.StillLive ⟨0xC8000014, 100⟩ state state' := by
  obtain ⟨state, layout, allocated, heaps, sound⟩ := exists_first_block
  have known : (malloc oneHeapKernel ⟨mmContext, fun _ => 0#8⟩ 100 >>= fun result =>
      realloc noHeapKernel result.2 (some 0xC8000014) 0x800000).toOption.map
        (fun result => (result.1, (MmControlBlock.load result.2.memory 0xC8000000).free)) =
      some (none, true) := by decide +kernel
  rw [allocated] at known
  obtain ⟨⟨ptr, state'⟩, failed, same⟩ := exists_of_known known
  obtain ⟨rfl, isFree⟩ := Prod.mk.inj same
  refine ⟨state, state', allocated, failed, isFree, fun keeps => ?_⟩
  have occupied := sound.live_header List.mem_cons_self
  have header : (MmControlBlock.load state'.memory 0xC8000000).free = false :=
    (congrArg MmControlBlock.free keeps.1).trans occupied
  simp only at isFree
  rw [header] at isFree
  contradiction

end Antonix
