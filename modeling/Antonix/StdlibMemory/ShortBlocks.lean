import Antonix.StdlibMemory.Spec

/-! # Requests whose sizes wrap around

`malloc` adds the size of a header to the request and `calloc` multiplies, both in
32 bits.  Where that wraps around, a block that is too short is handed out unless
none is. -/

namespace Antonix

open Set

/-- The kernel has another heap for the library. -/
def MmKernel.Grants (kernel : MmKernel) (ctx : MmContext) : Prop :=
  ∃ base, kernel.vmmCreateHeap ctx.pid defaultHeapSize
    (usageData ||| if ctx.kernelMode then usageKernel else usageUser) = .ok base

/-- The kernel has created the heap for the library. -/
def MmKernel.Made (kernel : MmKernel) (d : MmHeapDescriptor) : Prop :=
  ∃ pid usage base, kernel.vmmCreateHeap pid defaultHeapSize usage = .ok base ∧
    d = ⟨base, defaultHeapSize⟩

/-- No block passes the test for the request, and a new heap would not help or cannot be had. -/
def MmState.Denies (state : MmState) (kernel : MmKernel) (layout : Nat → List MmBlock)
    (size : Nat) : Prop :=
  size = 0 ∨ ∀ ready, mmReady kernel state = some ready →
    ready.Full layout size ∧ (ready.HasSlot → kernel.Grants ready.ctx →
      defaultHeapSize - mmControlSize < u32 (size + mmControlSize))

/-- The pointer is to a block whose payload has at least `size` bytes and lies in one heap. -/
def MmState.Serves (state : MmState) (ptr size : Nat) : Prop :=
  ∃ d ∈ state.ctx.heaps, d.memory + mmControlSize ≤ ptr ∧
    size ≤ (MmControlBlock.load state.memory (ptr - mmControlSize)).size ∧
    ptr + (MmControlBlock.load state.memory (ptr - mmControlSize)).size ≤ d.memory + d.size

/-- The call returns `NULL` or a block of at least `size` bytes. -/
def AtLeast (size : Nat) (outcome : Except Halt (Option Nat × MmState)) : Prop :=
  ∃ result state', outcome = .ok (result, state') ∧
    ∀ ptr, result = some ptr → state'.Serves ptr size

theorem mmCreateHeap_refuses_iff {kernel : MmKernel} {state : MmState} (slot : state.HasSlot) :
    (mmCreateHeap kernel state).1 = false ↔ ¬kernel.Grants state.ctx := by
  have room : ¬maxHeaps ≤ state.ctx.heaps.length := by
    simp only [MmState.HasSlot] at slot
    omega
  simp only [mmCreateHeap, if_neg room, MmKernel.Grants]
  cases answer : kernel.vmmCreateHeap state.ctx.pid defaultHeapSize
      (usageData ||| if state.ctx.kernelMode then usageKernel else usageUser) with
  | error hr => simp
  | ok base => simp

namespace MmState.Sound

variable {kernel : MmKernel} {state state' : MmState} {live : List MmAllocation}
  {layout layout' : Nat → List MmBlock} {size : Nat} {result : Option Nat}

/-- A new heap passes the test unless the request is too large for any heap. -/
theorem whole_passes_iff {base : Nat} :
    (MmBlock.whole base).Passes size ↔
      u32 (size + mmControlSize) ≤ defaultHeapSize - mmControlSize :=
  and_iff_right rfl

theorem served_null_iff (answer : MmServed kernel state layout size result state' layout') :
    result = none ↔ state.Full layout size ∧ (state.HasSlot → kernel.Grants state.ctx →
      defaultHeapSize - mmControlSize < u32 (size + mmControlSize)) := by
  cases answer with
  | taken heap blocks passes =>
    refine ⟨fun none => by contradiction, fun denied => ?_⟩
    exact absurd passes (denied.1 _ _ heap _ (by rw [blocks]; simp))
  | noSlot full slot => exact ⟨fun _ => ⟨full, fun slot' => absurd slot' slot⟩, fun _ => rfl⟩
  | refused full slot refused =>
    refine ⟨fun _ => ⟨full, fun _ grants => ?_⟩, fun _ => rfl⟩
    exact absurd grants ((mmCreateHeap_refuses_iff slot).mp (by rw [refused]))
  | grown full slot created ctx passes =>
    have grants : kernel.Grants state.ctx := by
      rw [← not_not (a := kernel.Grants state.ctx), ← mmCreateHeap_refuses_iff slot, created]
      simp
    refine ⟨fun none => by contradiction, fun denied => ?_⟩
    have large := denied.2 slot grants
    have := whole_passes_iff.mp passes
    omega
  | wasted full slot created ctx short =>
    rw [whole_passes_iff] at short
    exact ⟨fun _ => ⟨full, fun _ _ => by omega⟩, fun _ => rfl⟩

theorem heaps_size (sound : state.Sound live layout) :
    ∀ d ∈ state.ctx.heaps, d.size = defaultHeapSize := by
  intro d member
  obtain ⟨id, heap⟩ := List.getElem?_of_mem member
  exact (sound.represents id d heap).size

/-- Where the heaps come from that a call leaves. -/
theorem served_heaps (answer : MmServed kernel state layout size result state' layout') :
    ∀ d ∈ state'.ctx.heaps, d ∈ state.ctx.heaps ∨ kernel.Made d := by
  have grows : ∀ {created}, state.HasSlot → mmCreateHeap kernel state = (true, created) →
      ∀ d ∈ created.ctx.heaps, d ∈ state.ctx.heaps ∨ kernel.Made d := by
    intro created slot creation d member
    have few : state.ctx.heaps.length < 2 ^ 32 := by
      simp only [MmState.HasSlot, maxHeaps] at slot
      omega
    obtain ⟨base, usage, answer, ctx, -⟩ := mmCreateHeap_spec creation few
    rw [ctx, List.mem_append, List.mem_singleton] at member
    exact member.imp_right fun newest => ⟨_, _, base, answer, newest⟩
  cases answer with
  | taken _ _ _ => exact fun d member => .inl member
  | noSlot _ _ => exact fun d member => .inl member
  | refused _ _ _ => exact fun d member => .inl member
  | grown _ slot created _ _ => exact fun d member => grows slot created d member
  | wasted _ slot created _ _ => exact grows slot created

/-- `malloc` returns for every size, with `NULL` exactly when the request is denied. -/
theorem malloc_returns (sound : state.Sound live layout) (fresh : kernel.Fresh state)
    (size : Nat) :
    ∃ result state', Antonix.malloc kernel state size = .ok (result, state') ∧
      (result = none ↔ state.Denies kernel layout size) ∧
      ∀ d ∈ state'.ctx.heaps, d ∈ state.ctx.heaps ∨ kernel.Made d := by
  obtain ⟨result, state', returned, answered⟩ := sound.malloc_answered fresh size
  refine ⟨result, state', returned, ?_⟩
  rw [MmState.Denies]
  cases answered with
  | uninitialized initialized => exact ⟨by simp [initialized], fun d member => .inl member⟩
  | empty initialized empty =>
    have heaps := (mmReady_same sound.uninitialized initialized).2.1
    exact ⟨by simp [empty], fun d member => .inl (heaps ▸ member)⟩
  | served initialized positive answer =>
    have heaps := (mmReady_same sound.uninitialized initialized).2.1
    refine ⟨?_, heaps ▸ served_heaps answer⟩
    rw [served_null_iff answer, or_iff_right positive.ne']
    exact ⟨fun denied _ same => Option.some.inj (initialized.symm.trans same) ▸ denied,
      fun denied => denied _ initialized⟩

theorem serves (sound : state.Sound live layout) {alloc : MmAllocation} (isLive : alloc ∈ live) :
    state.Serves alloc.ptr alloc.size := by
  obtain ⟨id, d, heap, placed⟩ := sound.placed alloc isLive
  have represents := sound.represents id d heap
  have header := represents.headed alloc.block placed.member
  obtain ⟨low, high⟩ := represents.tiled.inside alloc.block placed.member
  have above := placed.above
  have size : (MmControlBlock.load state.memory (alloc.ptr - mmControlSize)).size = alloc.size :=
    congrArg MmControlBlock.size header
  simp only [MmAllocation.block, MmBlock.len] at low high
  refine ⟨d, List.mem_of_getElem? heap, by omega, size.ge, ?_⟩
  rw [size]
  omega

end MmState.Sound

/-- No heap holds a block of nearly 4 GB. -/
theorem MmState.Serves.small {kernel : MmKernel} {state state' : MmState} {ptr size : Nat}
    (serves : state'.Serves ptr size) (sizes : ∀ d ∈ state.ctx.heaps, d.size = defaultHeapSize)
    (heaps : ∀ d ∈ state'.ctx.heaps, d ∈ state.ctx.heaps ∨ kernel.Made d) :
    size ≤ defaultHeapSize := by
  obtain ⟨d, member, start, large, inside⟩ := serves
  have whole : d.size = defaultHeapSize := by
    cases heaps d member with
    | inl older => exact sizes d older
    | inr made =>
      obtain ⟨_, _, _, -, rfl⟩ := made
      rfl
  omega

section

variable {kernel : MmKernel} {state : MmState} {live : List MmAllocation}
  {layout : Nat → List MmBlock}

theorem malloc_atLeast_iff (sound : state.Sound live layout) (fresh : kernel.Fresh state)
    (size : Nat) :
    AtLeast size (malloc kernel state size) ↔
      size + mmControlSize < 2 ^ 32 ∨ state.Denies kernel layout size := by
  by_cases request : size + mmControlSize < 2 ^ 32
  · obtain ⟨result, state', returned, ⟨layout', sound'⟩, -⟩ := sound.malloc fresh request
    refine ⟨fun _ => .inl request, fun _ => ⟨result, state', returned, ?_⟩⟩
    rintro ptr rfl
    have isLive : (⟨ptr, size⟩ : MmAllocation) ∈ granted (some ptr) size live :=
      List.mem_cons_self
    exact sound'.serves isLive
  · obtain ⟨result, state', returned, null, heaps⟩ := sound.malloc_returns fresh size
    rw [or_iff_right request, ← null]
    constructor
    · rintro ⟨result', state'', returned', serves⟩
      obtain ⟨rfl, rfl⟩ := eq_of_returned (returned.symm.trans returned')
      cases result with
      | none => rfl
      | some ptr =>
        have small := (serves ptr rfl).small sound.heaps_size heaps
        simp only [mmControlSize, defaultHeapSize] at small request
        omega
    · rintro rfl
      exact ⟨none, state', returned, by simp⟩

theorem calloc_atLeast_iff (sound : state.Sound live layout) (fresh : kernel.Fresh state)
    (num size : Nat) :
    AtLeast (num * size) (calloc kernel state num size) ↔
      num * size + mmControlSize < 2 ^ 32 ∨ state.Denies kernel layout (u32 (num * size)) := by
  by_cases request : num * size + mmControlSize < 2 ^ 32
  · have noOverflow : num * size < 2 ^ 32 := by omega
    obtain ⟨result, state', returned, layout', sound'⟩ := sound.calloc fresh noOverflow request
    refine ⟨fun _ => .inl request, fun _ => ⟨result, state', returned, ?_⟩⟩
    rintro ptr rfl
    have isLive : (⟨ptr, num * size⟩ : MmAllocation) ∈ granted (some ptr) (num * size) live :=
      List.mem_cons_self
    exact sound'.serves isLive
  · obtain ⟨result, state', returned, null, heaps⟩ :=
      sound.malloc_returns fresh (u32 (num * size))
    rw [or_iff_right request, ← null]
    constructor
    · rintro ⟨result', state'', returned', serves⟩
      cases result with
      | none => rfl
      | some mem =>
        -- clearing the block leaves the heaps where they are
        simp only [calloc, returned, bind, Except.bind] at returned'
        obtain ⟨rfl, rfl⟩ := eq_of_returned returned'
        have small := (serves mem rfl).small sound.heaps_size heaps
        simp only [mmControlSize, defaultHeapSize] at small request
        omega
    · rintro rfl
      exact ⟨none, state', by simp only [calloc, returned, bind, Except.bind], by simp⟩

/-- `malloc` and `calloc` hand out no short block if and only if the size of the request and
its header fit in 32 bits, or the request that is left after wrapping around is denied. -/
theorem libc_blocks_long_enough (sound : state.Sound live layout) (fresh : kernel.Fresh state) :
    (∀ size < 2 ^ 32, AtLeast size (malloc kernel state size) ↔
      size + mmControlSize < 2 ^ 32 ∨ state.Denies kernel layout size) ∧
    ∀ num < 2 ^ 32, ∀ size < 2 ^ 32, AtLeast (num * size) (calloc kernel state num size) ↔
      num * size + mmControlSize < 2 ^ 32 ∨ state.Denies kernel layout (u32 (num * size)) :=
  ⟨fun size _ => malloc_atLeast_iff sound fresh size,
    fun num _ size _ => calloc_atLeast_iff sound fresh num size⟩

end

/-- A kernel that has one heap, at the start of the range for kernel heaps. -/
def oneHeapKernel : MmKernel := ⟨.ok 0, fun _ _ _ => .ok 0xC8000000⟩

theorem oneHeapKernel_fresh (memory : ByteMem) : oneHeapKernel.Fresh ⟨mmContext, memory⟩ := by
  intro pid usage base answer
  obtain rfl : 0xC8000000 = base := by simpa [oneHeapKernel] using answer
  exact ⟨by decide, by simp [mmContext]⟩

/-- A kernel that has no heap. -/
def noHeapKernel : MmKernel := ⟨.ok 0, fun _ _ _ => .error .eFail⟩

theorem noHeapKernel_fresh (state : MmState) : noHeapKernel.Fresh state := by
  intro pid usage base answer
  simp [noHeapKernel] at answer

/-- The first allocation of all. -/
theorem exists_first_block : ∃ state layout,
    malloc oneHeapKernel ⟨mmContext, fun _ => 0#8⟩ 100 = .ok (some 0xC8000014, state) ∧
      state.ctx.heaps = [⟨0xC8000000, defaultHeapSize⟩] ∧
      state.Sound [⟨0xC8000014, 100⟩] layout := by
  have known : (malloc oneHeapKernel ⟨mmContext, fun _ => 0#8⟩ 100).toOption.map
      (fun result => (result.1, result.2.ctx.heaps)) =
        some (some 0xC8000014, [⟨0xC8000000, defaultHeapSize⟩]) := by decide +kernel
  obtain ⟨⟨ptr, state⟩, returned, same⟩ := exists_of_known known
  obtain ⟨rfl, heaps⟩ := Prod.mk.inj same
  obtain ⟨result, state', returned', ⟨layout, sound⟩, -⟩ :=
    (MmState.Sound.initial fun _ => 0#8).malloc (oneHeapKernel_fresh _)
      (show 100 + mmControlSize < 2 ^ 32 by decide)
  obtain ⟨rfl, rfl⟩ := eq_of_returned (returned.symm.trans returned')
  exact ⟨state, layout, returned, heaps, sound⟩

theorem libc_blocks_long_enough_first :
    AtLeast 100 (malloc oneHeapKernel ⟨mmContext, fun _ => 0#8⟩ 100) :=
  ((libc_blocks_long_enough (.initial _) (oneHeapKernel_fresh _)).1 100 (by decide)).mpr
    (.inl (by decide))

/-- The very first request is answered with a short block: by `malloc` when the sum wraps
around, by `calloc` when the product does. -/
theorem libc_blocks_too_short :
    ¬AtLeast 0xFFFFFFEC (malloc oneHeapKernel ⟨mmContext, fun _ => 0#8⟩ 0xFFFFFFEC) ∧
    ¬AtLeast (0x10001 * 0x10000) (calloc oneHeapKernel ⟨mmContext, fun _ => 0#8⟩ 0x10001 0x10000) := by
  have wrapped : (malloc oneHeapKernel ⟨mmContext, fun _ => 0#8⟩ 0xFFFFFFEC).toOption.map
      (fun result => (result.1, result.2.ctx.heaps)) =
        some (some 0xC8000014, [⟨0xC8000000, defaultHeapSize⟩]) := by decide +kernel
  have multiplied : (calloc oneHeapKernel ⟨mmContext, fun _ => 0#8⟩ 0x10001 0x10000).toOption.map
      (fun result => (result.1, result.2.ctx.heaps)) =
        some (some 0xC8000014, [⟨0xC8000000, defaultHeapSize⟩]) := by decide +kernel
  have short : ∀ {size outcome}, defaultHeapSize < size →
      outcome.toOption.map (fun result : Option Nat × MmState => (result.1, result.2.ctx.heaps)) =
        some (some 0xC8000014, [⟨0xC8000000, defaultHeapSize⟩]) → ¬AtLeast size outcome := by
    rintro size outcome large known ⟨result, state, returned, serves⟩
    obtain ⟨⟨ptr, state'⟩, returned', same⟩ := exists_of_known known
    obtain ⟨rfl, rfl⟩ := eq_of_returned (returned.symm.trans returned')
    simp only [Prod.mk.injEq] at same
    obtain ⟨d, member, start, fits, inside⟩ := serves _ same.1
    rw [same.2, List.mem_singleton] at member
    subst member
    simp only at inside
    omega
  exact ⟨short (by decide) wrapped, short (by decide) multiplied⟩

end Antonix
