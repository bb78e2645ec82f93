import Antonix.StdlibMemory.Invariant

/-! # What the entry points do to a sound state

Every entry point returns, keeps the state sound and leaves the bytes of the
live allocations it was not asked about alone, headers included. -/

namespace Antonix

open Set

/-- The allocations after a request for `size` bytes. -/
def granted (result : Option Nat) (size : Nat) (live : List MmAllocation) : List MmAllocation :=
  match result with
  | none => live
  | some ptr => ⟨ptr, size⟩ :: live

/-- A heap that the kernel creates is a range of addresses apart from the earlier heaps. -/
def MmKernel.Fresh (kernel : MmKernel) (state : MmState) : Prop :=
  ∀ pid usage base, kernel.vmmCreateHeap pid defaultHeapSize usage = .ok base →
    base + defaultHeapSize ≤ 2 ^ 32 ∧
      ∀ d ∈ state.ctx.heaps, Disjoint (MmHeapDescriptor.range ⟨base, defaultHeapSize⟩) d.range

/-- The one block of a new heap. -/
def MmBlock.whole (base : Nat) : MmBlock := ⟨base, defaultHeapSize - mmControlSize, true⟩

/-- No block of any heap passes the test for the request. -/
def MmState.Full (state : MmState) (layout : Nat → List MmBlock) (size : Nat) : Prop :=
  ∀ id d, state.ctx.heaps[id]? = some d → ∀ block ∈ layout id, ¬block.Passes size

/-- There is room for another heap. -/
def MmState.HasSlot (state : MmState) : Prop := state.ctx.heaps.length < maxHeaps - 1

/-- The block that a request gets of a free one. -/
def MmBlock.taken (size : Nat) (block : MmBlock) : MmBlock := ⟨block.addr, size, false⟩

/-- What is left of the free block. -/
def MmBlock.rest (size : Nat) (block : MmBlock) : MmBlock :=
  ⟨block.addr + mmControlSize + size, block.size - size - mmControlSize, true⟩

/-- How `malloc` under the lock answers, by the blocks of the heaps: the pointer, the state and,
unless the size wraps around, the blocks it leaves. -/
inductive MmServed (kernel : MmKernel) (state : MmState) (layout : Nat → List MmBlock)
    (size : Nat) : Option Nat → MmState → (Nat → List MmBlock) → Prop
  | taken {id d front block back} :
      state.ctx.heaps[id]? = some d → layout id = front ++ block :: back → block.Passes size →
      MmServed kernel state layout size (some (u32 (block.addr + mmControlSize)))
        { state with memory := mmTakeBlock state.memory block.addr size }
        (Function.update layout id (front ++ ([block.taken size, block.rest size] ++ back)))
  | noSlot : state.Full layout size → ¬state.HasSlot →
      MmServed kernel state layout size none state layout
  | refused : state.Full layout size → state.HasSlot → mmCreateHeap kernel state = (false, state) →
      MmServed kernel state layout size none state layout
  | grown {base state'} : state.Full layout size → state.HasSlot →
      mmCreateHeap kernel state = (true, state') →
      state'.ctx = { state.ctx with heaps := state.ctx.heaps ++ [⟨base, defaultHeapSize⟩] } →
      (MmBlock.whole base).Passes size →
      MmServed kernel state layout size (some (u32 (base + mmControlSize)))
        { state' with memory := mmTakeBlock state'.memory base size }
        (Function.update layout state.ctx.heaps.length
          [(MmBlock.whole base).taken size, (MmBlock.whole base).rest size])
  | wasted {base state'} : state.Full layout size → state.HasSlot →
      mmCreateHeap kernel state = (true, state') →
      state'.ctx = { state.ctx with heaps := state.ctx.heaps ++ [⟨base, defaultHeapSize⟩] } →
      ¬(MmBlock.whole base).Passes size →
      MmServed kernel state layout size none state'
        (Function.update layout state.ctx.heaps.length [MmBlock.whole base])

/-- The state in which `malloc` takes the lock, if the context can be initialized. -/
def mmReady (kernel : MmKernel) (state : MmState) : Option MmState :=
  if state.ctx.initialized then some state
  else
    match kernel.schedGetCurrentPid with
    | .error _ => none
    | .ok pid => some { state with ctx := ⟨true, pid, true, []⟩ }

theorem malloc_eq (kernel : MmKernel) (state : MmState) (size : Nat) :
    malloc kernel state size =
      match mmReady kernel state with
      | none => .ok (none, state)
      | some ready => if size = 0 then .ok (none, ready) else mallocLocked kernel ready size := by
  unfold malloc mmReady mmInit
  by_cases ready : state.ctx.initialized = true
  · simp [ready]
  · cases answer : kernel.schedGetCurrentPid with
    | error hr => simp [ready]
    | ok pid => simp [ready]

/-- How `malloc` answers. -/
inductive MmAnswered (kernel : MmKernel) (state : MmState) (layout : Nat → List MmBlock)
    (size : Nat) : Option Nat → MmState → Prop
  | uninitialized : mmReady kernel state = none → MmAnswered kernel state layout size none state
  | empty {ready} : mmReady kernel state = some ready → size = 0 →
      MmAnswered kernel state layout size none ready
  | served {ready result state' layout'} : mmReady kernel state = some ready → 0 < size →
      MmServed kernel ready layout size result state' layout' →
      MmAnswered kernel state layout size result state'

theorem getElem?_snoc {α : Type*} {xs : List α} {last x : α} {i : Nat}
    (found : (xs ++ [last])[i]? = some x) : xs[i]? = some x ∨ (i = xs.length ∧ x = last) := by
  rw [List.getElem?_append] at found
  split at found
  · exact .inl found
  · rename_i beyond
    obtain ⟨inside, rfl⟩ := List.getElem?_eq_some_iff.mp found
    rw [List.length_singleton] at inside
    exact .inr ⟨by omega, by simp⟩

/-- Before the initialization there are no heaps to forget. -/
theorem mmReady_same {kernel : MmKernel} {state ready : MmState}
    (uninitialized : state.ctx.initialized = false → state.ctx.heaps = [])
    (initialized : mmReady kernel state = some ready) :
    ready.ctx.initialized = true ∧ ready.ctx.heaps = state.ctx.heaps ∧
      ready.memory = state.memory := by
  unfold mmReady at initialized
  split at initialized
  · rename_i before
    obtain rfl := Option.some.inj initialized
    exact ⟨before, rfl, rfl⟩
  · rename_i before
    split at initialized
    · contradiction
    · obtain rfl := Option.some.inj initialized
      exact ⟨rfl, (uninitialized (Bool.not_eq_true _ ▸ before)).symm, rfl⟩

theorem MmKernel.Fresh.of_heaps {kernel : MmKernel} {state state' : MmState}
    (fresh : kernel.Fresh state) (heaps : state'.ctx.heaps = state.ctx.heaps) :
    kernel.Fresh state' := by
  intro pid usage base answer
  rw [heaps]
  exact fresh pid usage base answer

namespace MmState.Sound

variable {state : MmState} {live : List MmAllocation} {layout : Nat → List MmBlock}
  {id size : Nat} {d : MmHeapDescriptor} {block : MmBlock} {alloc : MmAllocation}

/-! ## `malloc` -/

/-- Taking a free block makes a new live allocation and touches no other. -/
theorem take (sound : state.Sound live layout) (heap : state.ctx.heaps[id]? = some d)
    {front back : List MmBlock} (blocks : layout id = front ++ block :: back)
    (suits : block.Suits size) (positive : 0 < size) (request : size + mmControlSize < 2 ^ 32) :
    let memory := mmTakeBlock state.memory block.addr size
    Sound { state with memory } (⟨u32 (block.addr + mmControlSize), size⟩ :: live)
      (Function.update layout id (front ++ ([block.taken size, block.rest size] ++ back))) ∧
    ∀ alloc ∈ live, EqOn memory state.memory alloc.block.extent := by
  have member : block ∈ layout id := by rw [blocks]; simp
  have represents := sound.represents id d heap
  obtain ⟨-, below⟩ := represents.tiled.inside block member
  have fits := represents.fits
  have room := suits.2
  have len : block.len = mmControlSize + block.size := rfl
  have ptr : u32 (block.addr + mmControlSize) = block.addr + mmControlSize :=
    u32_of_lt (by omega)
  obtain ⟨headed, same⟩ := mmTakeBlock_spec (represents.headed block member) suits
    (by omega) request
  -- a live block is not free, so it is not the one taken
  have notTaken : ∀ alloc ∈ live, alloc.block ≠ block := by
    rintro alloc - rfl
    exact absurd suits.1 (by simp [MmAllocation.block])
  have inBlock : EqOn (mmTakeBlock state.memory block.addr size) state.memory block.extentᶜ := by
    refine same.mono (compl_subset_compl.mpr (union_subset ?_ ?_))
    · exact Ico_subset_Ico (by simp only; omega) (by simp only; omega)
    · exact Ico_subset_Ico (by simp only; omega) (by simp only; omega)
  refine ⟨?_, fun alloc isLive => inBlock.mono ?_⟩
  · obtain ⟨a, left, rest⟩ := Tiling.split (blocks ▸ represents.tiled)
    obtain ⟨rfl, -⟩ := MmTiling.block_bounds rest
    refine sound.replace [block] [block.taken size, block.rest size]
      heap blocks left (MmTiling.tail rest) ?_ headed
      (by rwa [MmBlock.extent, len, ← Nat.add_assoc] at inBlock) ?_ ?_
    · refine .cons rfl (.cons rfl (MmTiling.nil_iff.mpr ?_))
      simp only [MmBlock.taken, MmBlock.rest]
      omega
    · -- the new allocation is the taken part, the others are where they were
      refine List.forall_mem_cons.mpr ⟨.inr ⟨positive, ?_, ?_⟩, fun alloc isLive => .inl
        ⟨isLive, by simpa using notTaken alloc isLive⟩⟩
      · simp only [ptr]; omega
      · simp [MmAllocation.block, MmBlock.taken, ptr]
    · refine List.pairwise_cons.mpr ⟨fun other isLive clash => ?_, sound.distinct⟩
      -- a live block at the same address would be the block taken
      obtain ⟨id', d', heap', placed⟩ := sound.placed other isLive
      have := placed.above
      have := placed.positive
      have apart := sound.extent_disjoint heap' placed.member heap member (notTaken other isLive)
      have start : block.addr ∈ other.block.extent := by
        simp only [ptr] at clash
        refine ⟨?_, ?_⟩ <;> simp only [MmAllocation.block, MmBlock.len] <;> omega
      exact disjoint_left.mp apart start ⟨le_rfl, by omega⟩
  · obtain ⟨id', d', heap', placed⟩ := sound.placed alloc isLive
    exact subset_compl_iff_disjoint_left.mpr
      (sound.extent_disjoint heap member heap' placed.member (notTaken alloc isLive).symm)

/-- The loop of `malloc`: every heap is walked to its end, or a block is taken. -/
theorem mallocLoop (sound : state.Sound live layout) (size : Nat) :
    ∀ {heaps done : List MmHeapDescriptor}, state.ctx.heaps = done ++ heaps →
      (mallocLoop size heaps state.memory = .ok (true, none, state.memory) ∧
        ∀ id d, done.length ≤ id → state.ctx.heaps[id]? = some d →
          ∀ block ∈ layout id, ¬block.Passes size) ∨
      ∃ id d block front back, state.ctx.heaps[id]? = some d ∧
        layout id = front ++ block :: back ∧ block.Passes size ∧
        mallocLoop size heaps state.memory = .ok (true, some (u32 (block.addr + mmControlSize)),
          mmTakeBlock state.memory block.addr size)
  | [], done, split => by
    refine .inl ⟨rfl, fun id d beyond heap => ?_⟩
    have inside := (List.getElem?_eq_some_iff.mp heap).1
    simp only [split, List.append_nil] at inside
    omega
  | d :: heaps, done, split => by
    have heap : state.ctx.heaps[done.length]? = some d := by simp [split]
    cases mmScan_passes (sound.represents done.length d heap) size with
    | inl ended =>
      have walked : Antonix.mallocLoop size (d :: heaps) state.memory =
          Antonix.mallocLoop size heaps state.memory := by
        rw [Antonix.mallocLoop, mmAllocateBlockFromHeap, ended.1]
        rfl
      rw [walked]
      have next : state.ctx.heaps = (done ++ [d]) ++ heaps := by simp [split]
      cases mallocLoop sound size next with
      | inr found => exact .inr found
      | inl full =>
        refine .inl ⟨full.1, fun id d' beyond heap' => ?_⟩
        by_cases here : id = done.length
        · subst here
          exact ended.2
        · exact full.2 id d' (by simp only [List.length_append, List.length_singleton]; omega) heap'
    | inr found =>
      obtain ⟨front, block, back, blocks, passes, -, scan⟩ := found
      refine .inr ⟨done.length, d, block, front, back, heap, blocks, passes, ?_⟩
      rw [Antonix.mallocLoop, mmAllocateBlockFromHeap, scan]
      rfl

/-- A new heap leaves the state sound: its one block is free, and everything else is apart
from it. -/
theorem createHeap {kernel : MmKernel} {state' : MmState} {base : Nat}
    (sound : state.Sound live layout) (fresh : kernel.Fresh state)
    (created : mmCreateHeap kernel state = (true, state'))
    (ctx : state'.ctx = { state.ctx with heaps := state.ctx.heaps ++ [⟨base, defaultHeapSize⟩] })
    (room : state.HasSlot) (ready : state.ctx.initialized = true) :
    state'.Sound live (Function.update layout state.ctx.heaps.length [MmBlock.whole base]) ∧
      ∀ alloc ∈ live, EqOn state'.memory state.memory alloc.block.extent := by
  rw [MmState.HasSlot] at room
  obtain ⟨base', usage, answer, ctx', header, same⟩ :=
    mmCreateHeap_spec created (by simp only [maxHeaps] at room; omega)
  obtain rfl : base = base' := by
    have newest := congrArg MmContext.heaps (ctx.symm.trans ctx')
    simpa using newest
  obtain ⟨fits, apart⟩ := fresh _ _ _ answer
  have headerInside : (MmBlock.whole base).header ⊆
      MmHeapDescriptor.range ⟨base, defaultHeapSize⟩ :=
    Ico_subset_Ico_right (by simp only [MmBlock.whole, mmControlSize, defaultHeapSize]; omega)
  -- the one header that is written lies in the new range, apart from all older heaps
  have old : ∀ id (d : MmHeapDescriptor), state.ctx.heaps[id]? = some d →
      EqOn state'.memory state.memory d.range :=
    fun id d heap => same.mono (subset_compl_iff_disjoint_right.mpr
      ((apart d (List.mem_of_getElem? heap)).symm.mono_right headerInside))
  have lookup : ∀ id d, state'.ctx.heaps[id]? = some d →
      state.ctx.heaps[id]? = some d ∨
        (id = state.ctx.heaps.length ∧ d = ⟨base, defaultHeapSize⟩) :=
    fun id d heap => getElem?_snoc (by rwa [ctx] at heap)
  refine ⟨?_, ?_⟩
  · exact
      { uninitialized := fun notReady => by rw [ctx] at notReady; simp [ready] at notReady
        represents := fun id d heap => by
          cases lookup id d heap with
          | inl older =>
            have untouched := sound.represents id d older
            have here : id ≠ state.ctx.heaps.length :=
              (List.getElem?_eq_some_iff.mp older).1.ne
            rw [Function.update_of_ne here]
            refine ⟨untouched.size, untouched.fits, untouched.tiled,
              untouched.headed.mono fun block member => (old id d older).mono ?_⟩
            exact MmBlock.header_subset.trans (sound.extent_subset_range older member)
          | inr newest =>
            obtain ⟨rfl, rfl⟩ := newest
            rw [Function.update_self]
            refine ⟨rfl, fits, .cons rfl ?_, List.forall_mem_singleton.mpr header⟩
            have whole : mmControlSize + (defaultHeapSize - mmControlSize) = defaultHeapSize := by
              decide
            exact MmTiling.nil_iff.mpr (by simp only [MmBlock.whole, Nat.add_assoc, whole])
        few := by
          rw [ctx]
          simp only [List.length_append, List.length_singleton, maxHeaps] at room ⊢
          omega
        heapsApart := by
          rw [ctx]
          refine List.pairwise_append.mpr ⟨sound.heapsApart, List.pairwise_singleton _ _, ?_⟩
          intro d member newest isNewest
          rw [List.mem_singleton.mp isNewest]
          exact (apart d member).symm
        placed := fun alloc isLive => by
          obtain ⟨id, d, heap, placed⟩ := sound.placed alloc isLive
          have inside := (List.getElem?_eq_some_iff.mp heap).1
          refine ⟨id, d, ?_, ?_⟩
          · rw [ctx, List.getElem?_append_left inside, heap]
          · rwa [Function.update_of_ne inside.ne]
        distinct := sound.distinct }
  · intro alloc isLive
    obtain ⟨id, d, heap, placed⟩ := sound.placed alloc isLive
    exact (old id d heap).mono (sound.extent_subset_range heap placed.member)

/-- The walk over a new heap sees its one block. -/
theorem allocate_whole {memory : ByteMem} {base : Nat} (low : base < 2 ^ 32)
    (header : MmControlBlock.load memory base = (MmBlock.whole base).control id) :
    ((MmBlock.whole base).Passes size ∧
      mmAllocateBlockFromHeap memory ⟨base, defaultHeapSize⟩ size =
        .ok (true, some (u32 (base + mmControlSize)), mmTakeBlock memory base size)) ∨
    (¬(MmBlock.whole base).Passes size ∧
      mmAllocateBlockFromHeap memory ⟨base, defaultHeapSize⟩ size = .ok (true, none, memory)) := by
  have endAddress : MmHeapDescriptor.endAddress ⟨base, defaultHeapSize⟩ =
      u32 (base + defaultHeapSize) := rfl
  have notEnd : base ≠ u32 (base + defaultHeapSize) := by
    simp only [u32, defaultHeapSize]
    omega
  have next : u32 (base + (defaultHeapSize - mmControlSize + mmControlSize)) =
      u32 (base + defaultHeapSize) := rfl
  have steps : defaultHeapSize = 0x7FFFFF + 1 := rfl
  by_cases room : u32 (size + mmControlSize) ≤ defaultHeapSize - mmControlSize
  · refine .inl ⟨⟨rfl, room⟩, ?_⟩
    have scan : mmScan memory ⟨base, defaultHeapSize⟩ size = .ok (.found base) := by
      rw [mmScan, mmScanLoop, endAddress, if_neg notEnd]
      simp only [header, MmBlock.control, MmBlock.whole, ne_eq, not_true, if_false, true_and,
        if_pos room]
    rw [mmAllocateBlockFromHeap, scan]
    rfl
  · refine .inr ⟨fun passes => room passes.2, ?_⟩
    have scan : mmScan memory ⟨base, defaultHeapSize⟩ size = .ok .heapEnd := by
      rw [mmScan, mmScanLoop, endAddress, if_neg notEnd]
      simp only [header, MmBlock.control, MmBlock.whole, ne_eq, not_true, if_false, true_and,
        if_neg room]
      rw [next, steps, mmScanLoop, if_pos rfl]
    rw [mmAllocateBlockFromHeap, scan]
    rfl

/-- What `malloc` does when no heap has a block for the request. -/
theorem mallocLocked_ended {kernel : MmKernel}
    (ended : Antonix.mallocLoop size state.ctx.heaps state.memory = .ok (true, none, state.memory))
    (low : ∀ pid usage base, kernel.vmmCreateHeap pid defaultHeapSize usage = .ok base →
      base < 2 ^ 32) :
    (¬state.HasSlot ∧ Antonix.mallocLocked kernel state size = .ok (none, state)) ∨
    (state.HasSlot ∧ mmCreateHeap kernel state = (false, state) ∧
      Antonix.mallocLocked kernel state size = .ok (none, state)) ∨
    ∃ base state', state.HasSlot ∧ mmCreateHeap kernel state = (true, state') ∧
      state'.ctx = { state.ctx with heaps := state.ctx.heaps ++ [⟨base, defaultHeapSize⟩] } ∧
      (((MmBlock.whole base).Passes size ∧ Antonix.mallocLocked kernel state size =
          .ok (some (u32 (base + mmControlSize)),
            { state' with memory := mmTakeBlock state'.memory base size })) ∨
        (¬(MmBlock.whole base).Passes size ∧
          Antonix.mallocLocked kernel state size = .ok (none, state'))) := by
  rw [Antonix.mallocLocked, ended]
  by_cases slot : state.HasSlot
  · have room : ¬maxHeaps - 1 ≤ state.ctx.heaps.length := Nat.not_le_of_lt slot
    simp only [bind, Except.bind, if_neg room]
    cases created : mmCreateHeap kernel state with
    | mk success state' =>
      cases success with
      | false =>
        obtain rfl := mmCreateHeap_refused created
        exact .inr (.inl ⟨slot, rfl, rfl⟩)
      | true =>
        have few : state.ctx.heaps.length < 2 ^ 32 := by
          simp only [MmState.HasSlot, maxHeaps] at slot
          omega
        obtain ⟨base, usage, answer, ctx, header, -⟩ := mmCreateHeap_spec created few
        -- the new heap is the last one
        have last : state'.ctx.heaps.getD (state'.ctx.heaps.length - 1) ⟨0, 0⟩ =
            ⟨base, defaultHeapSize⟩ := by simp [ctx]
        refine .inr (.inr ⟨base, state', slot, rfl, ctx, ?_⟩)
        simp only [last]
        cases allocate_whole (low _ _ _ answer) header with
        | inl taken => exact .inl ⟨taken.1, by rw [taken.2]⟩
        | inr none => exact .inr ⟨none.1, by rw [none.2]⟩
  · refine .inl ⟨slot, ?_⟩
    simp only [bind, Except.bind, if_pos (Nat.le_of_not_lt slot)]

theorem mallocLocked_served {kernel : MmKernel} (sound : state.Sound live layout)
    (fresh : kernel.Fresh state) (size : Nat) :
    ∃ result state' layout', Antonix.mallocLocked kernel state size = .ok (result, state') ∧
      MmServed kernel state layout size result state' layout' := by
  cases sound.mallocLoop size (List.nil_append state.ctx.heaps).symm with
  | inr found =>
    obtain ⟨id, d, block, front, back, heap, blocks, passes, taken⟩ := found
    exact ⟨_, _, _, by rw [Antonix.mallocLocked, taken]; rfl, .taken heap blocks passes⟩
  | inl ended =>
    have full : state.Full layout size := fun id d heap => ended.2 id d (Nat.zero_le _) heap
    have low : ∀ pid usage base, kernel.vmmCreateHeap pid defaultHeapSize usage = .ok base →
        base < 2 ^ 32 := by
      intro pid usage base answer
      have fits := (fresh pid usage base answer).1
      simp only [defaultHeapSize] at fits
      omega
    obtain ⟨slot, locked⟩ | ⟨slot, created, locked⟩ | ⟨base, state', slot, created, ctx, locked⟩ :=
      mallocLocked_ended ended.1 low
    · exact ⟨_, _, _, locked, .noSlot full slot⟩
    · exact ⟨_, _, _, locked, .refused full slot created⟩
    · cases locked with
      | inl taken => exact ⟨_, _, _, taken.2, .grown full slot created ctx taken.1⟩
      | inr none => exact ⟨_, _, _, none.2, .wasted full slot created ctx none.1⟩

/-- A request that does not wrap around is answered soundly. -/
theorem served {kernel : MmKernel} {result : Option Nat} {state' : MmState}
    {layout' : Nat → List MmBlock} (sound : state.Sound live layout) (fresh : kernel.Fresh state)
    (ready : state.ctx.initialized = true) (positive : 0 < size)
    (request : size + mmControlSize < 2 ^ 32)
    (answer : MmServed kernel state layout size result state' layout') :
    state'.Sound (granted result size live) layout' ∧
      ∀ alloc ∈ live, EqOn state'.memory state.memory alloc.block.extent := by
  have unchanged : ∀ alloc ∈ live, EqOn state.memory state.memory alloc.block.extent :=
    fun _ _ => eqOn_refl _ _
  cases answer with
  | taken heap blocks passes =>
    exact sound.take heap blocks ((MmBlock.passes_iff_suits request).mp passes) positive request
  | noSlot _ _ => exact ⟨sound, unchanged⟩
  | refused _ _ _ => exact ⟨sound, unchanged⟩
  | @grown base state' _ slot created ctx passes =>
    obtain ⟨sound', frame⟩ := sound.createHeap fresh created ctx slot ready
    have heap : state'.ctx.heaps[state.ctx.heaps.length]? = some ⟨base, defaultHeapSize⟩ := by
      simp [ctx]
    have blocks : Function.update layout state.ctx.heaps.length [MmBlock.whole base]
        state.ctx.heaps.length = [] ++ MmBlock.whole base :: [] := Function.update_self ..
    obtain ⟨sound'', frame'⟩ := sound'.take heap blocks
      ((MmBlock.passes_iff_suits request).mp passes) positive request
    rw [Function.update_idem] at sound''
    exact ⟨sound'', fun alloc isLive => (frame' alloc isLive).trans (frame alloc isLive)⟩
  | wasted _ slot created ctx _ => exact sound.createHeap fresh created ctx slot ready

/-- A sound state is sound when it has been initialized. -/
theorem ready {kernel : MmKernel} {ready : MmState} (sound : state.Sound live layout)
    (initialized : mmReady kernel state = some ready) : ready.Sound live layout := by
  obtain ⟨isReady, heaps, memory⟩ := mmReady_same sound.uninitialized initialized
  exact
    { uninitialized := fun notReady => by simp [isReady] at notReady
      represents := heaps ▸ memory ▸ sound.represents
      few := heaps ▸ sound.few
      heapsApart := heaps ▸ sound.heapsApart
      placed := heaps ▸ sound.placed
      distinct := sound.distinct }

theorem malloc_answered {kernel : MmKernel} (sound : state.Sound live layout)
    (fresh : kernel.Fresh state) (size : Nat) :
    ∃ result state', Antonix.malloc kernel state size = .ok (result, state') ∧
      MmAnswered kernel state layout size result state' := by
  rw [malloc_eq]
  cases initialized : mmReady kernel state with
  | none => exact ⟨none, state, rfl, .uninitialized initialized⟩
  | some ready =>
    have heaps := (mmReady_same sound.uninitialized initialized).2.1
    by_cases empty : size = 0
    · exact ⟨none, ready, by simp only [if_pos empty], .empty initialized empty⟩
    · obtain ⟨result, state', layout', locked, answer⟩ :=
        (sound.ready initialized).mallocLocked_served (fresh.of_heaps heaps) size
      exact ⟨result, state', by simp only [if_neg empty, locked],
        .served initialized (Nat.pos_of_ne_zero empty) answer⟩

/-- `malloc` returns; it fails or makes one allocation live. -/
theorem malloc {kernel : MmKernel} (sound : state.Sound live layout) (fresh : kernel.Fresh state)
    (request : size + mmControlSize < 2 ^ 32) :
    ∃ result state', malloc kernel state size = .ok (result, state') ∧
      (∃ layout', state'.Sound (granted result size live) layout') ∧
      ∀ alloc ∈ live, EqOn state'.memory state.memory alloc.block.extent := by
  obtain ⟨result, state', returned, answered⟩ := sound.malloc_answered fresh size
  refine ⟨result, state', returned, ?_⟩
  cases answered with
  | uninitialized _ => exact ⟨⟨layout, sound⟩, fun _ _ => eqOn_refl _ _⟩
  | empty initialized _ =>
    have memory := (mmReady_same sound.uninitialized initialized).2.2
    exact ⟨⟨layout, sound.ready initialized⟩, fun _ _ => memory ▸ eqOn_refl _ _⟩
  | @served ready _ _ layout' initialized positive answer =>
    obtain ⟨isReady, heaps, memory⟩ := mmReady_same sound.uninitialized initialized
    obtain ⟨sound', frame⟩ := (sound.ready initialized).served (fresh.of_heaps heaps) isReady
      positive request answer
    exact ⟨⟨layout', sound'⟩, memory ▸ frame⟩

/-! ## `free` -/

theorem forget {live' : List MmAllocation} (sound : state.Sound live layout)
    (fewer : live'.Sublist live) : state.Sound live' layout :=
  { sound with
    placed := fun alloc isLive => sound.placed alloc (fewer.subset isLive)
    distinct := sound.distinct.sublist fewer }

theorem ptr_ne_of_erase (sound : state.Sound live layout) {other : MmAllocation}
    (isLive : alloc ∈ live) (left : other ∈ live.erase alloc) : alloc.ptr ≠ other.ptr := by
  have reordered := (List.perm_cons_erase isLive).pairwise_iff
    (R := fun x y : MmAllocation => x.ptr ≠ y.ptr) (fun differ => differ.symm)
  exact (List.pairwise_cons.mp (reordered.mp sound.distinct)).1 other left

/-- What `free` makes of the blocks: the freed one grows over all free blocks behind it. -/
structure Merges (layout layout' : Nat → List MmBlock) (alloc : MmAllocation)
    (id : Nat) (front run back : List MmBlock) (size : Nat) : Prop where
  before : layout id = front ++ alloc.block :: (run ++ back)
  runFree : ∀ block ∈ run, block.free = true
  stopped : ∀ block ∈ back.head?, block.free = false
  after : layout' =
    Function.update layout id (front ++ ([⟨alloc.block.addr, size, true⟩] ++ back))

/-- The heap of the allocation ends at the top of the address space, and the allocation is not
its last block. -/
def Unmergeable (state : MmState) (layout : Nat → List MmBlock) (alloc : MmAllocation) : Prop :=
  ∃ id d, state.ctx.heaps[id]? = some d ∧ alloc.block ∈ layout id ∧
    d.memory + d.size = 2 ^ 32 ∧ alloc.ptr + alloc.size < 2 ^ 32

/-- `free` of a live pointer returns.  It writes to the header of that block only, and does
nothing when it cannot walk over the blocks behind it. -/
theorem free_merges (sound : state.Sound live layout) (isLive : alloc ∈ live) :
    ∃ state', free state alloc.ptr = .ok state' ∧ state'.ctx = state.ctx ∧
      EqOn state'.memory state.memory alloc.block.headerᶜ ∧
      ((Unmergeable state layout alloc ∧ state' = state) ∨
        (¬Unmergeable state layout alloc ∧ ∃ layout' id front run back size,
          Merges layout layout' alloc id front run back size ∧
          state'.Sound (live.erase alloc) layout' ∧ id < state.ctx.heaps.length)) := by
  obtain ⟨id, d, heap, placed⟩ := sound.placed alloc isLive
  have represents := sound.represents id d heap
  obtain ⟨front, back, blocks⟩ := List.append_of_mem placed.member
  have above := placed.above
  have positive : 0 < alloc.block.size := placed.positive
  have header := represents.headed alloc.block placed.member
  have addr : alloc.block.addr + mmControlSize = alloc.ptr := Nat.sub_add_cancel above
  have below := (represents.block_bounds placed.member).1
  have mcb : u32 (alloc.ptr + (2 ^ 32 - mmControlSize)) = alloc.block.addr := by
    simp only [u32, mmControlSize] at *
    omega
  have inside : id < state.ctx.heaps.length := (List.getElem?_eq_some_iff.mp heap).1
  have few : id < maxHeaps := inside.trans sound.few
  have descriptor : state.ctx.heaps.getD id ⟨0, 0⟩ = d := by
    rw [List.getD_eq_getElem?_getD, heap]
    rfl
  have freed : ∀ outcome, mmFreeBlockFromHeap state.memory d alloc.block.addr = .ok outcome →
      Antonix.free state alloc.ptr = .ok { state with memory := outcome.2 } := by
    intro outcome merged
    simp only [Antonix.free, mcb, header, MmBlock.control]
    rw [if_neg (by omega), descriptor, merged]
    rfl
  cases mmFreeBlockFromHeap_spec represents blocks with
  | inl gaveUp =>
    -- the block stays as it is and is lost
    obtain ⟨nothing, top, short⟩ := gaveUp
    rw [addr] at short
    exact ⟨state, freed _ nothing, rfl, eqOn_refl _ _,
      .inl ⟨⟨id, d, heap, placed.member, top, short⟩, rfl⟩⟩
  | inr merged =>
    obtain ⟨last, run, rest, size, stop, memory', merged, result⟩ := merged
    have mergeable : ¬Unmergeable state layout alloc := by
      rintro ⟨id', d', heap', member', top, short⟩
      obtain rfl := sound.heap_unique heap placed.member heap' member'
      obtain rfl : d = d' := Option.some.inj (heap.symm.trans heap')
      have ends := last top
      rw [addr] at ends
      exact short.ne ends
    obtain ⟨a, left, tiled⟩ := Tiling.split (blocks ▸ represents.tiled)
    obtain ⟨rfl, -⟩ := MmTiling.block_bounds tiled
    refine ⟨_, freed _ result, rfl, merged.same, .inr ⟨mergeable, _, id, front, run, rest, size,
      ⟨by rw [blocks, merged.split], merged.runFree, merged.stopped, rfl⟩, sound.replace
        (alloc.block :: run) [⟨alloc.block.addr, size, true⟩] heap
        (by rw [blocks, merged.split]; rfl) left merged.right
        (.cons rfl (MmTiling.nil_iff.mpr merged.ends))
        (List.forall_mem_singleton.mpr merged.header) ?_ ?_
        (sound.distinct.sublist List.erase_sublist), inside⟩⟩
    · refine merged.same.mono (compl_subset_compl.mpr (Ico_subset_Ico_right ?_))
      have := merged.ends
      omega
    · -- a live block is neither the freed one nor one of the free ones after it
      intro other left
      refine .inl ⟨List.mem_of_mem_erase left, ?_⟩
      rw [List.mem_cons, not_or]
      refine ⟨(sound.block_ne isLive (List.mem_of_mem_erase left)
        (sound.ptr_ne_of_erase isLive left)).symm, fun inRun => ?_⟩
      exact absurd (merged.runFree _ inRun) (by simp [MmAllocation.block])

theorem free (sound : state.Sound live layout) (isLive : alloc ∈ live) :
    ∃ state', free state alloc.ptr = .ok state' ∧ state'.ctx = state.ctx ∧
      (∃ layout', state'.Sound (live.erase alloc) layout') ∧
      EqOn state'.memory state.memory alloc.block.headerᶜ := by
  obtain ⟨state', freed, ctx, same, outcome⟩ := sound.free_merges isLive
  refine ⟨state', freed, ctx, ?_, same⟩
  cases outcome with
  | inl gaveUp =>
    obtain ⟨-, rfl⟩ := gaveUp
    exact ⟨layout, sound.forget List.erase_sublist⟩
  | inr merged =>
    obtain ⟨-, layout', _, _, _, _, _, -, sound', -⟩ := merged
    exact ⟨layout', sound'⟩

/-- After `free` the header says that the block is free. -/
theorem free_header {state' : MmState} (sound : state.Sound live layout) (isLive : alloc ∈ live)
    (mergeable : ¬Unmergeable state layout alloc)
    (freed : Antonix.free state alloc.ptr = .ok state') :
    (MmControlBlock.load state'.memory (alloc.ptr - mmControlSize)).free = true := by
  obtain ⟨state'', freed', ctx, -, outcome⟩ := sound.free_merges isLive
  obtain rfl := Except.ok.inj (freed'.symm.trans freed)
  obtain ⟨unmergeable, -⟩ | ⟨-, layout', id, front, run, back, size, merges, sound', inside⟩ :=
    outcome
  · exact absurd unmergeable mergeable
  · rw [← ctx] at inside
    have represents := sound'.represents id _ (List.getElem?_eq_getElem inside)
    have member : (⟨alloc.block.addr, size, true⟩ : MmBlock) ∈ layout' id := by
      rw [merges.after, Function.update_self]
      simp
    exact congrArg MmControlBlock.free (represents.headed _ member)

/-! ## `calloc` and `realloc` -/

/-- Writing inside one live payload. -/
theorem write_payload {memory : ByteMem} (sound : state.Sound live layout) (isLive : alloc ∈ live)
    (same : EqOn memory state.memory alloc.payloadᶜ) :
    Sound { state with memory } live layout :=
  sound.write same fun _ _ heap _ member => sound.payload_disjoint_header isLive heap member

theorem calloc {kernel : MmKernel} {num : Nat} (sound : state.Sound live layout)
    (fresh : kernel.Fresh state) (noOverflow : num * size < 2 ^ 32)
    (request : num * size + mmControlSize < 2 ^ 32) :
    ∃ result state', calloc kernel state num size = .ok (result, state') ∧
      ∃ layout', state'.Sound (granted result (num * size) live) layout' := by
  obtain ⟨result, state', allocated, ⟨layout', sound'⟩, -⟩ := sound.malloc fresh request
  rw [← u32_of_lt noOverflow] at allocated
  cases result with
  | none =>
    exact ⟨none, state', by simp only [Antonix.calloc, allocated, bind, Except.bind], layout',
      sound'⟩
  | some mem =>
    refine ⟨some mem, { state' with memory := state'.memory.fill mem 0 (num * size) }, ?_,
      layout', ?_⟩
    · simp only [Antonix.calloc, allocated, bind, Except.bind]
      rw [u32_of_lt noOverflow]
    · have zeroed : EqOn (state'.memory.fill mem 0 (num * size)) state'.memory
          (MmAllocation.payload ⟨mem, num * size⟩)ᶜ := ByteMem.fill_eqOn _ _ _ _
      exact sound'.write_payload List.mem_cons_self zeroed

/-- The allocations that are left when `ptr` has been reallocated. -/
def dropped (old : Option MmAllocation) (live : List MmAllocation) : List MmAllocation :=
  match old with
  | none => live
  | some alloc => live.erase alloc

/-- The middle of `realloc`: a new block gets the bytes of a live one, which is freed. -/
theorem move {new : Nat} (sound : state.Sound (⟨new, size⟩ :: live) layout)
    (isLive : alloc ∈ live) :
    let header := MmControlBlock.load state.memory (u32 (alloc.ptr + (2 ^ 32 - mmControlSize)))
    let count := if header.size < size then header.size else size
    ∃ state', Antonix.free { state with memory := state.memory.copy new alloc.ptr count }
        alloc.ptr = .ok state' ∧ state'.ctx = state.ctx ∧
      (∃ layout', state'.Sound (⟨new, size⟩ :: live.erase alloc) layout') ∧
      (∀ k < min alloc.size size, state'.memory (new + k) = state.memory (alloc.ptr + k)) ∧
      (∀ other ∈ live.erase alloc, EqOn state'.memory state.memory other.block.extent) ∧
      (¬Unmergeable state layout alloc →
        (MmControlBlock.load state'.memory (alloc.ptr - mmControlSize)).free = true) := by
  have older : alloc ∈ (⟨new, size⟩ :: live : List MmAllocation) := List.mem_cons_of_mem _ isLive
  have newest : (⟨new, size⟩ : MmAllocation) ∈ (⟨new, size⟩ :: live : List MmAllocation) :=
    List.mem_cons_self
  have apart : ∀ other ∈ live, new ≠ other.ptr := (List.pairwise_cons.mp sound.distinct).1
  have differ : (⟨new, size⟩ : MmAllocation) ≠ alloc := by
    rintro rfl
    exact apart _ isLive rfl
  obtain ⟨id, d, heap, placed⟩ := sound.placed alloc older
  obtain ⟨_, _, _, newPlaced⟩ := sound.placed _ newest
  have represents := sound.represents id d heap
  -- the header of the old block says how much there is to copy
  have mcb : u32 (alloc.ptr + (2 ^ 32 - mmControlSize)) = alloc.block.addr := by
    have above := placed.above
    have fits := represents.fits
    obtain ⟨-, inside⟩ := represents.tiled.inside alloc.block placed.member
    simp only [MmBlock.len, MmAllocation.block, u32, mmControlSize] at *
    omega
  have header : (MmControlBlock.load state.memory alloc.block.addr).size = alloc.size :=
    congrArg MmControlBlock.size (represents.headed alloc.block placed.member)
  simp only [mcb, header]
  generalize same_count : (if alloc.size < size then alloc.size else size) = count
  have short : count = min alloc.size size := by
    rw [← same_count]
    split <;> omega
  have copied : EqOn (state.memory.copy new alloc.ptr count) state.memory
      (MmAllocation.payload ⟨new, size⟩)ᶜ :=
    (ByteMem.copy_eqOn _ _ _ _).mono
      (compl_subset_compl.mpr (Ico_subset_Ico_right (by simp only; omega)))
  have sound' := sound.write_payload newest copied
  obtain ⟨state', freed, ctx, sound'', same⟩ := sound'.free older
  refine ⟨state', freed, ctx, ?_, ?_, ?_, fun mergeable => sound'.free_header older mergeable freed⟩
  · rwa [List.erase_cons_tail (by simpa using differ)] at sound''
  · intro k small
    have inNew : new + k ∈ MmAllocation.payload ⟨new, size⟩ :=
      ⟨Nat.le_add_right _ _, by simp only; omega⟩
    have notHeader : new + k ∉ alloc.block.header :=
      disjoint_left.mp (sound.payload_disjoint_header newest heap placed.member) inNew
    rw [same notHeader]
    simp only [ByteMem.copy]
    rw [if_pos (by omega), Nat.add_sub_cancel_left]
  · intro other left
    have otherLive := List.mem_of_mem_erase left
    have otherOlder : other ∈ (⟨new, size⟩ :: live : List MmAllocation) :=
      List.mem_cons_of_mem _ otherLive
    have fromOld : Disjoint alloc.block.extent other.block.extent :=
      sound.live_disjoint older otherOlder
        ((sound.forget (List.sublist_cons_self _ _)).ptr_ne_of_erase isLive left)
    have fromNew : Disjoint (MmAllocation.block ⟨new, size⟩).extent other.block.extent :=
      sound.live_disjoint newest otherOlder (apart other otherLive)
    have payload : MmAllocation.payload ⟨new, size⟩ ⊆ (MmAllocation.block ⟨new, size⟩).extent := by
      rw [← newPlaced.payload_eq]
      exact MmBlock.payload_subset
    exact (same.mono (subset_compl_iff_disjoint_left.mpr
      (fromOld.mono_left MmBlock.header_subset))).trans (copied.mono
        (subset_compl_iff_disjoint_left.mpr (fromNew.mono_left payload)))

theorem realloc {kernel : MmKernel} {old : Option MmAllocation} (sound : state.Sound live layout)
    (fresh : kernel.Fresh state) (isLive : ∀ alloc, old = some alloc → alloc ∈ live)
    (request : size + mmControlSize < 2 ^ 32) :
    ∃ result state',
      realloc kernel state (old.map MmAllocation.ptr) size = .ok (result, state') ∧
      ∃ layout', state'.Sound (granted result size (dropped old live)) layout' := by
  by_cases empty : size = 0
  · cases old with
    | none => exact ⟨none, state, by simp [Antonix.realloc, empty], layout, sound⟩
    | some alloc =>
      obtain ⟨state', freed, -, sound', -⟩ := sound.free (isLive alloc rfl)
      exact ⟨none, state', by simp [Antonix.realloc, empty, freed, bind, Except.bind], sound'⟩
  · obtain ⟨new, state', allocated, ⟨layout', sound'⟩, -⟩ := sound.malloc fresh request
    cases old with
    | none =>
      exact ⟨new, state', by simp [Antonix.realloc, empty, allocated, bind, Except.bind], layout',
        sound'⟩
    | some alloc =>
      have member := isLive alloc rfl
      cases new with
      | none =>
        obtain ⟨state'', freed, -, sound'', -⟩ := sound'.free member
        exact ⟨none, state'', by
          simp [Antonix.realloc, empty, allocated, freed, bind, Except.bind], sound''⟩
      | some new =>
        obtain ⟨state'', freed, -, sound'', -⟩ := sound'.move member
        refine ⟨some new, state'', ?_, sound''⟩
        simp only [Antonix.realloc, Option.map_some, if_neg empty, allocated, bind, Except.bind]
        rw [freed]

end MmState.Sound

end Antonix
