import Antonix.StdlibMemory.Writes

/-! # The representation invariant of the library's heaps

`MmState.Sound state live layout`: heap `id` consists of the blocks `layout id`,
the heaps are apart from each other, and every live allocation is a block of its
own that is not free.

Two rules change a sound state.  `Sound.replace` puts other blocks in the place
of some neighbouring ones, which covers splitting and merging; `Sound.write`
changes memory outside the headers. -/

namespace Antonix

open Set

/-- A pointer that the library has handed out, and the size asked for. -/
structure MmAllocation where
  ptr : Nat
  size : Nat
  deriving DecidableEq, Repr

namespace MmAllocation

variable (alloc : MmAllocation)

def block : MmBlock := ⟨alloc.ptr - mmControlSize, alloc.size, false⟩

/-- The bytes that the caller may use. -/
def payload : Set Nat := Ico alloc.ptr (alloc.ptr + alloc.size)

/-- The allocation is one of the blocks. -/
structure In (blocks : List MmBlock) : Prop where
  positive : 0 < alloc.size
  above : mmControlSize ≤ alloc.ptr
  member : alloc.block ∈ blocks

variable {alloc}

theorem In.payload_eq {blocks : List MmBlock} (placed : alloc.In blocks) :
    alloc.block.payload = alloc.payload := by
  have above := placed.above
  rw [MmBlock.payload, payload, block, Nat.sub_add_cancel above]

end MmAllocation

/-- What holds of the state between any two calls. -/
structure MmState.Sound (state : MmState) (live : List MmAllocation)
    (layout : Nat → List MmBlock) : Prop where
  uninitialized : state.ctx.initialized = false → state.ctx.heaps = []
  represents : ∀ id (d : MmHeapDescriptor), state.ctx.heaps[id]? = some d →
    d.Represents id state.memory (layout id)
  few : state.ctx.heaps.length < maxHeaps
  heapsApart : state.ctx.heaps.Pairwise fun d e => Disjoint d.range e.range
  placed : ∀ alloc ∈ live, ∃ id d, state.ctx.heaps[id]? = some d ∧ alloc.In (layout id)
  distinct : live.Pairwise fun alloc other => alloc.ptr ≠ other.ptr

namespace MmState.Sound

variable {state : MmState} {live : List MmAllocation} {layout : Nat → List MmBlock}
  {id id' : Nat} {d d' : MmHeapDescriptor} {block block' : MmBlock} {alloc other : MmAllocation}

/-- Before the first call there are no heaps. -/
theorem initial (memory : ByteMem) : MmState.Sound ⟨mmContext, memory⟩ [] fun _ => [] where
  uninitialized := fun _ => rfl
  represents := by simp [mmContext]
  few := by simp [mmContext, maxHeaps]
  heapsApart := .nil
  placed := by simp
  distinct := .nil

/-! ## Blocks are apart -/

theorem extent_subset_range (sound : state.Sound live layout)
    (heap : state.ctx.heaps[id]? = some d) (member : block ∈ layout id) :
    block.extent ⊆ d.range := by
  obtain ⟨low, high⟩ := (sound.represents id d heap).tiled.inside block member
  exact Ico_subset_Ico low high

theorem range_disjoint (sound : state.Sound live layout)
    (heap : state.ctx.heaps[id]? = some d) (heap' : state.ctx.heaps[id']? = some d')
    (differ : id ≠ id') : Disjoint d.range d'.range := by
  obtain ⟨inside, rfl⟩ := List.getElem?_eq_some_iff.mp heap
  obtain ⟨inside', rfl⟩ := List.getElem?_eq_some_iff.mp heap'
  have apart := List.pairwise_iff_getElem.mp sound.heapsApart
  cases Nat.lt_or_gt_of_ne differ with
  | inl before => exact apart id id' inside inside' before
  | inr after => exact (apart id' id inside' inside after).symm

/-- A block is in one heap only. -/
theorem heap_unique (sound : state.Sound live layout)
    (heap : state.ctx.heaps[id]? = some d) (member : block ∈ layout id)
    (heap' : state.ctx.heaps[id']? = some d') (member' : block ∈ layout id') : id = id' := by
  by_contra differ
  have first : block.addr ∈ block.extent :=
    ⟨le_rfl, by simp only [MmBlock.len, mmControlSize]; omega⟩
  exact disjoint_left.mp (sound.range_disjoint heap heap' differ)
    (sound.extent_subset_range heap member first) (sound.extent_subset_range heap' member' first)

/-- Different blocks have no byte in common, in one heap or in two. -/
theorem extent_disjoint (sound : state.Sound live layout)
    (heap : state.ctx.heaps[id]? = some d) (member : block ∈ layout id)
    (heap' : state.ctx.heaps[id']? = some d') (member' : block' ∈ layout id')
    (differ : block ≠ block') : Disjoint block.extent block'.extent := by
  by_cases same : id = id'
  · subst same
    have apart := (sound.represents id d heap).tiled.apart member member' differ
    rw [disjoint_left]
    intro b inBlock inBlock'
    have := inBlock.1; have := inBlock.2; have := inBlock'.1; have := inBlock'.2
    omega
  · exact (sound.range_disjoint heap heap' same).mono (sound.extent_subset_range heap member)
      (sound.extent_subset_range heap' member')

/-- No payload of a live allocation reaches into a header. -/
theorem payload_disjoint_header (sound : state.Sound live layout) (isLive : alloc ∈ live)
    (heap : state.ctx.heaps[id]? = some d) (member : block ∈ layout id) :
    Disjoint alloc.payload block.header := by
  obtain ⟨id', d', heap', placed⟩ := sound.placed alloc isLive
  rw [← placed.payload_eq]
  by_cases same : alloc.block = block
  · rw [same]
    exact MmBlock.header_disjoint_payload.symm
  · exact (sound.extent_disjoint heap' placed.member heap member same).mono
      MmBlock.payload_subset MmBlock.header_subset

theorem block_ne (sound : state.Sound live layout) (isLive : alloc ∈ live)
    (otherLive : other ∈ live) (differ : alloc.ptr ≠ other.ptr) : alloc.block ≠ other.block := by
  obtain ⟨_, _, _, placed⟩ := sound.placed alloc isLive
  obtain ⟨_, _, _, otherPlaced⟩ := sound.placed other otherLive
  have above := placed.above
  have otherAbove := otherPlaced.above
  intro same
  have := congrArg MmBlock.addr same
  simp only [MmAllocation.block] at this
  omega

/-- Live allocations with different pointers have no byte in common, headers included. -/
theorem live_disjoint (sound : state.Sound live layout) (isLive : alloc ∈ live)
    (otherLive : other ∈ live) (differ : alloc.ptr ≠ other.ptr) :
    Disjoint alloc.block.extent other.block.extent := by
  obtain ⟨id, d, heap, placed⟩ := sound.placed alloc isLive
  obtain ⟨id', d', heap', otherPlaced⟩ := sound.placed other otherLive
  exact sound.extent_disjoint heap placed.member heap' otherPlaced.member
    (sound.block_ne isLive otherLive differ)

/-! ## The two rules -/

/-- Writing outside the headers. -/
theorem write {memory : ByteMem} {written : Set Nat} (sound : state.Sound live layout)
    (same : EqOn memory state.memory writtenᶜ)
    (apart : ∀ id d, state.ctx.heaps[id]? = some d → ∀ block ∈ layout id,
      Disjoint written block.header) : Sound { state with memory } live layout where
  uninitialized := sound.uninitialized
  represents id d heap :=
    { size := (sound.represents id d heap).size
      fits := (sound.represents id d heap).fits
      tiled := (sound.represents id d heap).tiled
      headed := (sound.represents id d heap).headed.mono fun block member =>
        same.mono (subset_compl_iff_disjoint_left.mpr (apart id d heap block member)) }
  few := sound.few
  heapsApart := sound.heapsApart
  placed := sound.placed
  distinct := sound.distinct

/-- Putting the blocks `new` in the place of `old`, which cover the same addresses. -/
theorem replace {memory : ByteMem} {live' : List MmAllocation} {front back : List MmBlock}
    {a b : Nat} (old new : List MmBlock) (sound : state.Sound live layout)
    (heap : state.ctx.heaps[id]? = some d)
    (blocks : layout id = front ++ (old ++ back))
    (left : MmTiling d.memory front a) (right : MmTiling b back (d.memory + d.size))
    (tiled : MmTiling a new b) (headed : Headed memory id new)
    (same : EqOn memory state.memory (Ico a b)ᶜ)
    (placed : ∀ alloc ∈ live', (alloc ∈ live ∧ alloc.block ∉ old) ∨ alloc.In new)
    (distinct : live'.Pairwise fun alloc other => alloc.ptr ≠ other.ptr) :
    Sound { state with memory } live' (Function.update layout id (front ++ (new ++ back))) := by
  have replaced := sound.represents id d heap
  have inHeap : Ico a b ⊆ d.range := Ico_subset_Ico left.le right.le
  refine
    { uninitialized := sound.uninitialized
      represents := ?_
      few := sound.few
      heapsApart := sound.heapsApart
      placed := ?_
      distinct }
  · intro id' d' heap'
    by_cases here : id' = id
    · subst here
      obtain rfl : d = d' := Option.some.inj (heap.symm.trans heap')
      rw [Function.update_self]
      refine ⟨replaced.size, replaced.fits, left.append (tiled.append right), ?_⟩
      -- the headers before and after the replaced blocks are not written to
      have kept : Headed memory id' front ∧ Headed memory id' back := by
        refine ⟨Headed.mono ?_ fun block member => same.mono (MmBlock.header_outside ?_),
          Headed.mono ?_ fun block member => same.mono (MmBlock.header_outside ?_)⟩
        · exact fun block member => replaced.headed block (by rw [blocks]; simp [member])
        · exact .inl (left.inside block member).2
        · exact fun block member => replaced.headed block (by rw [blocks]; simp [member])
        · exact .inr (right.inside block member).1
      intro block member
      simp only [List.mem_append] at member
      cases member with
      | inl inFront => exact kept.1 block inFront
      | inr later =>
        cases later with
        | inl inNew => exact headed block inNew
        | inr inBack => exact kept.2 block inBack
    · -- the replaced blocks lie in another heap
      rw [Function.update_of_ne here]
      have untouched := sound.represents id' d' heap'
      refine ⟨untouched.size, untouched.fits, untouched.tiled,
        untouched.headed.mono fun block member => same.mono ?_⟩
      refine subset_compl_iff_disjoint_left.mpr
        ((sound.range_disjoint heap heap' (Ne.symm here)).mono inHeap ?_)
      exact MmBlock.header_subset.trans (sound.extent_subset_range heap' member)
  · intro alloc isLive
    cases placed alloc isLive with
    | inl older =>
      obtain ⟨id', d', heap', olderPlaced⟩ := sound.placed alloc older.1
      refine ⟨id', d', heap', olderPlaced.positive, olderPlaced.above, ?_⟩
      have member := olderPlaced.member
      by_cases here : id' = id
      · subst here
        rw [blocks] at member
        rw [Function.update_self]
        simp only [List.mem_append] at member ⊢
        cases member with
        | inl inFront => exact .inl inFront
        | inr later =>
          cases later with
          | inl inOld => exact absurd inOld older.2
          | inr inBack => exact .inr (.inr inBack)
      · rwa [Function.update_of_ne here]
    | inr fresh =>
      exact ⟨id, d, heap, fresh.positive, fresh.above, by
        rw [Function.update_self]
        exact List.mem_append_right _ (List.mem_append_left _ fresh.member)⟩

end MmState.Sound

end Antonix
