import Mathlib.Data.List.Chain
import Antonix.StdlibMemory.Ownership
import Antonix.StdlibMemory.Realloc

/-! # Coalescing

`free` merges a block with the free blocks behind it, never with the one in
front of it, as the note at the top of the source says.  In a history in which
no block is freed while the block in front of it is free, no two neighbours are
ever both free, and freeing everything leaves every heap as one free block; a
block that is freed behind a free one stays apart from it. -/

namespace Antonix

open Transition

/-- No two neighbours are both free. -/
def Coalesced (blocks : List MmBlock) : Prop :=
  blocks.IsChain fun block next => ¬(block.free = true ∧ next.free = true)

/-- In no heap are two neighbours both free. -/
def MmState.Coalesced (state : MmState) : Prop :=
  ∀ id (d : MmHeapDescriptor), state.ctx.heaps[id]? = some d →
    ∃ blocks, d.Represents id state.memory blocks ∧ Antonix.Coalesced blocks

/-- Every heap is one free block. -/
def MmState.Whole (state : MmState) : Prop :=
  ∀ id (d : MmHeapDescriptor), state.ctx.heaps[id]? = some d →
    d.Represents id state.memory [.whole d.memory]

/-- The block in front of the allocation is free. -/
def MmState.FreeBefore (state : MmState) (alloc : MmAllocation) : Prop :=
  ∃ id, ∃ d : MmHeapDescriptor, ∃ front block back, state.ctx.heaps[id]? = some d ∧
    d.Represents id state.memory (front ++ block :: alloc.block :: back) ∧ block.free = true

/-- The library is only asked to allocate and to free, and a live block is freed only when the
block in front of it is not free. -/
def MmHistory.mergesAll (history : MmHistory) : MmCall → Prop
  | .malloc kernel size => size + mmControlSize < 2 ^ 32 ∧ kernel.WellPlaced history.state
  | .free alloc => alloc ∈ history.live ∧ ¬history.state.FreeBefore alloc
  | .store addr value => history.allowed (.store addr value)
  | .calloc _ _ _ => False
  | .realloc _ _ _ => False

/-! ## Lists of blocks -/

section

variable {block : MmBlock} {front run back : List MmBlock} {size : Nat}

theorem Coalesced.taken (coalesced : Coalesced (front ++ block :: back))
    (free : block.free = true) :
    Coalesced (front ++ ([block.taken size, block.rest size] ++ back)) := by
  obtain ⟨left, right, -⟩ := List.isChain_append.mp coalesced
  obtain ⟨next, rest⟩ := List.isChain_cons.mp right
  refine left.append (.cons_cons (by simp [MmBlock.taken]) (rest.cons ?_)) (by simp [MmBlock.taken])
  intro later first both
  exact next later first ⟨free, both.2⟩

/-- The merged block is apart from the free blocks if and only if the block in front of it is
not free. -/
theorem Coalesced.merged_iff {alloc : MmAllocation}
    (coalesced : Coalesced (front ++ alloc.block :: (run ++ back)))
    (stopped : ∀ block ∈ back.head?, block.free = false) :
    Coalesced (front ++ ([⟨alloc.block.addr, size, true⟩] ++ back)) ↔
      ∀ block ∈ front.getLast?, block.free = false := by
  obtain ⟨left, right, -⟩ := List.isChain_append.mp coalesced
  have rest : Coalesced back := right.tail.right_of_append
  have merged : Coalesced (⟨alloc.block.addr, size, true⟩ :: back) :=
    rest.cons fun later first both => by simp [stopped later first] at both
  rw [Coalesced, List.isChain_append, and_iff_right left]
  rw [and_iff_right (show List.IsChain _ ([_] ++ back) from merged)]
  simp

/-- A heap without neighbours that are free is one block when all its blocks are free. -/
theorem MmHeapDescriptor.Represents.whole {d : MmHeapDescriptor} {id : Nat} {memory : ByteMem}
    {blocks : List MmBlock} (heap : d.Represents id memory blocks) (coalesced : Coalesced blocks)
    (allFree : ∀ block ∈ blocks, block.free = true) : blocks = [.whole d.memory] := by
  have size := heap.size
  match blocks, heap.tiled, coalesced, allFree with
  | [], tiled, _, _ =>
    have := MmTiling.nil_iff.mp tiled
    simp only [defaultHeapSize] at size
    omega
  | [block], tiled, _, allFree =>
    have here := tiled.block_bounds.1
    have ends := MmTiling.nil_iff.mp tiled.tail
    have free := allFree block (List.mem_singleton_self _)
    obtain ⟨addr, payload, free⟩ := block
    simp only [MmBlock.whole, List.cons.injEq, MmBlock.mk.injEq, and_true] at *
    exact ⟨here, by omega, free⟩
  | block :: next :: _, _, coalesced, allFree =>
    exact absurd ⟨allFree block (by simp), allFree next (by simp)⟩
      (List.isChain_cons_cons.mp coalesced).1

end

theorem MmState.Sound.coalesced_iff {state : MmState} {live : List MmAllocation}
    {layout : Nat → List MmBlock} (sound : state.Sound live layout) :
    state.Coalesced ↔
      ∀ id d, state.ctx.heaps[id]? = some d → Antonix.Coalesced (layout id) := by
  constructor
  · intro coalesced id d heap
    obtain ⟨blocks, represents, apart⟩ := coalesced id d heap
    rwa [(sound.represents id d heap).unique represents]
  · exact fun coalesced id d heap => ⟨layout id, sound.represents id d heap, coalesced id d heap⟩

/-! ## The states between two calls -/

/-- A well-formed state in which no two neighbours are both free and every block that is not free
is live. -/
structure MmState.Settled (state : MmState) (live : List MmAllocation)
    (layout : Nat → List MmBlock) : Prop extends state.WellFormed live layout where
  coalesced : ∀ id, Antonix.Coalesced (layout id)
  owned : ∀ id d, state.ctx.heaps[id]? = some d → ∀ block ∈ layout id, block.free = false →
    ∃ alloc ∈ live, alloc.block = block

namespace MmState.Settled

variable {kernel : MmKernel} {state state' : MmState} {live : List MmAllocation}
  {layout : Nat → List MmBlock} {size : Nat} {result : Option Nat} {alloc : MmAllocation}

theorem initial (memory : ByteMem) : MmState.Settled ⟨mmContext, memory⟩ [] fun _ => [] where
  toSound := .initial memory
  ends := by simp [mmContext]
  coalesced := fun _ => .nil
  owned := by simp

theorem coalesced_update {n : Nat} {blocks : List MmBlock}
    (coalesced : ∀ id, Antonix.Coalesced (layout id)) (new : Antonix.Coalesced blocks) (id : Nat) :
    Antonix.Coalesced (Function.update layout n blocks id) := by
  by_cases here : id = n
  · rw [here, Function.update_self]
    exact new
  · rw [Function.update_of_ne here]
    exact coalesced id

/-- Every occupied block is live after the blocks of one heap have been replaced. -/
theorem owned_update {live' : List MmAllocation} {n : Nat} {blocks : List MmBlock}
    (settled : state.Settled live layout)
    (heaps : ∀ id d, id ≠ n → state'.ctx.heaps[id]? = some d → state.ctx.heaps[id]? = some d)
    (kept : ∀ id d, id ≠ n → state.ctx.heaps[id]? = some d → ∀ alloc ∈ live,
      alloc.block ∈ layout id → alloc ∈ live')
    (new : ∀ block ∈ blocks, block.free = false → ∃ alloc ∈ live', alloc.block = block) :
    ∀ id d, state'.ctx.heaps[id]? = some d → ∀ block ∈ Function.update layout n blocks id,
      block.free = false → ∃ alloc ∈ live', alloc.block = block := by
  intro id d heap block member occupied
  by_cases here : id = n
  · rw [here, Function.update_self] at member
    exact new block member occupied
  · rw [Function.update_of_ne here] at member
    have before := heaps id d here heap
    obtain ⟨alloc, isLive, rfl⟩ := settled.owned id d before block member occupied
    exact ⟨alloc, kept id d here before alloc isLive member, rfl⟩

/-- The part of a block that is taken is the new allocation. -/
theorem taken_block {block : MmBlock} (low : block.addr + mmControlSize < 2 ^ 32) :
    MmAllocation.block ⟨u32 (block.addr + mmControlSize), size⟩ = block.taken size := by
  rw [u32_of_lt low, MmAllocation.block, MmBlock.taken, Nat.add_sub_cancel]

/-- A request keeps the state settled: the block taken becomes live, and what is left of it is
free behind it. -/
theorem served (settled : state.Settled live layout) (placed : kernel.WellPlaced state)
    (ready : state.ctx.initialized = true) (positive : 0 < size)
    (request : size + mmControlSize < 2 ^ 32) {layout' : Nat → List MmBlock}
    (answer : MmServed kernel state layout size result state' layout') :
    state'.Settled (granted result size live) layout' := by
  have sound := (settled.toSound.served placed.fresh ready positive request answer).1
  have ends := placed.ends settled.ends (MmState.Sound.served_heaps answer)
  -- a new heap comes behind the ones there are
  have grows : ∀ {created : MmState} {base}, created.ctx.heaps = state.ctx.heaps ++ [base] →
      ∀ id d, id ≠ state.ctx.heaps.length → created.ctx.heaps[id]? = some d →
        state.ctx.heaps[id]? = some d := by
    intro created base heaps id d older heap
    rw [heaps] at heap
    exact (getElem?_snoc heap).resolve_right fun newest => older newest.1
  cases answer with
  | @taken id d front block back heap blocks passes =>
    have coalesced := settled.coalesced id
    rw [blocks] at coalesced
    have member : block ∈ layout id := by rw [blocks]; simp
    have below := ((settled.represents id d heap).block_bounds member).1
    have room := ((MmBlock.passes_iff_suits request).mp passes).2
    have mine : MmAllocation.block ⟨u32 (block.addr + mmControlSize), size⟩ = block.taken size :=
      taken_block (by omega)
    have before : ∀ other ∈ front ++ back, other.free = false →
        ∃ alloc ∈ live, alloc.block = other := fun other member =>
      settled.owned id d heap other (by
        rw [blocks, List.mem_append, List.mem_cons]
        rw [List.mem_append] at member
        exact member.imp_right .inr)
    refine ⟨⟨sound, ends⟩, coalesced_update settled.coalesced (coalesced.taken passes.1),
      settled.owned_update (fun _ _ _ same => same)
        (fun _ _ _ _ alloc isLive _ => List.mem_cons_of_mem _ isLive) ?_⟩
    intro other member occupied
    simp only [List.mem_append, List.mem_cons, List.not_mem_nil, or_false] at member
    obtain inFront | (rfl | rfl) | inBack := member
    · obtain ⟨alloc, isLive, same⟩ := before other (List.mem_append_left _ inFront) occupied
      exact ⟨alloc, List.mem_cons_of_mem _ isLive, same⟩
    · exact ⟨_, List.mem_cons_self, mine⟩
    · simp [MmBlock.rest] at occupied
    · obtain ⟨alloc, isLive, same⟩ := before other (List.mem_append_right _ inBack) occupied
      exact ⟨alloc, List.mem_cons_of_mem _ isLive, same⟩
  | noSlot _ _ => exact settled
  | refused _ _ _ => exact settled
  | @grown base created _ slot creation ctx passes =>
    have inside : base + defaultHeapSize < 2 ^ 32 := ends ⟨base, defaultHeapSize⟩ (by simp [ctx])
    have low : (MmBlock.whole base).addr + mmControlSize < 2 ^ 32 := by
      simp only [MmBlock.whole, mmControlSize, defaultHeapSize] at *
      omega
    have mine : MmAllocation.block ⟨u32 ((MmBlock.whole base).addr + mmControlSize), size⟩ =
        (MmBlock.whole base).taken size := taken_block low
    refine ⟨⟨sound, ends⟩, coalesced_update settled.coalesced ?_,
      settled.owned_update (grows (congrArg MmContext.heaps ctx))
        (fun _ _ _ _ alloc isLive _ => List.mem_cons_of_mem _ isLive) ?_⟩
    · simp [Antonix.Coalesced, MmBlock.taken]
    · intro other member occupied
      simp only [List.mem_cons, List.not_mem_nil, or_false] at member
      obtain rfl | rfl := member
      · exact ⟨_, List.mem_cons_self, mine⟩
      · simp [MmBlock.rest] at occupied
  | @wasted base created _ slot creation ctx _ =>
    refine ⟨⟨sound, ends⟩, coalesced_update settled.coalesced (.singleton _),
      settled.owned_update (grows (congrArg MmContext.heaps ctx))
        (fun _ _ _ _ alloc isLive _ => isLive) ?_⟩
    simp [MmBlock.whole]

theorem ready {ready : MmState} (settled : state.Settled live layout)
    (initialized : mmReady kernel state = some ready) : ready.Settled live layout := by
  have heaps := (mmReady_same settled.uninitialized initialized).2.1
  exact ⟨⟨settled.toSound.ready initialized, heaps ▸ settled.ends⟩, settled.coalesced,
    heaps ▸ settled.owned⟩

theorem malloc (settled : state.Settled live layout) (placed : kernel.WellPlaced state)
    (request : size + mmControlSize < 2 ^ 32)
    (returned : malloc kernel state size = .ok (result, state')) :
    ∃ layout', state'.Settled (granted result size live) layout' := by
  obtain ⟨_, _, returned', answered⟩ := settled.toSound.malloc_answered placed.fresh size
  obtain ⟨rfl, rfl⟩ := eq_of_returned (returned'.symm.trans returned)
  cases answered with
  | uninitialized _ => exact ⟨layout, settled⟩
  | empty initialized _ => exact ⟨layout, settled.ready initialized⟩
  | @served ready _ _ layout' initialized positive answer =>
    obtain ⟨isReady, heaps, -⟩ := mmReady_same settled.uninitialized initialized
    have placed' : kernel.WellPlaced ready := by
      rw [MmKernel.WellPlaced, heaps]
      exact placed
    exact ⟨layout', (settled.ready initialized).served placed' isReady positive request answer⟩

/-- The block in front of a live one is the last of those in front of it in the layout. -/
theorem freeBefore_iff (settled : state.Settled live layout) {id : Nat} {d : MmHeapDescriptor}
    (heap : state.ctx.heaps[id]? = some d) {front back : List MmBlock}
    (blocks : layout id = front ++ alloc.block :: back) :
    state.FreeBefore alloc ↔ ∃ block ∈ front.getLast?, block.free = true := by
  have represents := settled.represents id d heap
  have member : alloc.block ∈ layout id := by rw [blocks]; simp
  constructor
  · rintro ⟨id', d', front', block, back', heap', represents', free⟩
    have same := represents'.unique (settled.represents id' d' heap')
    obtain rfl : id = id' := settled.heap_unique heap member heap' (by rw [← same]; simp)
    have split : layout id = (front' ++ [block]) ++ alloc.block :: back' := by simp [← same]
    rw [represents.front_unique blocks split]
    exact ⟨block, List.getLast?_concat, free⟩
  · rintro ⟨block, last, free⟩
    obtain ⟨front', rfl⟩ := List.getLast?_eq_some_iff.mp last
    refine ⟨id, d, front', block, back, heap, ?_, free⟩
    rwa [blocks, List.append_assoc, List.singleton_append] at represents

/-- Freeing a live block keeps neighbours from being both free if and only if the block in front
of it is not free, and then keeps the state settled. -/
theorem free (settled : state.Settled live layout) (isLive : alloc ∈ live)
    (freed : Antonix.free state alloc.ptr = .ok state') :
    (state'.Coalesced ↔ ¬state.FreeBefore alloc) ∧
      (¬state.FreeBefore alloc → ∃ layout', state'.Settled (live.erase alloc) layout') := by
  obtain ⟨state'', freed', ctx, -, outcome⟩ := settled.toSound.free_merges isLive
  obtain rfl := Except.ok.inj (freed'.symm.trans freed)
  obtain ⟨unmergeable, -⟩ | ⟨-, layout', id, front, run, back, size, merges, sound, inside⟩ :=
    outcome
  · exact absurd unmergeable settled.toWellFormed.mergeable
  · have heap := List.getElem?_eq_getElem inside
    have before := settled.freeBefore_iff heap merges.before
    have coalesced := settled.coalesced id
    rw [merges.before] at coalesced
    have merged : Antonix.Coalesced (layout' id) ↔ ¬state.FreeBefore alloc := by
      rw [merges.after, Function.update_self, coalesced.merged_iff merges.stopped, before]
      simp
    refine ⟨?_, fun occupied => ⟨layout', ⟨sound, ctx ▸ settled.ends⟩, ?_, ?_⟩⟩
    · rw [sound.coalesced_iff, ← merged]
      refine ⟨fun coalesced => coalesced id _ (by rw [ctx]; exact heap), ?_⟩
      intro here id' d' heap'
      rw [merges.after, Function.update_self] at here
      rw [merges.after]
      exact coalesced_update settled.coalesced here id'
    · have here := merged.mpr occupied
      rw [merges.after, Function.update_self] at here
      rw [merges.after]
      exact coalesced_update settled.coalesced here
    · rw [merges.after]
      have member : alloc.block ∈ layout id := by rw [merges.before]; simp
      have once := (settled.represents id _ heap).once merges.before
      refine settled.owned_update (by rw [ctx]; exact fun _ _ _ same => same) ?_ ?_
      · intro id' d' elsewhere heap' other otherLive inHeap
        refine (List.mem_erase_of_ne ?_).mpr otherLive
        rintro rfl
        exact elsewhere (settled.heap_unique heap' inHeap heap member)
      · intro block inHeap occupied
        have older : block ∈ front ∨ block ∈ back := by
          simp only [List.mem_append, List.mem_singleton] at inHeap
          obtain inFront | rfl | inBack := inHeap
          · exact .inl inFront
          · simp at occupied
          · exact .inr inBack
        have inOld : block ∈ layout id := by
          rw [merges.before, List.mem_append, List.mem_cons, List.mem_append]
          exact older.imp_right fun inBack => .inr (.inr inBack)
        have differ : block ≠ alloc.block := by
          rintro rfl
          exact older.elim once.1 fun inBack => once.2 (List.mem_append_right _ inBack)
        obtain ⟨other, otherLive, rfl⟩ := settled.owned id _ heap block inOld occupied
        exact ⟨other, (List.mem_erase_of_ne fun same => differ (by rw [same])).mpr otherLive, rfl⟩

end MmState.Settled

theorem MmStep.settled {history history' : MmHistory} {call : MmCall}
    {layout : Nat → List MmBlock} (step : MmStep history call history')
    (merges : history.mergesAll call) (settled : history.state.Settled history.live layout) :
    ∃ layout', history'.state.Settled history'.live layout' := by
  cases step with
  | malloc returned => exact settled.malloc merges.2 merges.1 returned
  | calloc _ => exact merges.elim
  | realloc _ => exact merges.elim
  | free returned => exact (settled.free merges.1 returned).2 merges.2
  | store =>
    exact ⟨layout, ⟨MmHistory.store_sound settled.toSound merges, settled.ends⟩,
      settled.coalesced, settled.owned⟩

theorem MmHistory.settled_of_run {memory : ByteMem} {history : MmHistory} {calls : List MmCall}
    (run : Run (Guarded MmHistory.mergesAll MmStep) (.start memory) calls history) :
    ∃ layout, history.state.Settled history.live layout := by
  refine run.invariant (fun history => ∃ layout, history.state.Settled history.live layout) ?_ ?_
  · rintro history call history' ⟨layout, settled⟩ ⟨merges, step⟩
    exact step.settled merges settled
  · exact ⟨fun _ => [], .initial memory⟩

theorem MmHistory.allowed_of_merges {history history' : MmHistory} {call : MmCall}
    (merges : Guarded MmHistory.mergesAll MmStep history call history') :
    Guarded MmHistory.allowed MmStep history call history' := by
  refine ⟨?_, merges.2⟩
  cases call with
  | malloc kernel size => exact ⟨merges.1.1, merges.1.2.fresh⟩
  | calloc _ _ _ => exact merges.1.elim
  | realloc _ _ _ => exact merges.1.elim
  | free alloc => exact merges.1.1
  | store addr value => exact merges.1

/-- In every history in which no block is freed behind a free one: no two neighbours are both
free, and when nothing is live every heap is one free block.  Freeing a block after it keeps
neighbours from being both free if and only if the block in front of it is not free. -/
theorem libc_heaps_coalesce {memory : ByteMem} {history : MmHistory} {calls : List MmCall}
    (run : Run (Guarded MmHistory.mergesAll MmStep) (.start memory) calls history) :
    history.state.Coalesced ∧ (history.live = [] → history.state.Whole) ∧
      ∀ alloc ∈ history.live, ∃ state', free history.state alloc.ptr = .ok state' ∧
        (state'.Coalesced ↔ ¬history.state.FreeBefore alloc) := by
  obtain ⟨layout, settled⟩ := MmHistory.settled_of_run run
  refine ⟨settled.toSound.coalesced_iff.mpr fun id _ _ => settled.coalesced id, ?_, ?_⟩
  · intro nothing id d heap
    have represents := settled.represents id d heap
    have allFree : ∀ block ∈ layout id, block.free = true := by
      intro block member
      by_contra occupied
      obtain ⟨alloc, isLive, -⟩ := settled.owned id d heap block member (by simpa using occupied)
      rw [nothing] at isLive
      contradiction
    rwa [represents.whole (settled.coalesced id) allFree] at represents
  · intro alloc isLive
    obtain ⟨state', freed, -⟩ := settled.toSound.free isLive
    exact ⟨state', freed, (settled.free isLive freed).1⟩

theorem oneHeapKernel_wellPlaced (memory : ByteMem) :
    oneHeapKernel.WellPlaced ⟨mmContext, memory⟩ := by
  intro pid usage base answer
  obtain rfl : 0xC8000000 = base := by simpa [oneHeapKernel] using answer
  exact ⟨by decide, by simp [mmContext]⟩

theorem noHeapKernel_wellPlaced (state : MmState) : noHeapKernel.WellPlaced state := by
  intro pid usage base answer
  simp [noHeapKernel] at answer

/-- Blocks of 100 and 200 bytes in the first heap. -/
theorem exists_two_blocks : ∃ first second,
    malloc oneHeapKernel ⟨mmContext, fun _ => 0#8⟩ 100 = .ok (some 0xC8000014, first) ∧
    malloc noHeapKernel first 200 = .ok (some 0xC800008C, second) ∧
    second.ctx.heaps = [⟨0xC8000000, defaultHeapSize⟩] ∧
    MmHeapDescriptor.Represents ⟨0xC8000000, defaultHeapSize⟩ 0 second.memory
      [⟨0xC8000000, 100, false⟩, ⟨0xC8000078, 200, false⟩, ⟨0xC8000154, 8388248, true⟩] ∧
    Run (Guarded MmHistory.mergesAll MmStep) (.start fun _ => 0#8)
      [.malloc oneHeapKernel 100, .malloc noHeapKernel 200]
      ⟨second, [⟨0xC800008C, 200⟩, ⟨0xC8000014, 100⟩]⟩ := by
  obtain ⟨first, -, returned, -, -⟩ := exists_first_block
  have known : (malloc oneHeapKernel ⟨mmContext, fun _ => 0#8⟩ 100 >>= fun first =>
      malloc noHeapKernel first.2 200).toOption.map (fun second =>
        (second.1, second.2.ctx.heaps, MmControlBlock.load second.2.memory 0xC8000000,
          MmControlBlock.load second.2.memory 0xC8000078,
          MmControlBlock.load second.2.memory 0xC8000154)) =
      some (some 0xC800008C, [⟨0xC8000000, defaultHeapSize⟩], ⟨0, mmMagic, 100, 0, false⟩,
        ⟨0, mmMagic, 200, 0, false⟩, ⟨0, mmMagic, 8388248, 0, true⟩) := by decide +kernel
  rw [returned] at known
  obtain ⟨⟨ptr, second⟩, returned', same⟩ := exists_of_known known
  simp only [Prod.mk.injEq] at same
  obtain ⟨rfl, heaps, header, header', header''⟩ := same
  refine ⟨first, second, returned, returned', heaps, ⟨rfl, by decide, ?_, ?_⟩, ?_⟩
  · exact .cons rfl (.cons rfl (.cons rfl (MmTiling.nil_iff.mpr rfl)))
  · exact List.forall_mem_cons.mpr ⟨header, List.forall_mem_cons.mpr ⟨header',
      List.forall_mem_singleton.mpr header''⟩⟩
  · exact .cons ⟨⟨by decide, oneHeapKernel_wellPlaced _⟩,
        @MmStep.malloc (.start _) _ _ _ _ returned⟩
      (.single ⟨⟨by decide, noHeapKernel_wellPlaced _⟩,
        @MmStep.malloc ⟨first, _⟩ _ _ _ _ returned'⟩)

/-- Blocks of 100 and 200 bytes, of which the later is freed first. -/
theorem libc_heaps_coalesce_backwards : ∃ history,
    Run (Guarded MmHistory.mergesAll MmStep) (.start fun _ => 0#8)
      [.malloc oneHeapKernel 100, .malloc noHeapKernel 200, .free ⟨0xC800008C, 200⟩,
        .free ⟨0xC8000014, 100⟩] history ∧
    history.state.ctx.heaps = [⟨0xC8000000, defaultHeapSize⟩] ∧ history.state.Whole := by
  obtain ⟨first, second, returned, returned', heaps, represents, mallocs⟩ := exists_two_blocks
  have known : (malloc oneHeapKernel ⟨mmContext, fun _ => 0#8⟩ 100 >>= fun first =>
      malloc noHeapKernel first.2 200 >>= fun second =>
        free second.2 0xC800008C).toOption.map (fun third =>
          (third.ctx.heaps, MmControlBlock.load third.memory 0xC8000000,
            MmControlBlock.load third.memory 0xC8000078)) =
      some ([⟨0xC8000000, defaultHeapSize⟩], ⟨0, mmMagic, 100, 0, false⟩,
        ⟨0, mmMagic, 8388468, 0, true⟩) := by decide +kernel
  rw [returned] at known
  simp only [bind, Except.bind, returned'] at known
  obtain ⟨third, freed, same⟩ := exists_of_known known
  simp only [Prod.mk.injEq] at same
  obtain ⟨heaps', header, header'⟩ := same
  have represents' : MmHeapDescriptor.Represents ⟨0xC8000000, defaultHeapSize⟩ 0 third.memory
      [⟨0xC8000000, 100, false⟩, ⟨0xC8000078, 8388468, true⟩] :=
    ⟨rfl, by decide, .cons rfl (.cons rfl (MmTiling.nil_iff.mpr rfl)),
      List.forall_mem_cons.mpr ⟨header, List.forall_mem_singleton.mpr header'⟩⟩
  -- the block in front of the later one is not free
  obtain ⟨layout, settled⟩ := MmHistory.settled_of_run mallocs
  have heap : second.ctx.heaps[0]? = some ⟨0xC8000000, defaultHeapSize⟩ := by simp [heaps]
  have blocks : layout 0 = [⟨0xC8000000, 100, false⟩] ++
      MmAllocation.block ⟨0xC800008C, 200⟩ :: [⟨0xC8000154, 8388248, true⟩] :=
    (settled.represents 0 _ heap).unique represents
  have occupied : ¬second.FreeBefore ⟨0xC800008C, 200⟩ := by
    rw [settled.freeBefore_iff heap blocks]
    simp
  have later : Run (Guarded MmHistory.mergesAll MmStep) (.start fun _ => 0#8)
      [.malloc oneHeapKernel 100, .malloc noHeapKernel 200, .free ⟨0xC800008C, 200⟩]
      ⟨third, [⟨0xC8000014, 100⟩]⟩ := by
    have step : MmStep ⟨second, [⟨0xC800008C, 200⟩, ⟨0xC8000014, 100⟩]⟩
      (.free ⟨0xC800008C, 200⟩) ⟨third, [⟨0xC8000014, 100⟩]⟩ := .free freed
    exact mallocs.append (.single ⟨⟨by simp, occupied⟩, step⟩)
  -- and there is no block in front of the earlier one
  obtain ⟨layout', settled'⟩ := MmHistory.settled_of_run later
  have heap' : third.ctx.heaps[0]? = some ⟨0xC8000000, defaultHeapSize⟩ := by simp [heaps']
  have blocks' : layout' 0 =
      [] ++ MmAllocation.block ⟨0xC8000014, 100⟩ :: [⟨0xC8000078, 8388468, true⟩] :=
    (settled'.represents 0 _ heap').unique represents'
  have nothing : ¬third.FreeBefore ⟨0xC8000014, 100⟩ := by
    rw [settled'.freeBefore_iff heap' blocks']
    simp
  have isLive : (⟨0xC8000014, 100⟩ : MmAllocation) ∈ [(⟨0xC8000014, 100⟩ : MmAllocation)] :=
    List.mem_cons_self
  obtain ⟨last, freed', ctx, -⟩ := settled'.toSound.free isLive
  have step : MmStep ⟨third, [⟨0xC8000014, 100⟩]⟩ (.free ⟨0xC8000014, 100⟩) ⟨last, []⟩ :=
    .free freed'
  have allowed : MmHistory.mergesAll ⟨third, [⟨0xC8000014, 100⟩]⟩ (.free ⟨0xC8000014, 100⟩) :=
    ⟨isLive, nothing⟩
  have run := later.append (.single ⟨allowed, step⟩)
  exact ⟨_, run, by rw [ctx, heaps'], (libc_heaps_coalesce run).2.1 rfl⟩

/-- Blocks of 100 and 200 bytes, of which the earlier is freed first: two free blocks are left. -/
theorem libc_heaps_stay_fragmented : ∃ history,
    Run (Guarded MmHistory.allowed MmStep) (.start fun _ => 0#8)
      [.malloc oneHeapKernel 100, .malloc noHeapKernel 200, .free ⟨0xC8000014, 100⟩,
        .free ⟨0xC800008C, 200⟩] history ∧
    history.live = [] ∧ ¬history.state.Coalesced ∧ ¬history.state.Whole := by
  obtain ⟨first, second, returned, returned', heaps, -, mallocs⟩ := exists_two_blocks
  have known : (malloc oneHeapKernel ⟨mmContext, fun _ => 0#8⟩ 100 >>= fun first =>
      malloc noHeapKernel first.2 200 >>= fun second =>
        free second.2 0xC8000014).toOption.map (fun third => ()) = some () := by decide +kernel
  have known' : (malloc oneHeapKernel ⟨mmContext, fun _ => 0#8⟩ 100 >>= fun first =>
      malloc noHeapKernel first.2 200 >>= fun second =>
        free second.2 0xC8000014 >>= fun third => free third 0xC800008C).toOption.map (fun last =>
          (last.ctx.heaps, MmControlBlock.load last.memory 0xC8000000,
            MmControlBlock.load last.memory 0xC8000078)) =
      some ([⟨0xC8000000, defaultHeapSize⟩], ⟨0, mmMagic, 100, 0, true⟩,
        ⟨0, mmMagic, 8388468, 0, true⟩) := by decide +kernel
  rw [returned] at known known'
  simp only [bind, Except.bind, returned'] at known known'
  obtain ⟨third, freed, -⟩ := exists_of_known known
  simp only [freed] at known'
  obtain ⟨last, freed', same⟩ := exists_of_known known'
  simp only [Prod.mk.injEq] at same
  obtain ⟨heaps', header, header'⟩ := same
  have represents : MmHeapDescriptor.Represents ⟨0xC8000000, defaultHeapSize⟩ 0 last.memory
      [⟨0xC8000000, 100, true⟩, ⟨0xC8000078, 8388468, true⟩] :=
    ⟨rfl, by decide, .cons rfl (.cons rfl (MmTiling.nil_iff.mpr rfl)),
      List.forall_mem_cons.mpr ⟨header, List.forall_mem_singleton.mpr header'⟩⟩
  have heap : last.ctx.heaps[0]? = some ⟨0xC8000000, defaultHeapSize⟩ := by simp [heaps']
  have step : MmStep ⟨second, [⟨0xC800008C, 200⟩, ⟨0xC8000014, 100⟩]⟩ (.free ⟨0xC8000014, 100⟩)
      ⟨third, [⟨0xC800008C, 200⟩]⟩ := .free freed
  have step' : MmStep ⟨third, [⟨0xC800008C, 200⟩]⟩ (.free ⟨0xC800008C, 200⟩) ⟨last, []⟩ :=
    .free freed'
  have frees : Run (Guarded MmHistory.allowed MmStep)
      ⟨second, [⟨0xC800008C, 200⟩, ⟨0xC8000014, 100⟩]⟩
      [.free ⟨0xC8000014, 100⟩, .free ⟨0xC800008C, 200⟩] ⟨last, []⟩ :=
    .cons ⟨by simp [MmHistory.allowed], step⟩ (.single ⟨by simp [MmHistory.allowed], step'⟩)
  refine ⟨_, (mallocs.mono fun _ _ _ => MmHistory.allowed_of_merges).append frees, rfl, ?_, ?_⟩
  · intro coalesced
    obtain ⟨blocks, represents', apart⟩ := coalesced 0 _ heap
    rw [← represents.unique represents'] at apart
    simp [Coalesced] at apart
  · intro whole
    have same := represents.unique (whole 0 _ heap)
    simp at same

end Antonix
