import Antonix.Lib.Transition
import Antonix.StdlibMemory.Spec

/-! # Histories of the library's heaps

A history is any sequence of calls of the four entry points, in which the kernel
answers each call as it likes, together with stores by the program.  The guard
says what callers have to keep to: requests do not overflow, only live pointers
are freed or reallocated, the kernel's heaps are apart, and stores go to live
payloads or outside the heaps. -/

namespace Antonix

open Set Transition

structure MmHistory where
  state : MmState
  live : List MmAllocation

/-- Nothing has been called yet. -/
def MmHistory.start (memory : ByteMem) : MmHistory := ⟨⟨mmContext, memory⟩, []⟩

inductive MmCall where
  | malloc (kernel : MmKernel) (size : Nat)
  | calloc (kernel : MmKernel) (num size : Nat)
  | realloc (kernel : MmKernel) (old : Option MmAllocation) (size : Nat)
  | free (alloc : MmAllocation)
  | store (addr value : Nat)

inductive MmStep : MmHistory → MmCall → MmHistory → Prop
  | malloc {history kernel size result state'} :
      malloc kernel history.state size = .ok (result, state') →
      MmStep history (.malloc kernel size) ⟨state', granted result size history.live⟩
  | calloc {history kernel num size result state'} :
      calloc kernel history.state num size = .ok (result, state') →
      MmStep history (.calloc kernel num size) ⟨state', granted result (num * size) history.live⟩
  | realloc {history kernel old size result state'} :
      realloc kernel history.state (old.map MmAllocation.ptr) size = .ok (result, state') →
      MmStep history (.realloc kernel old size)
        ⟨state', granted result size (MmState.Sound.dropped old history.live)⟩
  | free {history alloc state'} :
      free history.state alloc.ptr = .ok state' →
      MmStep history (.free alloc) ⟨state', history.live.erase alloc⟩
  | store {history addr value} :
      MmStep history (.store addr value)
        ⟨{ history.state with memory := history.state.memory.store8 addr value }, history.live⟩

/-- What the callers and the kernel keep to. -/
def MmHistory.allowed (history : MmHistory) : MmCall → Prop
  | .malloc kernel size => size + mmControlSize < 2 ^ 32 ∧ kernel.Fresh history.state
  | .calloc kernel num size =>
    num * size < 2 ^ 32 ∧ num * size + mmControlSize < 2 ^ 32 ∧ kernel.Fresh history.state
  | .realloc kernel old size =>
    (∀ alloc, old = some alloc → alloc ∈ history.live) ∧ size + mmControlSize < 2 ^ 32 ∧
      kernel.Fresh history.state
  | .free alloc => alloc ∈ history.live
  | .store addr _ =>
    (∃ alloc ∈ history.live, addr ∈ alloc.payload) ∨
      ∀ d ∈ history.state.ctx.heaps, addr ∉ d.range

section

variable {history history' : MmHistory} {layout : Nat → List MmBlock} {call : MmCall}

/-- Neither a payload nor memory outside the heaps contains a header. -/
theorem MmHistory.store_sound {addr value : Nat}
    (sound : history.state.Sound history.live layout)
    (allowed : history.allowed (.store addr value)) :
    MmState.Sound { history.state with memory := history.state.memory.store8 addr value }
      history.live layout := by
  refine sound.write (ByteMem.store8_eqOn _ _ _) ?_
  intro id d heap block member
  rw [disjoint_singleton_left]
  cases allowed with
  | inl owned =>
    obtain ⟨alloc, isLive, inside⟩ := owned
    exact disjoint_left.mp (sound.payload_disjoint_header isLive heap member) inside
  | inr foreign =>
    intro inHeader
    exact foreign d (List.mem_of_getElem? heap)
      (sound.extent_subset_range heap member (MmBlock.header_subset inHeader))

/-- Every allowed call returns and leaves a sound state. -/
theorem MmHistory.progress (sound : history.state.Sound history.live layout)
    (allowed : history.allowed call) :
    ∃ history', MmStep history call history' ∧
      ∃ layout', history'.state.Sound history'.live layout' := by
  cases call with
  | malloc kernel size =>
    obtain ⟨result, state', returned, sound', -⟩ := sound.malloc allowed.2 allowed.1
    exact ⟨_, .malloc returned, sound'⟩
  | calloc kernel num size =>
    obtain ⟨noOverflow, request, fresh⟩ := allowed
    obtain ⟨result, state', returned, sound'⟩ := sound.calloc fresh noOverflow request
    exact ⟨_, .calloc returned, sound'⟩
  | realloc kernel old size =>
    obtain ⟨isLive, request, fresh⟩ := allowed
    obtain ⟨result, state', returned, sound'⟩ := sound.realloc fresh isLive request
    exact ⟨_, .realloc returned, sound'⟩
  | free alloc =>
    obtain ⟨state', returned, -, sound', -⟩ := sound.free allowed
    exact ⟨_, .free returned, sound'⟩
  | store addr value =>
    exact ⟨_, .store, layout, MmHistory.store_sound sound allowed⟩

/-- Calls are deterministic: the history after a call is a function of the one before. -/
theorem MmStep.unique {history'' : MmHistory} (step : MmStep history call history')
    (step' : MmStep history call history'') : history' = history'' := by
  cases step with
  | malloc returned => cases step' with | malloc returned' =>
    rw [returned, Except.ok.injEq, Prod.mk.injEq] at returned'
    rw [returned'.1, returned'.2]
  | calloc returned => cases step' with | calloc returned' =>
    rw [returned, Except.ok.injEq, Prod.mk.injEq] at returned'
    rw [returned'.1, returned'.2]
  | realloc returned => cases step' with | realloc returned' =>
    rw [returned, Except.ok.injEq, Prod.mk.injEq] at returned'
    rw [returned'.1, returned'.2]
  | free returned => cases step' with | free returned' =>
    rw [returned, Except.ok.injEq] at returned'
    rw [returned']
  | store => cases step' with | store => rfl

theorem MmStep.sound (step : MmStep history call history') (allowed : history.allowed call)
    (sound : history.state.Sound history.live layout) :
    ∃ layout', history'.state.Sound history'.live layout' := by
  obtain ⟨reached, returned, sound'⟩ := MmHistory.progress sound allowed
  rwa [step.unique returned]

theorem MmHistory.sound_of_run {memory : ByteMem} {history : MmHistory} {calls : List MmCall}
    (run : Run (Guarded MmHistory.allowed MmStep) (.start memory) calls history) :
    ∃ layout, history.state.Sound history.live layout := by
  refine run.invariant (fun history => ∃ layout, history.state.Sound history.live layout) ?_ ?_
  · rintro history call history' ⟨layout, sound⟩ ⟨allowed, step⟩
    exact step.sound allowed sound
  · exact ⟨fun _ => [], .initial memory⟩

end

/-- After every allowed history: the blocks of every heap tile it, each under its own header,
and the walk over the heap takes a block that suits or ends exactly at the heap's end; the
live allocations are blocks that are not free, with payloads apart and inside their heap;
freeing one returns and changes no byte of another; and every further allowed call returns. -/
theorem libc_heaps_tiled {memory : ByteMem} {history : MmHistory} {calls : List MmCall}
    (run : Run (Guarded MmHistory.allowed MmStep) (.start memory) calls history) :
    (∃ layout : Nat → List MmBlock,
      (∀ id d, history.state.ctx.heaps[id]? = some d →
        MmTiling d.memory (layout id) (d.memory + d.size)
        ∧ (∀ block ∈ layout id, MmControlBlock.load history.state.memory block.addr =
            ⟨id, mmMagic, block.size, 0, block.free⟩)
        ∧ ∀ size, size + mmControlSize < 2 ^ 32 →
            mmScan history.state.memory d size = .ok .heapEnd
            ∨ ∃ block ∈ layout id, block.Suits size ∧
                mmScan history.state.memory d size = .ok (.found block.addr))
      ∧ ∀ alloc ∈ history.live, ∃ id d, history.state.ctx.heaps[id]? = some d ∧
          ⟨alloc.ptr - mmControlSize, alloc.size, false⟩ ∈ layout id ∧
          alloc.payload ⊆ d.range)
    ∧ history.live.Pairwise (fun alloc other => Disjoint alloc.payload other.payload)
    ∧ (∀ alloc ∈ history.live, ∃ state', free history.state alloc.ptr = .ok state' ∧
        ∀ other ∈ history.live.erase alloc, EqOn state'.memory history.state.memory
          (Ico (other.ptr - mmControlSize) (other.ptr + other.size)))
    ∧ ∀ call, history.allowed call → ∃ history', MmStep history call history' := by
  obtain ⟨layout, sound⟩ := MmHistory.sound_of_run run
  refine ⟨⟨layout, ?_, ?_⟩, ?_, ?_, ?_⟩
  · intro id d heap
    have represents := sound.represents id d heap
    refine ⟨represents.tiled, represents.headed, fun size request => ?_⟩
    cases mmScan_spec represents request with
    | inl ended => exact .inl ended.1
    | inr found =>
      obtain ⟨front, block, back, blocks, suits, -, scan⟩ := found
      exact .inr ⟨block, by rw [blocks]; simp, suits, scan⟩
  · intro alloc isLive
    obtain ⟨id, d, heap, placed⟩ := sound.placed alloc isLive
    refine ⟨id, d, heap, placed.member, ?_⟩
    rw [← placed.payload_eq]
    exact MmBlock.payload_subset.trans (sound.extent_subset_range heap placed.member)
  · refine sound.distinct.imp_of_mem fun {alloc other} isLive otherLive differ => ?_
    obtain ⟨_, _, _, placed⟩ := sound.placed alloc isLive
    obtain ⟨_, _, _, otherPlaced⟩ := sound.placed other otherLive
    rw [← placed.payload_eq, ← otherPlaced.payload_eq]
    exact (sound.live_disjoint isLive otherLive differ).mono MmBlock.payload_subset
      MmBlock.payload_subset
  · -- only the header of the freed block is written
    intro alloc isLive
    obtain ⟨state', freed, -, -, same⟩ := sound.free isLive
    refine ⟨state', freed, fun other left => same.mono ?_⟩
    have otherLive := List.mem_of_mem_erase left
    obtain ⟨_, _, _, placed⟩ := sound.placed other otherLive
    have extent : Ico (other.ptr - mmControlSize) (other.ptr + other.size) =
        other.block.extent := by
      have := placed.above
      rw [MmBlock.extent, MmBlock.len, MmAllocation.block]
      congr 1
      simp only
      omega
    rw [extent]
    exact subset_compl_iff_disjoint_left.mpr ((sound.live_disjoint isLive otherLive
      (sound.ptr_ne_of_erase isLive left)).mono_left MmBlock.header_subset)
  · intro call allowed
    obtain ⟨history', step, -⟩ := MmHistory.progress sound allowed
    exact ⟨history', step⟩

/-- Two requests that the first heap serves, and the first of them freed. -/
theorem libc_heaps_tiled_malloc_free :
    ∃ history : MmHistory, history.live = [⟨0xC040008C, 200⟩] ∧
      history.live.Pairwise (fun alloc other => Disjoint alloc.payload other.payload) := by
  let creates : MmKernel := ⟨.ok 0, fun _ _ _ => .ok 0xC0400000⟩
  let refuses : MmKernel := ⟨.ok 0, fun _ _ _ => .error .eFail⟩
  obtain ⟨state, first⟩ := exists_of_value (show (malloc creates ⟨mmContext, fun _ => 0#8⟩
    100).toOption.map Prod.fst = some (some 0xC0400014) by decide +kernel)
  have both : (malloc creates ⟨mmContext, fun _ => 0#8⟩ 100 >>= fun result =>
      malloc refuses result.2 200).toOption.map Prod.fst = some (some 0xC040008C) := by
    decide +kernel
  rw [first] at both
  obtain ⟨state', second⟩ :
      ∃ state', malloc refuses state 200 = .ok (some 0xC040008C, state') := exists_of_value both
  have freshFirst : creates.Fresh ⟨mmContext, fun _ => 0#8⟩ := by
    intro pid usage base answer
    obtain rfl : 0xC0400000 = base := by simpa [creates] using answer
    exact ⟨by decide, by simp [mmContext]⟩
  have freshSecond : refuses.Fresh state := by
    intro pid usage base answer
    simp [refuses] at answer
  have mallocs : Run (Guarded MmHistory.allowed MmStep) (.start fun _ => 0#8)
      [.malloc creates 100, .malloc refuses 200]
      ⟨state', [⟨0xC040008C, 200⟩, ⟨0xC0400014, 100⟩]⟩ :=
    .cons ⟨⟨by decide, freshFirst⟩, @MmStep.malloc (.start _) _ _ _ _ first⟩
      (.single ⟨⟨by decide, freshSecond⟩, @MmStep.malloc ⟨state, _⟩ _ _ _ _ second⟩)
  obtain ⟨layout, sound⟩ := MmHistory.sound_of_run mallocs
  have isLive : (⟨0xC0400014, 100⟩ : MmAllocation) ∈
      [⟨0xC040008C, 200⟩, (⟨0xC0400014, 100⟩ : MmAllocation)] := by simp
  obtain ⟨state'', freed, -⟩ := sound.free isLive
  have run : Run (Guarded MmHistory.allowed MmStep) (.start fun _ => 0#8)
      [.malloc creates 100, .malloc refuses 200, .free ⟨0xC0400014, 100⟩]
      ⟨state'', [⟨0xC040008C, 200⟩]⟩ := mallocs.append (.single ⟨isLive, .free freed⟩)
  exact ⟨_, rfl, (libc_heaps_tiled run).2.1⟩

end Antonix
