import Antonix.Lib.ByteMem
import Antonix.Types

/-! # The heap of the C library (`libc/stdlib_memory.c`)

Up to 15 heaps of 8 MB, each a sequence of blocks that carry an
`MM_CONTROL_BLOCK` in front of their payload.  An allocation walks the blocks of
every heap in turn, splits the first free block that is large enough, and
creates a new heap when there is none; freeing a block merges it with the free
blocks after it.

The two walks are loops until an address is hit exactly, so they are fuelled and
run out as `Halt.stuck`.  The mutexes are recursive and are left out. -/

namespace Antonix

/-- `MM_MAGIC` -/
abbrev mmMagic : Nat := 0x4E584D4D

/-- `MAX_HEAPS` -/
abbrev maxHeaps : Nat := 16

/-- `DEFAULT_HEAP_SIZE` -/
abbrev defaultHeapSize : Nat := 8 * 1024 * 1024

/-- `sizeof(MM_CONTROL_BLOCK)` -/
abbrev mmControlSize : Nat := 20

/-- `MM_CONTROL_BLOCK`, in the order of its fields in memory. -/
structure MmControlBlock where
  heapId : Nat
  magic : Nat
  size : Nat
  padding : Nat
  free : Bool
  deriving DecidableEq, Repr

def MmControlBlock.load (memory : ByteMem) (mcb : Nat) : MmControlBlock where
  heapId := memory.load32 mcb
  magic := memory.load32 (mcb + 4)
  size := memory.load32 (mcb + 8)
  padding := memory.load32 (mcb + 12)
  free := memory (mcb + 16) != 0#8

/-- `MM_HEAP_DESCRIPTOR` -/
structure MmHeapDescriptor where
  memory : Nat
  size : Nat
  deriving DecidableEq, Repr

/-- The address after the last block. -/
def MmHeapDescriptor.endAddress (d : MmHeapDescriptor) : Nat := u32 (d.memory + d.size)

/-- `MM_CONTEXT`; `heap_count` is the length of `heaps`. -/
structure MmContext where
  initialized : Bool
  pid : Nat
  kernelMode : Bool
  heaps : List MmHeapDescriptor

/-- The routines of the kernel that the library calls, as they answer during one call. -/
structure MmKernel where
  schedGetCurrentPid : Except HResult Nat
  vmmCreateHeap : (pid size usage : Nat) → Except HResult Nat

/-- `mm_contex` and the memory of the process. -/
structure MmState where
  ctx : MmContext
  memory : ByteMem

/-- `mm_contex` before the first call. -/
def mmContext : MmContext where
  initialized := false
  pid := 0
  kernelMode := false
  heaps := []

/-! ## Heaps -/

/-- `mm_create_heap` -/
def mmCreateHeap (kernel : MmKernel) (state : MmState) : Bool × MmState :=
  if maxHeaps ≤ state.ctx.heaps.length then (false, state)
  else
    let usage := usageData ||| if state.ctx.kernelMode then usageKernel else usageUser
    match kernel.vmmCreateHeap state.ctx.pid defaultHeapSize usage with
    | .error _ => (false, state)
    | .ok base =>
      let d : MmHeapDescriptor := ⟨base, defaultHeapSize⟩
      let memory := state.memory.store32 (base + 4) mmMagic
      let memory := memory.store32 base state.ctx.heaps.length
      let memory := memory.store8 (base + 16) 1
      let memory := memory.store32 (base + 8) (d.size - mmControlSize)
      let memory := memory.store32 (base + 12) 0
      (true, ⟨{ state.ctx with heaps := state.ctx.heaps ++ [d] }, memory⟩)

/-- How the walk of `mm_allocate_block_from_heap` ends. -/
inductive MmScan where
  | heapEnd
  | corrupted
  | found (mcb : Nat)
  deriving DecidableEq, Repr

/-- The loop of `mm_allocate_block_from_heap`. -/
def mmScanLoop (memory : ByteMem) (endAddress size : Nat) : Nat → Nat → Except Halt MmScan
  | 0, _ => .error .stuck
  | fuel + 1, addr =>
    if addr = endAddress then .ok .heapEnd
    else
      let mcb := MmControlBlock.load memory addr
      if mcb.magic ≠ mmMagic then .ok .corrupted
      else if mcb.free ∧ u32 (size + mmControlSize) ≤ mcb.size then .ok (.found addr)
      else mmScanLoop memory endAddress size fuel (u32 (addr + (mcb.size + mmControlSize)))

/-- A walk takes at most one step for every byte of the heap. -/
def mmScan (memory : ByteMem) (d : MmHeapDescriptor) (size : Nat) : Except Halt MmScan :=
  mmScanLoop memory d.endAddress size (d.size + 1) d.memory

/-- What `mm_allocate_block_from_heap` writes when it takes the block at `addr`. -/
def mmTakeBlock (memory : ByteMem) (addr size : Nat) : ByteMem :=
  if memory.load32 (addr + 8) = size then memory.store8 (addr + 16) 0
  else
    -- split: the rest becomes a free block of its own
    let mcbNext := u32 (addr + mmControlSize + size)
    let memory := memory.store32 (mcbNext + 4) mmMagic
    let memory := memory.store32 mcbNext (memory.load32 addr)
    let memory := memory.store8 (mcbNext + 16) 1
    let memory := memory.store32 (mcbNext + 8)
      (u32 (memory.load32 (addr + 8) + (2 ^ 32 - size) + (2 ^ 32 - mmControlSize)))
    let memory := memory.store32 (mcbNext + 12) 0
    let memory := memory.store8 (addr + 16) 0
    memory.store32 (addr + 8) size

/-- `mm_allocate_block_from_heap`: the value, `*ptr` (`none` is `NULL`) and the memory. -/
def mmAllocateBlockFromHeap (memory : ByteMem) (d : MmHeapDescriptor) (size : Nat) :
    Except Halt (Bool × Option Nat × ByteMem) := do
  match ← mmScan memory d size with
  | .heapEnd => .ok (true, none, memory)
  | .corrupted => .ok (false, none, memory)
  | .found addr => .ok (true, some (u32 (addr + mmControlSize)), mmTakeBlock memory addr size)

/-- The loop of `mm_free_block_from_heap`: `expand_size`, or none when a block is invalid. -/
def mmMergeLoop (memory : ByteMem) (endAddress : Nat) :
    Nat → Nat → Nat → Except Halt (Option Nat)
  | 0, _, _ => .error .stuck
  | fuel + 1, nextMcb, expandSize =>
    let next := MmControlBlock.load memory nextMcb
    if nextMcb = endAddress then .ok (some expandSize)
    else if endAddress < nextMcb ∨ (nextMcb ≤ endAddress ∧ next.magic ≠ mmMagic) then .ok none
    else if !next.free then .ok (some expandSize)
    else
      mmMergeLoop memory endAddress fuel
        (u32 (nextMcb + mmControlSize + next.size + next.padding))
        (u32 (expandSize + (next.size + mmControlSize)))

/-- `mm_free_block_from_heap` -/
def mmFreeBlockFromHeap (memory : ByteMem) (d : MmHeapDescriptor) (mcb : Nat) :
    Except Halt (Bool × ByteMem) := do
  let header := MmControlBlock.load memory mcb
  let nextMcb := u32 (mcb + mmControlSize + header.size + header.padding)
  match ← mmMergeLoop memory d.endAddress (d.size + 1) nextMcb 0 with
  | none => .ok (false, memory)
  | some expandSize =>
    let memory := memory.store32 (mcb + 8) (u32 (header.size + expandSize))
    .ok (true, memory.store8 (mcb + 16) 1)

/-- `mm_init`.  The kernel mode is always assumed. -/
def mmInit (kernel : MmKernel) (ctx : MmContext) : Bool × MmContext :=
  if ctx.initialized then (false, ctx)
  else
    match kernel.schedGetCurrentPid with
    | .error _ => (false, ctx)
    | .ok pid => (true, { initialized := true, pid, kernelMode := true, heaps := [] })

/-! ## The entry points -/

/-- The loop of `malloc` over the heaps: false when a heap is corrupted. -/
def mallocLoop (size : Nat) :
    List MmHeapDescriptor → ByteMem → Except Halt (Bool × Option Nat × ByteMem)
  | [], memory => .ok (true, none, memory)
  | d :: heaps, memory => do
    match ← mmAllocateBlockFromHeap memory d size with
    | (false, _, memory) => .ok (false, none, memory)
    | (true, some ptr, memory) => .ok (true, some ptr, memory)
    | (true, none, memory) => mallocLoop size heaps memory

/-- The part of `malloc` under the lock. -/
def mallocLocked (kernel : MmKernel) (state : MmState) (size : Nat) :
    Except Halt (Option Nat × MmState) := do
  match ← mallocLoop size state.ctx.heaps state.memory with
  | (false, _, memory) => .ok (none, { state with memory })
  | (true, some ptr, memory) => .ok (some ptr, { state with memory })
  | (true, none, memory) =>
    if maxHeaps - 1 ≤ state.ctx.heaps.length then .ok (none, { state with memory })
    else
      match mmCreateHeap kernel { state with memory } with
      | (false, state) => .ok (none, state)
      | (true, state) =>
        let d := state.ctx.heaps.getD (state.ctx.heaps.length - 1) ⟨0, 0⟩
        let (_, result, memory) ← mmAllocateBlockFromHeap state.memory d size
        .ok (result, { state with memory })

/-- `malloc` -/
def malloc (kernel : MmKernel) (state : MmState) (size : Nat) :
    Except Halt (Option Nat × MmState) :=
  let (ready, ctx) := if state.ctx.initialized then (true, state.ctx) else mmInit kernel state.ctx
  let state := { state with ctx }
  if !ready then .ok (none, state)
  else if size = 0 then .ok (none, state)
  else mallocLocked kernel state size

/-- `free` of a pointer that is not `NULL`.  The descriptors after the last heap are zero. -/
def free (state : MmState) (ptr : Nat) : Except Halt MmState :=
  let mcb := u32 (ptr + (2 ^ 32 - mmControlSize))
  let header := MmControlBlock.load state.memory mcb
  if header.magic ≠ mmMagic ∨ header.size = 0 ∨ maxHeaps ≤ header.heapId then .ok state
  else do
    let (_, memory) ← mmFreeBlockFromHeap state.memory (state.ctx.heaps.getD header.heapId ⟨0, 0⟩) mcb
    .ok { state with memory }

/-- `calloc` -/
def calloc (kernel : MmKernel) (state : MmState) (num size : Nat) :
    Except Halt (Option Nat × MmState) := do
  match ← malloc kernel state (u32 (num * size)) with
  | (none, state) => .ok (none, state)
  | (some mem, state) =>
    .ok (some mem, { state with memory := state.memory.fill mem 0 (u32 (num * size)) })

/-- `realloc`; `none` is `NULL`.  The old block is freed even when there is no new one. -/
def realloc (kernel : MmKernel) (state : MmState) (ptr : Option Nat) (size : Nat) :
    Except Halt (Option Nat × MmState) :=
  if size = 0 then
    match ptr with
    | none => .ok (none, state)
    | some ptr => do
      let state ← free state ptr
      .ok (none, state)
  else do
    let (new, state) ← malloc kernel state size
    match ptr with
    | none => .ok (new, state)
    | some old =>
      match new with
      | none =>
        let state ← free state old
        .ok (none, state)
      | some new =>
        let mcb := MmControlBlock.load state.memory (u32 (old + (2 ^ 32 - mmControlSize)))
        let memory := state.memory.copy new old (if mcb.size < size then mcb.size else size)
        let state ← free { state with memory } old
        .ok (some new, state)

end Antonix
