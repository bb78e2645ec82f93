import Antonix.MmVirt.Regions
import Antonix.Scheduler.Basic

/-! # The stacks of a thread (`scheduler.c`)

`sched_create_thread` maps a kernel stack for every thread, and a user stack for a
thread of a user process, below all regions that the process has.  The frame that
the new thread starts with is written through a temporary mapping in the current
process; what is written is left out, as is the switch to the changed address
space.  `destroy_thread_struct` unmaps the user stack only. -/

namespace Antonix.Threads

open Function Sched

/-- `STACK_SIZE_KERNEL` -/
abbrev stackSizeKernel : Nat := 0x2000

/-- `STACK_SIZE_USER` -/
abbrev stackSizeUser : Nat := 0x2000

/-- `USAGE_KERNELSTACK` -/
abbrev usageKernelStack : Nat := usageKernel ||| usageStack

/-- `USAGE_USERSTACK` -/
abbrev usageUserStack : Nat := usageUser ||| usageStack

/-- `unmapped_barrier` -/
abbrev unmappedBarrier : Nat := 0x1000

/-- `PROCESS_MODE_KERNEL` and `PROCESS_MODE_USER` -/
inductive ProcessMode where
  | kernel
  | user
  deriving DecidableEq, Repr

/-- `K_THREAD`, where the stacks are. -/
structure ThreadStacks where
  stackSize : Nat
  userStack : Nat
  kernelStack : Nat
  deriving DecidableEq, Repr

/-- The scheduler and the memory manager, with the modes of the processes and the stacks of
the threads.  `kernelProc` is `&kernel_proc`. -/
structure KernelState where
  sched : SchedState
  vmm : VmmState
  mode : Nat → ProcessMode
  threadStacks : Nat → ThreadStacks
  kernelProc : Nat

namespace KernelState

/-- The regions of a process. -/
def regions (k : KernelState) (proc : Nat) : List KVmmRegion := (k.vmm.procs proc).regions

/-- `t->process` -/
def process (k : KernelState) (t : Nat) : Nat := (k.sched.threads t).process

end KernelState

/-- The loop of `sched_find_proper_stack_location`: the lowest address so far.
`usage | USAGE_STACK` as the code has it, so every region counts. -/
def lowestRegion (index : Nat) : List KVmmRegion → Nat
  | [] => index
  | r :: regions =>
    if r.usage ||| usageStack ≠ 0 then
      lowestRegion (if r.virtAddr < index then r.virtAddr else index) regions
    else lowestRegion index regions

/-- `sched_find_proper_stack_location` -/
def schedFindProperStackLocation (regions : List KVmmRegion) (stackSize : Nat) : Except Halt Nat :=
  let index := lowestRegion (0xC0000000 - 4096) regions
  if index < u32 (stackSize + unmappedBarrier) then
    .error (.panic "Failed to find place for stack.")
  else .ok (sub32 (sub32 index stackSize) unmappedBarrier)

/-- Find a place for a stack and map it; `text` is the panic of the caller. -/
def mapStack (vmm : VmmState) (proc size usage : Nat) (text : String) :
    Except Halt (Nat × VmmState) := do
  let virtAddr ← schedFindProperStackLocation (vmm.procs proc).regions size
  let (hr, vmm) ← vmmAllocAndMap vmm (some proc) virtAddr size usage accessReadWrite
  if hr.failed then .error (.panic text) else .ok (virtAddr, vmm)

/-- A thread of a kernel process has no user stack. -/
def mapUserStack (vmm : VmmState) (proc : Nat) : ProcessMode → Except Halt (Nat × VmmState)
  | .kernel => .ok (0, vmm)
  | .user => mapStack vmm proc stackSizeUser usageUserStack "Failed to allocate user space stack."

/-- `sched_setup_thread_stack` -/
def schedSetupThreadStack (k : KernelState) (t : Nat) : Except Halt (HResult × VmmState) :=
  match vmmGetRegionPhysAddr k.vmm (some (k.process t)) (k.threadStacks t).kernelStack with
  | .error hr => .ok (hr, k.vmm)
  | .ok stackPhysLocation => do
    let currentProc := match k.sched.current with
      | none => k.kernelProc
      | some current => k.process current
    match ← vmmTempMapRegion k.vmm (some currentProc) stackPhysLocation (k.threadStacks t).stackSize with
    | (hr, none, vmm) => .ok (hr, vmm)
    | (_, some stackTempPtr, vmm) =>
      if stackTempPtr ≤ (k.threadStacks t).kernelStack then .error .assertion
      else do
        let (hr, vmm) ← vmmUnmapRegion vmm (some currentProc) stackTempPtr
        if hr.failed then .error .assertion else .ok (.sOk, vmm)

/-- `sched_create_thread`: the descriptor, the kernel stack, the user stack of a user thread, the
first frame, and the run queue. -/
def schedCreateThread (k : KernelState) (proc : Option Nat) (t : Nat) :
    Except Halt (HResult × KernelState) :=
  match schedInitThread k.sched proc t with
  | .error hr => .ok (hr, k)
  | .ok sched => do
    let owner := (sched.threads t).process
    let (kernelStack, vmm) ← mapStack k.vmm owner stackSizeKernel usageKernelStack
      "Failed to allocate kernel space stack."
    let (userStack, vmm) ← mapUserStack vmm owner (k.mode owner)
    let threadStacks := update k.threadStacks t ⟨stackSizeKernel, userStack, kernelStack⟩
    let (hr, vmm) ← schedSetupThreadStack { k with sched, vmm, threadStacks } t
    if hr.failed then .error (.panic "Failed to setup new thread stack.")
    else do
      let sched ← schedAddThreadToRunQueue sched t
      .ok (.sOk, { k with sched, vmm, threadStacks })

/-- `sched_exit_thread` with `destroy_thread_struct`.  The call that would unmap the kernel stack
is commented out there. -/
def schedExitThread (k : KernelState) (t : Nat) : Except Halt (HResult × KernelState) := do
  let sched ← Sched.schedExitThread k.sched t
  if (k.threadStacks t).kernelStack = 0 then .error .assertion
  else
    match k.mode (k.process t) with
    | .kernel => .ok (.sOk, { k with sched })
    | .user => do
      let (hr, vmm) ← vmmUnmapRegion k.vmm (some (k.process t)) (k.threadStacks t).userStack
      if hr.failed then .ok (hr, { k with sched, vmm }) else .ok (.sOk, { k with sched, vmm })

/-- A user process without threads, beside the kernel process 1. -/
def KernelState.oneProcess : KernelState where
  sched := { schedCreateInitialProc 1 with schedEnabled := true }
  vmm := .oneProcess
  mode := update (fun _ => .kernel) 0 .user
  threadStacks := fun _ => ⟨0, 0, 0⟩
  kernelProc := 1

end Antonix.Threads
