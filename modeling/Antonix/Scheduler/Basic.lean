import Antonix.Types
import Antonix.Lib.Chain

/-! # The scheduler (`scheduler.c`)

Ready threads wait in `run_queue`, linked through their own `next` fields.  Each
process has a table of its threads.  `skheap` allocates the descriptors; their
addresses are arguments here, and what is mapped for a thread (its stacks) is left
out, as are the registers that a switch saves. -/

namespace Antonix.Sched

open Function

/-- `MAX_THREADS` -/
abbrev maxThreads : Nat := 32

/-- `MAX_PROCESSES` -/
abbrev maxProcesses : Nat := 32

/-- `K_THREAD`, the fields that decide what runs. -/
structure KThread where
  process : Nat
  next : Option Nat

/-- `K_PROCESS`, the fields that the scheduler uses.  Entries of `threads` from
`threadCount` on are left over from threads that have exited. -/
structure KProcess where
  id : Nat
  threads : Nat → Nat
  threadCount : Nat

/-- `sched_state` with the descriptors and the process array. -/
structure SchedState where
  runQueue : Option Nat
  current : Option Nat
  schedEnabled : Bool
  threads : Nat → KThread
  procs : Nat → KProcess
  /-- `process_array` up to `process_count` -/
  processArray : List Nat
  freePid : Nat

namespace SchedState

/-- The links between threads. -/
def next (state : SchedState) (t : Nat) : Option Nat := (state.threads t).next

/-- Store the links between threads. -/
def setNext (state : SchedState) (next : Nat → Option Nat) : SchedState :=
  { state with threads := fun t => { state.threads t with next := next t } }

def setProc (state : SchedState) (proc : Nat) (descriptor : KProcess) : SchedState :=
  { state with procs := update state.procs proc descriptor }

variable (state : SchedState)

@[simp] theorem next_setNext (next : Nat → Option Nat) : (state.setNext next).next = next := rfl

@[simp] theorem runQueue_setNext (next : Nat → Option Nat) :
    (state.setNext next).runQueue = state.runQueue := rfl

@[simp] theorem current_setNext (next : Nat → Option Nat) :
    (state.setNext next).current = state.current := rfl

@[simp] theorem procs_setNext (next : Nat → Option Nat) :
    (state.setNext next).procs = state.procs := rfl

@[simp] theorem processArray_setNext (next : Nat → Option Nat) :
    (state.setNext next).processArray = state.processArray := rfl

end SchedState

/-! ## The run queue -/

/-- The loop `while (last->next != NULL) last = last->next`.  There are no more than `2 ^ 32`
addresses, so a walk that takes longer does not end. -/
def lastLoop (next : Nat → Option Nat) : Nat → Nat → Except Halt Nat
  | 0, _ => .error .stuck
  | fuel + 1, last =>
    match next last with
    | none => .ok last
    | some after => lastLoop next fuel after

/-- Append a thread behind the last one of a queue that starts at `first`: `last->next = t`,
then `last->next->next = NULL`. -/
def appendThread (next : Nat → Option Nat) (first t : Nat) : Except Halt (Nat → Option Nat) := do
  let last ← lastLoop next (2 ^ 32) first
  .ok (Chains.link next last t)

/-- `sched_add_thread_to_run_queue` -/
def schedAddThreadToRunQueue (state : SchedState) (t : Nat) : Except Halt SchedState :=
  match state.runQueue with
  | none => .ok { state with runQueue := some t }
  | some first => do
    let next ← appendThread state.next first t
    .ok (state.setNext next)

/-- `sched_switch_to_thread` -/
def schedSwitchToThread (state : SchedState) (t : Nat) : Except Halt SchedState :=
  if state.current = some t then .error (.panic "Trying to switch to same task?")
  else .ok { state with current := some t }

/-- `sched_update` -/
def schedUpdate (state : SchedState) : Except Halt SchedState :=
  if ¬state.schedEnabled then .ok state
  else
    match state.runQueue with
    | none => .error (.panic "No tasks in run queue.\n")
    | some first => do
      let next ← match state.current with
        | none => .ok state.next
        | some current => appendThread state.next first current
      -- the first thread leaves the queue but keeps its link
      schedSwitchToThread { state.setNext next with runQueue := next first } first

/-! ## Threads and processes -/

/-- `sched_create_thread` up to the unlocking of the process, with the thread descriptor
allocated at `t`.  No process given stands for the current one. -/
def schedInitThread (state : SchedState) (proc : Option Nat) (t : Nat) :
    Except HResult SchedState :=
  match proc.or (state.current.map fun c => (state.threads c).process) with
  | none => .error .eFail
  | some proc =>
    let p := state.procs proc
    if maxThreads ≤ p.threadCount then .error .eFail
    else .ok <|
      { state with threads := update state.threads t ⟨proc, none⟩ }.setProc proc
        { p with threads := update p.threads p.threadCount t, threadCount := p.threadCount + 1 }

/-- `sched_create_thread` -/
def schedCreateThread (state : SchedState) (proc : Option Nat) (t : Nat) :
    Except Halt (HResult × SchedState) :=
  match schedInitThread state proc t with
  | .error hr => .ok (hr, state)
  | .ok state => do
    let state ← schedAddThreadToRunQueue state t
    .ok (.sOk, state)

/-- `sched_create_process` with the descriptors of the process and of its main thread
allocated at `proc` and `t`: the status, and the pid where it is set. -/
def schedCreateProcess (state : SchedState) (proc t : Nat) :
    Except Halt (HResult × Option Nat × SchedState) :=
  if maxProcesses ≤ state.processArray.length then .ok (.eFail, none, state)
  else do
    let pid := state.freePid
    let (hr, state) ← schedCreateThread
      ({ state with freePid := state.freePid + 1 }.setProc proc ⟨pid, fun _ => 0, 0⟩) (some proc) t
    if hr.failed then .ok (hr, none, state)
    else .ok (hr, some pid, { state with processArray := state.processArray ++ [proc] })

/-- `sched_find_proc` -/
def schedFindProc (state : SchedState) (pid : Nat) : Except HResult Nat :=
  match state.processArray.find? fun proc => (state.procs proc).id = pid with
  | some proc => .ok proc
  | none => .error .eNotFound

/-- `destroy_thread_struct`.  The entry behind the last remaining one is not cleared. -/
def destroyThreadStruct (state : SchedState) (t : Nat) : Except Halt SchedState :=
  let proc := (state.threads t).process
  let p := state.procs proc
  match (List.range p.threadCount).find? fun i => p.threads i = t with
  | none => .error (.panic "destroy_thread_struct(): thread not found.")
  | some id => .ok <| state.setProc proc
      { p with
        threads := fun i => if id ≤ i ∧ i < p.threadCount - 1 then p.threads (i + 1) else p.threads i
        threadCount := p.threadCount - 1 }

/-- `sched_exit_thread` -/
def schedExitThread (state : SchedState) (t : Nat) : Except Halt SchedState :=
  if state.current ≠ some t then .error (.panic "sched_exit_thread(): t is not current thread.")
  else destroyThreadStruct { state with current := none } t

/-- The state that `sched_create_initial_proc` leaves: no threads, and the kernel process. -/
def schedCreateInitialProc (kernelProc : Nat) : SchedState where
  runQueue := none
  current := none
  schedEnabled := false
  threads := fun _ => ⟨0, none⟩
  procs := update (fun _ => ⟨0, fun _ => 0, 0⟩) kernelProc ⟨100, fun _ => 0, 0⟩
  processArray := [kernelProc]
  freePid := 101

/-- `sched_initialize`: the kernel process with its main and its idle thread. -/
def schedInitialize (kernelProc main idle : Nat) : Except Halt SchedState := do
  let state := schedCreateInitialProc kernelProc
  let (hr, state) ← schedCreateThread state (some kernelProc) main
  if hr.failed then .error (.panic "Failed to create kernel main thread.")
  else do
    -- the status of the second call is not looked at
    let (_, state) ← schedCreateThread state (some kernelProc) idle
    .ok { state with schedEnabled := true }

/-! ## Loading an executable (`elf.c`) -/

/-- `elf_load_from_memory` up to the segments: create the process and look it up. -/
def elfLoadBegin (state : SchedState) (proc t : Nat) :
    Except Halt (Except HResult Nat × SchedState) := do
  let (hr, pid, state) ← schedCreateProcess state proc t
  match pid with
  | none => .ok (.error hr, state)
  | some pid =>
    match schedFindProc state pid with
    | .error _ => .error (.panic "elf_load_from_memory(): Failed to find process.")
    | .ok proc => .ok (.ok proc, state)

/-- The last statement of `elf_load_from_memory`. -/
def elfLoadFinish (state : SchedState) (proc : Nat) : Except Halt SchedState :=
  schedAddThreadToRunQueue state ((state.procs proc).threads 0)

end Antonix.Sched
