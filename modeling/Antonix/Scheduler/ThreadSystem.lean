import Antonix.MmVirt.TempMap
import Antonix.Scheduler.Spec
import Antonix.Scheduler.StackPlacement

/-! # Threads that come and go

What the calls that create and end threads do to the regions of the processes and to
the physical memory, and what is left after any sequence of them. -/

namespace Antonix.Threads

open Function Sched Transition

/-! ## What the calls do to the regions -/

/-- A thread with the regions that were mapped for it. -/
structure StackOwner where
  thread : Nat
  proc : Nat
  kernelStack : KVmmRegion
  userStack : Option KVmmRegion

/-- The regions that were mapped for the thread. -/
def StackOwner.owned (o : StackOwner) : List KVmmRegion := o.kernelStack :: o.userStack.toList

/-- Where the user stack of a thread is, if it has one. -/
def ProcessMode.userStack : ProcessMode → Nat → Option Nat
  | .kernel, _ => none
  | .user, virtAddr => some virtAddr

/-- The descriptor of the thread tells its process and its user stack. -/
structure KernelState.Records (k : KernelState) (o : StackOwner) : Prop where
  process : k.process o.thread = o.proc
  userStack : o.userStack.map KVmmRegion.virtAddr =
    (k.mode o.proc).userStack (k.threadStacks o.thread).userStack

/-- A stack as `sched_create_thread` maps it. -/
structure IsStack (r : KVmmRegion) : Prop where
  size : r.regionSize = 0x2000
  autofree : r.usage &&& usageAutofree ≠ 0

/-- The stack `r` was mapped for the process, below all other regions. -/
structure StackMapped (vmm : VmmState) (proc : Nat) (r : KVmmRegion) (vmm' : VmmState) : Prop
    extends RegionAllocated vmm proc r vmm' where
  place : StackBelow (vmm.procs proc).regions r.regionSize r.virtAddr
  isStack : IsStack r

/-- From `vmm` to `vmm'` the regions `owned` were mapped for the process. -/
structure OwnedMapped (vmm : VmmState) (proc : Nat) (owned : List KVmmRegion) (vmm' : VmmState) :
    Prop where
  regions : (vmm'.procs proc).regions = (vmm.procs proc).regions ++ owned
  others : ∀ p, p ≠ proc → (vmm'.procs p).regions = (vmm.procs p).regions
  below : StacksBelow (vmm.procs proc).regions owned
  areStacks : ∀ r ∈ owned, IsStack r
  room : (vmm.procs proc).regions.length ≤ maxVmRegions →
    (vmm'.procs proc).regions.length ≤ maxVmRegions
  frames : ∀ {reserved owners}, FramesOwned vmm.kpmm reserved owners →
    FramesOwned vmm'.kpmm reserved (owned ++ owners)

/-- What a call leaves of the descriptors of the other threads. -/
structure KernelState.KeepsOthers (k : KernelState) (t : Nat) (k' : KernelState) : Prop where
  process : ∀ x, x ≠ t → k'.process x = k.process x
  threadStacks : ∀ x, x ≠ t → k'.threadStacks x = k.threadStacks x
  mode : k'.mode = k.mode

theorem KernelState.KeepsOthers.records {k k' : KernelState} {t : Nat} {o : StackOwner}
    (keeps : k.KeepsOthers t k') (records : k.Records o) (other : o.thread ≠ t) :
    k'.Records o where
  process := (keeps.process _ other).trans records.process
  userStack := by rw [keeps.mode, keeps.threadStacks _ other, records.userStack]

section

variable {vmm vmm' vmm'' : VmmState} {k k' : KernelState} {proc size usage a t : Nat}
  {text : String} {hr : HResult}

/-- A stack that was mapped lies where there was a place for it. -/
theorem mapStack_cases (returned : mapStack vmm proc size usage text = .ok (a, vmm')) :
    schedFindProperStackLocation (vmm.procs proc).regions size = .ok a ∧
      vmmAllocAndMap vmm (some proc) a size usage accessReadWrite = .ok (.sOk, vmm') := by
  obtain ⟨virtAddr, found, returned⟩ := exists_of_bind returned
  obtain ⟨⟨hr, vmm₁⟩, mapped, returned⟩ := exists_of_bind returned
  dsimp only at returned
  split at returned
  · cases returned
  · next succeeded =>
    obtain ⟨rfl, rfl⟩ := eq_of_returned returned
    obtain rfl := HResult.eq_sOk (vmmAllocAndMap_ne_sFalse mapped) succeeded
    exact ⟨found, mapped⟩

theorem mapStack_spec (isSize : size = 0x2000)
    (returned : mapStack vmm proc size usage text = .ok (a, vmm')) :
    ∃ r, r.virtAddr = a ∧ StackMapped vmm proc r vmm' := by
  obtain ⟨found, mapped⟩ := mapStack_cases returned
  have place := find_below (by dsimp only [unmappedBarrier]; omega) found
  obtain ⟨physAddr, allocated⟩ := vmmAllocAndMap_allocated mapped
  exact ⟨_, rfl, allocated, place, isSize, usage_autofree_ne usage⟩

theorem StackMapped.owned {r : KVmmRegion} (mapped : StackMapped vmm proc r vmm') :
    OwnedMapped vmm proc [r] vmm' where
  regions := mapped.regions
  others := mapped.others
  below := .cons mapped.place (.nil _)
  areStacks := List.forall_mem_singleton.mpr mapped.isStack
  room room := by
    have few := mapped.few
    rw [mapped.regions, List.length_append, List.length_singleton]
    omega
  frames owned := owned.alloc mapped.free mapped.marked

theorem OwnedMapped.append {owned later : List KVmmRegion} (first : OwnedMapped vmm proc owned vmm')
    (second : OwnedMapped vmm' proc later vmm'') :
    OwnedMapped vmm proc (owned ++ later) vmm'' where
  regions := by rw [second.regions, first.regions, List.append_assoc]
  others p other := (second.others p other).trans (first.others p other)
  below := by
    have below := second.below
    rw [first.regions] at below
    exact first.below.append below
  areStacks := List.forall_mem_append.mpr ⟨first.areStacks, second.areStacks⟩
  room room := second.room (first.room room)
  frames {reserved owners} frames := by
    have taken := second.frames (first.frames frames)
    rw [← List.append_assoc] at taken
    exact taken.perm (List.perm_append_comm.append_right owners)

theorem OwnedMapped.congr {owned : List KVmmRegion} (mapped : OwnedMapped vmm proc owned vmm')
    (regions : ∀ p, (vmm''.procs p).regions = (vmm'.procs p).regions)
    (kpmm : vmm''.kpmm = vmm'.kpmm) : OwnedMapped vmm proc owned vmm'' where
  regions := (regions proc).trans mapped.regions
  others p other := (regions p).trans (mapped.others p other)
  below := mapped.below
  areStacks := mapped.areStacks
  room few := (congrArg List.length (regions proc)).trans_le (mapped.room few)
  frames owned := kpmm ▸ mapped.frames owned

/-- A thread of a user process has a second stack, below the first. -/
theorem mapUserStack_spec {mode : ProcessMode} {r : KVmmRegion}
    (mapped : OwnedMapped vmm proc [r] vmm')
    (returned : mapUserStack vmm' proc mode = .ok (a, vmm'')) :
    ∃ user : Option KVmmRegion, user.map KVmmRegion.virtAddr = mode.userStack a ∧
      OwnedMapped vmm proc (r :: user.toList) vmm'' := by
  cases mode with
  | kernel =>
    obtain ⟨-, rfl⟩ := eq_of_returned returned
    exact ⟨none, rfl, mapped⟩
  | user =>
    obtain ⟨user, rfl, mappedUser⟩ := mapStack_spec rfl returned
    exact ⟨some user, rfl, mapped.append mappedUser.owned⟩

/-- The temporary mapping is gone when the stack has been set up. -/
theorem schedSetupThreadStack_kept (positive : 0 < (k.threadStacks t).stackSize)
    (returned : schedSetupThreadStack k t = .ok (hr, vmm')) (succeeded : ¬ hr.failed = true) :
    (∀ p, (vmm'.procs p).regions = k.regions p) ∧ vmm'.kpmm = k.vmm.kpmm := by
  rw [schedSetupThreadStack] at returned
  cases looked : vmmGetRegionPhysAddr k.vmm (some (k.process t)) (k.threadStacks t).kernelStack with
  | error hr' =>
    rw [looked] at returned
    obtain ⟨-, rfl⟩ := eq_of_returned returned
    exact ⟨fun _ => rfl, rfl⟩
  | ok physAddr =>
    rw [looked] at returned
    obtain ⟨⟨hr', out, vmm₁⟩, mapped, returned⟩ := exists_of_bind returned
    cases out with
    | none =>
      obtain ⟨rfl, -⟩ := eq_of_returned returned
      exact absurd (vmmTempMapRegion_none mapped) succeeded
    | some addr =>
      dsimp only at returned
      split at returned
      · contradiction
      · obtain ⟨⟨hr'', vmm₂⟩, unmapped, returned⟩ := exists_of_bind returned
        dsimp only at returned
        split at returned
        · contradiction
        · next succeeded' =>
          obtain ⟨-, rfl⟩ := eq_of_returned returned
          obtain rfl := HResult.eq_sOk (vmmUnmapRegion_ne_sFalse unmapped) succeeded'
          exact vmmTempMapRegion_undone positive mapped unmapped

theorem schedInitThread_error {procDesc : Option Nat}
    (failed : schedInitThread k.sched procDesc t = .error hr) : hr = .eFail := by
  rw [schedInitThread] at failed
  split at failed
  · exact (Except.error.inj failed).symm
  · dsimp only at failed
    split at failed
    · exact (Except.error.inj failed).symm
    · cases failed

/-- The descriptor of a thread is its process's, and the stacks `vmm` has mapped are its own. -/
def KernelState.withStacks (k : KernelState) (owner t : Nat) (vmm : VmmState)
    (userStack kernelStack : Nat) : KernelState :=
  { k with
    sched := { k.sched with threads := update k.sched.threads t ⟨owner, none⟩ }.setProc owner
      { k.sched.procs owner with
        threads := update (k.sched.procs owner).threads (k.sched.procs owner).threadCount t
        threadCount := (k.sched.procs owner).threadCount + 1 }
    vmm := vmm
    threadStacks := update k.threadStacks t ⟨stackSizeKernel, userStack, kernelStack⟩ }

/-- The steps of a call that has created a thread: both stacks are mapped, the first frame is
written, and the thread is queued. -/
theorem schedCreateThread_steps {procDesc : Option Nat}
    (returned : schedCreateThread k procDesc t = .ok (.sOk, k')) :
    ∃ owner kernelStack vmm₁ userStack vmm₂ hr vmm₃ next runQueue,
      (∀ p, procDesc = some p → p = owner) ∧
      mapStack k.vmm owner stackSizeKernel usageKernelStack
        "Failed to allocate kernel space stack." = .ok (kernelStack, vmm₁) ∧
      mapUserStack vmm₁ owner (k.mode owner) = .ok (userStack, vmm₂) ∧
      schedSetupThreadStack (k.withStacks owner t vmm₂ userStack kernelStack) t =
        .ok (hr, vmm₃) ∧ ¬hr.failed = true ∧
      k' = { k.withStacks owner t vmm₂ userStack kernelStack with
        sched := { (k.withStacks owner t vmm₂ userStack kernelStack).sched.setNext next with
          runQueue }
        vmm := vmm₃ } := by
  rw [schedCreateThread] at returned
  cases initialized : schedInitThread k.sched procDesc t with
  | error hr =>
    rw [initialized] at returned
    obtain ⟨rfl, -⟩ := eq_of_returned returned
    cases schedInitThread_error initialized
  | ok sched =>
    rw [initialized] at returned
    obtain ⟨owner, given, rfl⟩ := schedInitThread_eq initialized
    obtain ⟨⟨kernelStack, vmm₁⟩, mapped, returned⟩ := exists_of_bind returned
    obtain ⟨⟨userStack, vmm₂⟩, mappedUser, returned⟩ := exists_of_bind returned
    obtain ⟨⟨hr, vmm₃⟩, setUp, returned⟩ := exists_of_bind returned
    dsimp only at returned
    split at returned
    · cases returned
    · next succeeded =>
      obtain ⟨sched, queued, returned⟩ := exists_of_bind returned
      obtain ⟨next, runQueue, rfl⟩ := schedAddThreadToRunQueue_frame queued
      obtain ⟨-, is⟩ := eq_of_returned returned
      simp only [SchedState.setProc, update_self] at mapped mappedUser
      exact ⟨owner, kernelStack, vmm₁, userStack, vmm₂, hr, vmm₃, next, runQueue, given, mapped,
        mappedUser, setUp, succeeded, is.symm⟩

/-- The kernel stack, and for a user thread the user stack below it. -/
theorem schedCreateThread_created {procDesc : Option Nat}
    (returned : schedCreateThread k procDesc t = .ok (.sOk, k')) :
    ∃ o : StackOwner, o.thread = t ∧ k'.Records o ∧ OwnedMapped k.vmm o.proc o.owned k'.vmm ∧
      k.KeepsOthers t k' := by
  obtain ⟨owner, kernelStack, vmm₁, userStack, vmm₂, hr, vmm₃, next, runQueue, -, mapped,
    mappedUser, setUp, succeeded, is⟩ := schedCreateThread_steps returned
  -- queueing the thread changes links only, and the first frame is written through a mapping
  -- that is gone again
  have process (x : Nat) : k'.process x = (update k.sched.threads t ⟨owner, none⟩ x).process := by
    rw [is]
    rfl
  have kept : (∀ p, k'.regions p = (vmm₂.procs p).regions) ∧ k'.vmm.kpmm = vmm₂.kpmm := by
    rw [is]
    exact schedSetupThreadStack_kept (by simp [KernelState.withStacks]) setUp succeeded
  obtain ⟨r, -, stack⟩ := mapStack_spec rfl mapped
  obtain ⟨user, address, owned⟩ := mapUserStack_spec stack.owned mappedUser
  refine ⟨⟨t, owner, r, user⟩, rfl, ⟨?_, ?_⟩, owned.congr kept.1 kept.2,
    ⟨fun x other => ?_, fun x other => ?_, ?_⟩⟩
  · rw [process, update_self]
  · rw [address, is]
    simp [KernelState.withStacks]
  · rw [process, update_of_ne other]
    rfl
  · rw [is]
    exact update_of_ne other _ _
  · rw [is]
    rfl

/-- What the exit of a thread does: only the user stack is unmapped. -/
structure Exited (k : KernelState) (o : StackOwner) (k' : KernelState) : Prop where
  process : k'.process = k.process
  threadStacks : k'.threadStacks = k.threadStacks
  mode : k'.mode = k.mode
  unmapped : (o.userStack = none ∧ k'.vmm = k.vmm) ∨ ∃ r, o.userStack = some r ∧
    vmmUnmapRegion k.vmm (some o.proc) r.virtAddr = .ok (.sOk, k'.vmm)

theorem schedExitThread_exited {o : StackOwner} (records : k.Records o)
    (returned : schedExitThread k o.thread = .ok (.sOk, k')) : Exited k o k' := by
  obtain ⟨sched, exits, returned⟩ := exists_of_bind returned
  obtain ⟨procs, rfl⟩ := schedExitThread_frame exits
  have userStack := records.userStack
  split at returned
  · cases returned
  · rw [records.process] at returned
    cases mode : k.mode o.proc with
    | kernel =>
      rw [mode] at returned userStack
      obtain ⟨-, rfl⟩ := eq_of_returned returned
      exact ⟨rfl, rfl, rfl, .inl ⟨Option.map_eq_none_iff.mp userStack, rfl⟩⟩
    | user =>
      rw [mode] at returned userStack
      obtain ⟨r, isUser, address⟩ := Option.map_eq_some_iff.mp userStack
      obtain ⟨⟨hr, vmm⟩, unmapped, returned⟩ := exists_of_bind returned
      dsimp only at returned
      split at returned
      · next failed =>
        obtain ⟨rfl, -⟩ := eq_of_returned returned
        cases failed
      · next succeeded =>
        obtain ⟨-, rfl⟩ := eq_of_returned returned
        obtain rfl := HResult.eq_sOk (vmmUnmapRegion_ne_sFalse unmapped) succeeded
        rw [← address] at unmapped
        exact ⟨rfl, rfl, rfl, .inr ⟨r, isUser, unmapped⟩⟩

end

/-- Unmapping one of the stacks leaves the others and the regions above them. -/
theorem StacksBelow.unmap {vmm vmm' : VmmState} {proc : Nat} {regions placed : List KVmmRegion}
    {r : KVmmRegion} (below : StacksBelow regions placed)
    (table : (vmm.procs proc).regions = regions ++ placed) (member : r ∈ placed)
    (unmapped : vmmUnmapRegion vmm (some proc) r.virtAddr = .ok (.sOk, vmm')) :
    (∃ placed', (vmm'.procs proc).regions = regions ++ placed' ∧ StacksBelow regions placed' ∧
      placed.Perm (r :: placed')) ∧
    (∀ p, p ≠ proc → (vmm'.procs p).regions = (vmm.procs p).regions) ∧
      FramesReleased r vmm.kpmm vmm'.kpmm := by
  obtain ⟨before, after, rfl⟩ := List.append_of_mem member
  obtain ⟨place, without⟩ := below.split
  rw [← List.append_assoc] at table
  have first : ∀ x ∈ regions ++ before, x.virtAddr ≠ r.virtAddr := by
    intro x member same
    have apart := place.apart x member
    rw [same] at apart
    dsimp only [pageSize] at apart
    omega
  obtain ⟨table', rest⟩ := vmmUnmapRegion_first table first unmapped
  rw [List.append_assoc] at table'
  exact ⟨⟨before ++ after, table', without, List.perm_middle⟩, rest⟩

/-! ## Runs -/

/-- The kernel with the threads of a run: those that have not exited, and those that have. -/
structure ThreadSystem where
  kernel : KernelState
  live : List StackOwner
  exited : List StackOwner

/-- No thread has been created yet. -/
structure ThreadSystem.Fresh (s : ThreadSystem) : Prop where
  live : s.live = []
  exited : s.exited = []

/-- The regions that were mapped for those of the threads that belong to the process. -/
def ownedIn (proc : Nat) (owners : List StackOwner) : List KVmmRegion :=
  (owners.filter (·.proc = proc)).flatMap StackOwner.owned

/-- The kernel stacks of those of the threads that belong to the process. -/
def kernelStacksIn (proc : Nat) (owners : List StackOwner) : List KVmmRegion :=
  (owners.filter (·.proc = proc)).map StackOwner.kernelStack

inductive ThreadOp where
  | create (proc : Option Nat) (t : Nat)
  | exit (t : Nat)
  | tick

/-- The calls that return with success.  The descriptor of a new thread is not that of a live one,
and its owner `o` is what the call has written into it and added to the table. -/
inductive ThreadStep : ThreadSystem → ThreadOp → ThreadSystem → Prop
  | create {k k' : KernelState} {live exited : List StackOwner} {proc : Option Nat} {o : StackOwner}
      (new : ∀ x ∈ live, x.thread ≠ o.thread)
      (created : schedCreateThread k proc o.thread = .ok (.sOk, k')) (records : k'.Records o)
      (added : k'.regions o.proc = k.regions o.proc ++ o.owned) :
      ThreadStep ⟨k, live, exited⟩ (.create proc o.thread) ⟨k', live ++ [o], exited⟩
  | exit {k k' : KernelState} {before after exited : List StackOwner} {o : StackOwner}
      (exits : schedExitThread k o.thread = .ok (.sOk, k')) :
      ThreadStep ⟨k, before ++ o :: after, exited⟩ (.exit o.thread)
        ⟨k', before ++ after, o :: exited⟩
  | tick {k : KernelState} {live exited : List StackOwner} {sched : SchedState}
      (ticked : schedUpdate k.sched = .ok sched) :
      ThreadStep ⟨k, live, exited⟩ .tick ⟨{ k with sched }, live, exited⟩

/-- Beside the regions that the processes had at the start, the tables hold the regions of the live
threads and the kernel stacks of the others, and so with the blocks that are marked. -/
structure ThreadSystem.Sound (start : KernelState) (s : ThreadSystem) : Prop where
  tables : ∀ p, ∃ placed, s.kernel.regions p = start.regions p ++ placed ∧
    StacksBelow (start.regions p) placed ∧
    placed.Perm (ownedIn p s.live ++ kernelStacksIn p s.exited)
  records : ∀ o ∈ s.live, s.kernel.Records o
  areStacks : ∀ o ∈ s.live ++ s.exited, ∀ r ∈ o.owned, IsStack r
  room : ∀ p, (start.regions p).length ≤ maxVmRegions →
    (s.kernel.regions p).length ≤ maxVmRegions
  frames : FramesOwned s.kernel.vmm.kpmm start.vmm.kpmm.bits
    (s.live.flatMap StackOwner.owned ++ s.exited.map StackOwner.kernelStack)

section

variable {first k k' : KernelState} {start s s' : ThreadSystem} {op : ThreadOp}
  {ops : List ThreadOp} {o : StackOwner} {live exited before after : List StackOwner}

@[simp] theorem ownedIn_nil (proc : Nat) : ownedIn proc [] = [] := rfl

@[simp] theorem ownedIn_append (proc : Nat) (owners later : List StackOwner) :
    ownedIn proc (owners ++ later) = ownedIn proc owners ++ ownedIn proc later := by
  simp [ownedIn]

@[simp] theorem ownedIn_cons_self (owners : List StackOwner) :
    ownedIn o.proc (o :: owners) = o.owned ++ ownedIn o.proc owners := by
  simp [ownedIn]

theorem ownedIn_cons_of_ne {proc : Nat} (other : proc ≠ o.proc) (owners : List StackOwner) :
    ownedIn proc (o :: owners) = ownedIn proc owners := by
  simp [ownedIn, other.symm]

@[simp] theorem kernelStacksIn_cons_self (owners : List StackOwner) :
    kernelStacksIn o.proc (o :: owners) = o.kernelStack :: kernelStacksIn o.proc owners := by
  simp [kernelStacksIn]

theorem kernelStacksIn_cons_of_ne {proc : Nat} (other : proc ≠ o.proc) (owners : List StackOwner) :
    kernelStacksIn proc (o :: owners) = kernelStacksIn proc owners := by
  simp [kernelStacksIn, other.symm]

theorem ThreadSystem.Fresh.sound (fresh : s.Fresh) : s.Sound s.kernel where
  tables p := ⟨[], (List.append_nil _).symm, .nil _, by
    rw [fresh.live, fresh.exited]
    exact .nil⟩
  records := by simp [fresh.live]
  areStacks := by simp [fresh.live, fresh.exited]
  room _ few := few
  frames := by
    rw [fresh.live, fresh.exited]
    exact .start

/-- The owner in a step is the one that the call leaves. -/
theorem schedCreateThread_owned {procDesc : Option Nat} (records : k'.Records o)
    (added : k'.regions o.proc = k.regions o.proc ++ o.owned)
    (created : schedCreateThread k procDesc o.thread = .ok (.sOk, k')) :
    OwnedMapped k.vmm o.proc o.owned k'.vmm ∧ k.KeepsOthers o.thread k' := by
  obtain ⟨o', same, records', mapped, keeps⟩ := schedCreateThread_created created
  have proc : o'.proc = o.proc := by rw [← records'.process, same, records.process]
  rw [proc] at mapped
  have owned : o'.owned = o.owned := List.append_cancel_left (mapped.regions.symm.trans added)
  rw [owned] at mapped
  exact ⟨mapped, keeps⟩

theorem ThreadSystem.Sound.create (sound : ThreadSystem.Sound first ⟨k, live, exited⟩)
    (new : ∀ x ∈ live, x.thread ≠ o.thread) (records : k'.Records o)
    (mapped : OwnedMapped k.vmm o.proc o.owned k'.vmm) (keeps : k.KeepsOthers o.thread k') :
    ThreadSystem.Sound first ⟨k', live ++ [o], exited⟩ where
  tables p := by
    obtain ⟨placed, regions, below, perm⟩ := sound.tables p
    by_cases here : p = o.proc
    · subst here
      have above : StacksBelow (k.regions o.proc) o.owned := mapped.below
      rw [regions] at above
      refine ⟨placed ++ o.owned, ?_, below.append above, ?_⟩
      · rw [← List.append_assoc, ← regions]
        exact mapped.regions
      · -- what was added stands behind the old regions, and among those of the live threads
        rw [ownedIn_append, ownedIn_cons_self, ownedIn_nil, List.append_nil]
        refine (perm.append_right o.owned).trans ?_
        rw [List.append_assoc, List.append_assoc]
        exact List.perm_append_comm.append_left _
    · refine ⟨placed, (mapped.others p here).trans regions, below, ?_⟩
      rwa [ownedIn_append, ownedIn_cons_of_ne here, ownedIn_nil, List.append_nil]
  records x member := by
    obtain member | member := List.mem_append.mp member
    · exact keeps.records (sound.records x member) (new x member)
    · rwa [List.mem_singleton.mp member]
  areStacks x member := by
    simp only [List.mem_append, List.mem_singleton] at member
    rcases member with (isLive | rfl) | hasExited
    · exact sound.areStacks x (List.mem_append_left _ isLive)
    · exact mapped.areStacks
    · exact sound.areStacks x (List.mem_append_right _ hasExited)
  room p few := by
    have before := sound.room p few
    by_cases here : p = o.proc
    · subst here
      exact mapped.room before
    · exact (congrArg List.length (mapped.others p here)).trans_le before
  frames := by
    refine (mapped.frames sound.frames).perm ?_
    simp only [List.flatMap_append, List.flatMap_singleton, List.append_assoc]
    exact List.perm_append_comm_assoc _ _ _

/-- What the exit of a thread does: its user stack is taken out of the table. -/
structure UserStackTaken (k : KernelState) (o : StackOwner) (regions placed : List KVmmRegion)
    (k' : KernelState) (placed' : List KVmmRegion) : Prop where
  table : k'.regions o.proc = regions ++ placed'
  below : StacksBelow regions placed'
  perm : placed.Perm (o.userStack.toList ++ placed')
  others : ∀ p, p ≠ o.proc → k'.regions p = k.regions p
  frames : ∀ {reserved owners}, FramesOwned k.vmm.kpmm reserved (o.userStack.toList ++ owners) →
    FramesOwned k'.vmm.kpmm reserved owners

theorem Exited.taken {regions placed : List KVmmRegion} (exits : Exited k o k')
    (below : StacksBelow regions placed) (table : k.regions o.proc = regions ++ placed)
    (mapped : ∀ r ∈ o.owned, r ∈ placed ∧ IsStack r) :
    ∃ placed', UserStackTaken k o regions placed k' placed' := by
  rcases exits.unmapped with ⟨isKernel, same⟩ | ⟨r, isUser, unmapped⟩
  · have kept (p : Nat) : k'.regions p = k.regions p := by
      rw [KernelState.regions, same, KernelState.regions]
    refine ⟨placed, (kept o.proc).trans table, below, ?_, fun p _ => kept p, fun owned => ?_⟩
    · rw [isKernel]
      exact .refl _
    · rw [isKernel] at owned
      rwa [same]
  · obtain ⟨member, isStack⟩ := mapped r (by simp [StackOwner.owned, isUser])
    obtain ⟨⟨placed', table', below', perm⟩, others, released⟩ := below.unmap table member unmapped
    refine ⟨placed', table', below', ?_, others, fun owned => ?_⟩
    · rw [isUser]
      exact perm
    · rw [isUser] at owned
      exact owned.free (released.cleared isStack.autofree (owned.marked List.mem_cons_self))

theorem ThreadSystem.Sound.exit (sound : ThreadSystem.Sound first ⟨k, before ++ o :: after, exited⟩)
    (exits : Exited k o k') : ThreadSystem.Sound first ⟨k', before ++ after, o :: exited⟩ := by
  obtain ⟨placed, regions, below, perm⟩ := sound.tables o.proc
  have mapped : ∀ r ∈ o.owned, r ∈ placed ∧ IsStack r := by
    intro r member
    refine ⟨?_, sound.areStacks o (by simp) r member⟩
    rw [perm.mem_iff]
    simp [member]
  obtain ⟨placed', taken⟩ := exits.taken below regions mapped
  refine ⟨fun p => ?_, fun x member => ?_, fun x member => ?_, fun p few => ?_, ?_⟩
  · by_cases here : p = o.proc
    · subst here
      refine ⟨placed', taken.table, taken.below, ?_⟩
      have perm' := taken.perm
      -- the kernel stack changes from the live to the exited side, the user stack is gone
      rw [List.perm_iff_count] at perm perm' ⊢
      intro r
      have total := perm r
      rw [perm' r] at total
      simp only [ownedIn_append, ownedIn_cons_self, kernelStacksIn_cons_self, StackOwner.owned,
        List.count_append, List.cons_append, List.count_cons] at total ⊢
      omega
    · obtain ⟨placed, regions, below, perm⟩ := sound.tables p
      refine ⟨placed, (taken.others p here).trans regions, below, ?_⟩
      rw [ownedIn_append, ownedIn_cons_of_ne here, ← ownedIn_append] at perm
      rwa [kernelStacksIn_cons_of_ne here]
  · have records := sound.records x (by
      rw [List.mem_append] at member ⊢
      exact member.imp_right (List.mem_cons_of_mem o))
    refine ⟨?_, ?_⟩
    · rw [exits.process, records.process]
    · rw [exits.mode, exits.threadStacks, records.userStack]
  · apply sound.areStacks x
    simp only [List.mem_append, List.mem_cons] at member ⊢
    tauto
  · have room := sound.room p few
    by_cases here : p = o.proc
    · subst here
      have fewer := taken.perm.length_eq
      rw [List.length_append] at fewer
      rw [regions, List.length_append] at room
      rw [taken.table, List.length_append]
      omega
    · exact (congrArg List.length (taken.others p here)).trans_le room
  · apply taken.frames
    refine sound.frames.perm ?_
    rw [List.perm_iff_count]
    intro r
    simp only [StackOwner.owned, List.flatMap_append, List.flatMap_cons, List.map_cons,
      List.count_append, List.cons_append, List.count_cons]
    omega

/-- One call keeps the tables sound. -/
theorem ThreadStep.sound (sound : s.Sound first) (step : ThreadStep s op s') : s'.Sound first := by
  cases step with
  | create new created records added =>
    obtain ⟨mapped, keeps⟩ := schedCreateThread_owned records added created
    exact sound.create new records mapped keeps
  | exit exits =>
    exact sound.exit (schedExitThread_exited (sound.records _ (by simp)) exits)
  | tick ticked =>
    obtain ⟨next, runQueue, current, rfl⟩ := schedUpdate_frame ticked
    exact ⟨sound.tables, fun o member => ⟨(sound.records o member).process,
      (sound.records o member).userStack⟩, sound.areStacks, sound.room, sound.frames⟩

theorem ThreadSystem.Fresh.run (fresh : start.Fresh) (run : Run ThreadStep start ops s) :
    s.Sound start.kernel :=
  run.invariant _ (fun _ _ _ sound step => step.sound sound) fresh.sound

/-- Every creation that succeeds is a step. -/
theorem ThreadStep.of_create {procDesc : Option Nat} {t : Nat}
    (new : ∀ x ∈ live, x.thread ≠ t) (created : schedCreateThread k procDesc t = .ok (.sOk, k')) :
    ∃ o, o.thread = t ∧
      ThreadStep ⟨k, live, exited⟩ (.create procDesc t) ⟨k', live ++ [o], exited⟩ := by
  obtain ⟨o, rfl, records, mapped, -⟩ := schedCreateThread_created created
  exact ⟨o, rfl, .create new created records mapped.regions⟩

/-- A stack is placed as it should be for every table and every size of whole pages but one.  After
every run, the stacks that are in the table of a process are guarded, and those of the live
threads are all there. -/
theorem stacks_guarded {regions : List KVmmRegion} {size : Nat} (whole : size % pageSize = 0)
    (fits : size < 2 ^ 32) (fresh : start.Fresh) (run : Run ThreadStep start ops s) :
    ((∀ a, schedFindProperStackLocation regions size = .ok a → StackPlaced regions size a) ↔
      size ≠ 0xFFFFF000) ∧
    ∀ p, ∃ placed, s.kernel.regions p = start.kernel.regions p ++ placed ∧
      placed.Perm (ownedIn p s.live ++ kernelStacksIn p s.exited) ∧
      StacksGuarded (start.kernel.regions p) placed := by
  refine ⟨stackPlaced_iff whole fits, fun p => ?_⟩
  obtain ⟨placed, table, below, perm⟩ := (fresh.run run).tables p
  exact ⟨placed, table, perm, below.guarded⟩

end

/-- The two stacks of a user thread. -/
theorem stacks_guarded_user :
    ∃ s, Run ThreadStep ⟨.oneProcess, [], []⟩ [.create (some 0) 16] s ∧
      (s.kernel.regions 0).map KVmmRegion.virtAddr = [0xBFFFC000, 0xBFFF9000] ∧
      ((∀ a, schedFindProperStackLocation [] 0x2000 = .ok a → StackPlaced [] 0x2000 a) ↔
        0x2000 ≠ 0xFFFFF000) ∧
      ∃ placed, s.kernel.regions 0 = KernelState.oneProcess.regions 0 ++ placed ∧
        StacksGuarded (KernelState.oneProcess.regions 0) placed := by
  obtain ⟨⟨hr, k⟩, created, known⟩ := exists_of_known (show
    (schedCreateThread .oneProcess (some 0) 16).toOption.map
      (fun result => (result.1, (result.2.regions 0).map KVmmRegion.virtAddr)) =
        some (.sOk, [0xBFFFC000, 0xBFFF9000]) by decide +kernel)
  obtain ⟨rfl, addresses⟩ := Prod.mk.inj known
  obtain ⟨o, -, step⟩ := ThreadStep.of_create (List.forall_mem_nil _) created
  have run : Run ThreadStep ⟨.oneProcess, [], []⟩ [.create (some 0) 16] _ := .single step
  obtain ⟨search, tables⟩ := @stacks_guarded _ _ _ [] 0x2000 (by decide) (by decide) ⟨rfl, rfl⟩ run
  obtain ⟨placed, table, -, guarded⟩ := tables 0
  exact ⟨_, run, addresses, search, placed, table, guarded⟩

/-- With the largest size of whole pages, the place that is found is where a region is. -/
theorem stack_not_placed :
    schedFindProperStackLocation [⟨0x1000000, 0x400000, 0x2000, usageUser, accessRead⟩] 0xFFFFF000 =
        .ok 0x400000 ∧
      ¬ StackPlaced [⟨0x1000000, 0x400000, 0x2000, usageUser, accessRead⟩] 0xFFFFF000 0x400000 := by
  refine ⟨by rfl, fun placed => ?_⟩
  have below := placed.below
  omega

end Antonix.Threads
