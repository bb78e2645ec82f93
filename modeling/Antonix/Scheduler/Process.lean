import Antonix.MmVirt.Windows
import Antonix.Scheduler.Spec
import Antonix.Scheduler.ThreadSystem

/-! # Creating a process (`scheduler.c`)

`sched_create_process` with the memory of the main thread: the new process has an
empty page directory, into which the two stacks are mapped.  What the current
process has mapped changes only where the window for the first frame was. -/

namespace Antonix.Threads

open Function Set

/-- `sched_get_current_proc` -/
def schedGetCurrentProc (k : KernelState) : Except HResult Nat :=
  match k.sched.current with
  | none => .error .eFail
  | some current => .ok (k.process current)

/-- The descriptor `proc` as `sched_create_process` fills it in, with an empty directory. -/
def KernelState.addProcess (k : KernelState) (proc : Nat) : KernelState :=
  { k with
    sched := { k.sched with freePid := k.sched.freePid + 1 }.setProc proc
      ⟨k.sched.freePid, fun _ => 0, 0⟩
    vmm := { k.vmm with
      procs := update k.vmm.procs proc ⟨k.sched.freePid, [], fun _ => .zero⟩ }
    mode := update k.mode proc .user }

/-- Put a process into `process_array`. -/
def KernelState.enlist (k : KernelState) (proc : Nat) : KernelState :=
  { k with
    sched := { k.sched with processArray := k.sched.processArray ++ [proc] }
    vmm := { k.vmm with processArray := k.vmm.processArray ++ [proc] } }

/-- `sched_create_process` with the descriptors of the process and of its main thread allocated at
`proc` and `t`: the status, and the pid where it is set. -/
def schedCreateProcess (k : KernelState) (proc t : Nat) :
    Except Halt (HResult × Option Nat × KernelState) :=
  if Sched.maxProcesses ≤ k.sched.processArray.length then .ok (.eFail, none, k)
  else do
    let pid := k.sched.freePid
    let (hr, k) ← schedCreateThread (k.addProcess proc) (some proc) t
    if hr.failed then .ok (hr, none, k) else .ok (hr, some pid, k.enlist proc)

/-- The process that runs; before the first switch, the kernel process. -/
def KernelState.currentProc (k : KernelState) : Nat :=
  match k.sched.current with
  | none => k.kernelProc
  | some current => k.process current

/-- The descriptors at `proc` and `t` are new ones. -/
structure KernelState.Ready (k : KernelState) (proc t : Nat) : Prop where
  tables : k.vmm.TablesApart
  pids : k.sched.PidsGiven
  newProc : proc ∉ k.sched.processArray
  notCurrent : k.currentProc ≠ proc
  newThread : k.sched.current ≠ some t

/-! ## The memory of the main thread -/

section

variable {vmm vmm' : VmmState} {k k' : KernelState} {proc t size usage a : Nat} {text : String}
  {hr : HResult}

/-- Where a region is. -/
def place (r : KVmmRegion) : Nat × Nat := (r.virtAddr, r.regionSize)

theorem mapStack_backed (returned : mapStack vmm proc size usage text = .ok (a, vmm')) :
    ∃ r, place r = (a, size) ∧ RegionBacked vmm proc r vmm' ∧
      schedFindProperStackLocation (vmm.procs proc).regions size = .ok a := by
  obtain ⟨found, mapped⟩ := mapStack_cases returned
  obtain ⟨physAddr, backed⟩ := vmmAllocAndMap_backed mapped
  exact ⟨_, rfl, backed, found⟩

/-- The first frame is written through a window of the current process. -/
theorem schedSetupThreadStack_closed {cur : Nat} (tables : k.vmm.TablesApart)
    (current : k.currentProc = cur) (positive : 0 < (k.threadStacks t).stackSize)
    (returned : schedSetupThreadStack k t = .ok (hr, vmm')) (succeeded : ¬ hr.failed = true) :
    ∃ addr, vmmTempLoop (k.regions cur) (k.threadStacks t).stackSize (2 ^ 20) kernelTempStart =
        .ok (some addr) ∧ WindowClosed k.vmm cur (k.threadStacks t).stackSize addr vmm' := by
  subst current
  rw [schedSetupThreadStack] at returned
  cases looked : vmmGetRegionPhysAddr k.vmm (some (k.process t)) (k.threadStacks t).kernelStack with
  | error hr' =>
    rw [looked] at returned
    obtain ⟨rfl, -⟩ := eq_of_returned returned
    rw [vmmGetRegionPhysAddr, procOfDesc] at looked
    dsimp only at looked
    split at looked
    · cases looked
    · rw [← Except.error.inj looked] at succeeded
      exact absurd rfl succeeded
  | ok physAddr =>
    rw [looked] at returned
    obtain ⟨⟨hr', out, vmm₁⟩, mapped, returned⟩ := exists_of_bind returned
    change vmmTempMapRegion k.vmm (some k.currentProc) _ _ = _ at mapped
    cases out with
    | none =>
      obtain ⟨rfl, -⟩ := eq_of_returned returned
      exact absurd (vmmTempMapRegion_none mapped) succeeded
    | some addr =>
      obtain ⟨-, window⟩ := vmmTempMapRegion_mapped mapped
      dsimp only at returned
      split at returned
      · contradiction
      · obtain ⟨⟨hr'', vmm₂⟩, unmapped, returned⟩ := exists_of_bind returned
        dsimp only at returned
        split at returned
        · contradiction
        · obtain ⟨-, rfl⟩ := eq_of_returned returned
          obtain ⟨vmm₃, closed, gone⟩ := window.closed tables positive
          change vmmUnmapRegion vmm₁ (some k.currentProc) addr = _ at unmapped
          obtain ⟨-, rfl⟩ := eq_of_returned (unmapped.symm.trans closed)
          exact ⟨addr, window.search, gone⟩

/-- A new directory shares no page table. -/
theorem addProcess_tables (tables : k.vmm.TablesApart) : (k.addProcess proc).vmm.TablesApart := by
  have here : ((k.addProcess proc).vmm.procs proc).pageDir = fun _ => .zero := by
    simp [KernelState.addProcess]
  have there : ∀ p, p ≠ proc → (k.addProcess proc).vmm.procs p = k.vmm.procs p :=
    fun p => (update_of_ne · _ _)
  have fewer : ∀ p, (k.addProcess proc).vmm.foreign p ⊆ k.vmm.foreign p := by
    rintro p table ⟨nonzero, other, differ, id, found⟩
    by_cases new : other = proc
    · rw [new, here] at found
      exact absurd found.symm nonzero
    · rw [there other new] at found
      exact ⟨nonzero, other, differ, id, found⟩
  intro p
  have before := tables p
  -- the new process has no tables, and every other one keeps its own
  by_cases new : p = proc
  · subst new
    have dir : ((k.addProcess p).vmm.paging p).dir = fun _ => .zero := here
    refine ⟨fun id => ?_, fun i j _ nonzero => ?_, fun id nonzero => ?_, before.poolNodup,
      fun table member => ?_⟩
    · simp [dir, KVmmPageDirEntry.zero]
    · rw [dir] at nonzero
      exact absurd rfl nonzero
    · rw [dir] at nonzero
      exact absurd rfl nonzero
    · obtain ⟨nonzero, notForeign, -⟩ := before.poolFresh table member
      refine ⟨nonzero, fun isForeign => notForeign (fewer p isForeign), fun id found => ?_⟩
      rw [dir] at found
      exact nonzero found.symm
  · have dir : ((k.addProcess proc).vmm.paging p).dir = (k.vmm.paging p).dir :=
      congrArg KProcess.pageDir (there p new)
    refine ⟨?_, ?_, fun id nonzero isForeign => ?_, before.poolNodup, fun table member => ?_⟩
    · rw [dir]
      exact before.present
    · rw [dir]
      exact before.apart
    · rw [dir] at nonzero isForeign
      exact before.own id nonzero (fewer p isForeign)
    · obtain ⟨nonzero, notForeign, fresh⟩ := before.poolFresh table member
      refine ⟨nonzero, fun isForeign => notForeign (fewer p isForeign), fun id => ?_⟩
      rw [dir]
      exact fresh id

theorem addProcess_regions : (k.addProcess proc).regions proc = [] := by
  simp [KernelState.addProcess, KernelState.regions]

theorem addProcess_present : (k.addProcess proc).vmm.RegionsPresent proc := by
  intro m
  have dir : ((k.addProcess proc).vmm.paging proc).dir = fun _ => .zero := by
    simp [KernelState.addProcess, VmmState.paging]
  have nothing : ((k.addProcess proc).vmm.procs proc).regions = [] := addProcess_regions
  rw [Paging.entry, dir, nothing]
  simp [KVmmPageDirEntry.zero, KVmmPageEntry.zero]

theorem addProcess_space {p : Nat} (other : p ≠ proc) :
    (k.addProcess proc).vmm.space p = k.vmm.space p := by
  have same : (k.addProcess proc).vmm.procs p = k.vmm.procs p := update_of_ne other _ _
  have paging : (k.addProcess proc).vmm.paging p = k.vmm.paging p := by
    simp only [VmmState.paging, same]
    rfl
  rw [VmmState.space, VmmState.space, same, paging]

end

/-- The regions `added` were mapped for the process. -/
structure SpaceBuilt (vmm : VmmState) (proc : Nat) (added : List KVmmRegion) (vmm' : VmmState) :
    Prop where
  tables : vmm'.TablesApart
  regions : (vmm'.procs proc).regions = (vmm.procs proc).regions ++ added
  present : vmm.RegionsPresent proc → vmm'.RegionsPresent proc
  others : OthersUnchanged vmm proc vmm'
  aligned : ∀ r ∈ added, r.physAddr % pageSize = 0

section

variable {vmm vmm' vmm'' : VmmState} {proc : Nat} {added later : List KVmmRegion} {r : KVmmRegion}

theorem SpaceBuilt.of_mapped (mapping : RegionMapped vmm proc r vmm') (tables : vmm.TablesApart)
    (virtSmall : r.virtAddr < 2 ^ 32) (physSmall : r.physAddr < 2 ^ 32)
    (sizeSmall : r.regionSize < 2 ^ 32) : SpaceBuilt vmm proc [r] vmm' := by
  obtain ⟨tables', others, regions, pages⟩ :=
    mapping.setsPages tables virtSmall physSmall sizeSmall
  exact ⟨tables', regions, fun present => present.mapped regions pages, others,
    List.forall_mem_singleton.mpr mapping.aligned⟩

theorem SpaceBuilt.trans (first : SpaceBuilt vmm proc added vmm')
    (second : SpaceBuilt vmm' proc later vmm'') : SpaceBuilt vmm proc (added ++ later) vmm'' where
  tables := second.tables
  regions := by rw [second.regions, first.regions, List.append_assoc]
  present present := second.present (first.present present)
  others := first.others.trans second.others
  aligned := List.forall_mem_append.mpr ⟨first.aligned, second.aligned⟩

end

/-! ## The new process -/

theorem first_stack : schedFindProperStackLocation [] stackSizeKernel = .ok 0xBFFFC000 := by decide

theorem second_stack {r : KVmmRegion} (first : r.virtAddr = 0xBFFFC000) :
    schedFindProperStackLocation [r] stackSizeUser = .ok 0xBFFF9000 := by
  rw [schedFindProperStackLocation, lowestRegion, if_pos (usage_stack_ne r.usage), first]
  rfl

/-- What `sched_create_process` leaves when it succeeds. -/
structure ProcessCreated (k : KernelState) (proc pid : Nat) (k' : KernelState) : Prop where
  given : pid = k.sched.freePid
  id : (k'.sched.procs proc).id = pid
  others : ∀ p, p ≠ proc → (k'.sched.procs p).id = (k.sched.procs p).id
  array : k'.sched.processArray = k.sched.processArray ++ [proc]
  tables : k'.vmm.TablesApart
  layout : (k'.regions proc).map place = [(0xBFFFC000, 0x2000), (0xBFFF9000, 0x2000)]
  aligned : ∀ r ∈ k'.regions proc, r.physAddr % pageSize = 0
  present : k'.vmm.RegionsPresent proc
  regions : ∀ p, p ≠ proc → k'.regions p = k.regions p
  current : schedGetCurrentProc k' = schedGetCurrentProc k ∧ k'.currentProc = k.currentProc
  loader : WindowsGone k.vmm k.currentProc [stackSizeKernel] k'.vmm

section

variable {k k' : KernelState} {proc t pid : Nat} {hr : HResult}

theorem currentProc_congr (current : k'.sched.current = k.sched.current)
    (kernelProc : k'.kernelProc = k.kernelProc)
    (process : ∀ c, k.sched.current = some c → k'.process c = k.process c) :
    schedGetCurrentProc k' = schedGetCurrentProc k ∧ k'.currentProc = k.currentProc := by
  rw [schedGetCurrentProc, schedGetCurrentProc, KernelState.currentProc, KernelState.currentProc,
    current, kernelProc]
  cases running : k.sched.current with
  | none => exact ⟨rfl, rfl⟩
  | some c => exact ⟨congrArg Except.ok (process c running), process c running⟩

/-- The two stacks of the main thread. -/
theorem stacks_built {vmm vmm₁ vmm₂ : VmmState} {kernelStack userStack : Nat} {text : String}
    (tables : vmm.TablesApart) (fresh : (vmm.procs proc).regions = [])
    (mapped : mapStack vmm proc stackSizeKernel usageKernelStack text = .ok (kernelStack, vmm₁))
    (mappedUser : mapUserStack vmm₁ proc .user = .ok (userStack, vmm₂)) :
    ∃ added, SpaceBuilt vmm proc added vmm₂ ∧
      added.map place = [(0xBFFFC000, 0x2000), (0xBFFF9000, 0x2000)] := by
  obtain ⟨r₁, place₁, backed₁, found₁⟩ := mapStack_backed mapped
  rw [fresh] at found₁
  obtain rfl := Except.ok.inj (first_stack.symm.trans found₁)
  obtain ⟨virt₁, size₁⟩ := Prod.mk.inj place₁
  have built₁ : SpaceBuilt vmm proc [r₁] vmm₁ := .of_mapped backed₁.mapping tables
    (by rw [virt₁]; decide) backed₁.physSmall (by rw [size₁]; decide)
  -- the user stack is placed below the kernel stack, with a page between them
  obtain ⟨r₂, place₂, backed₂, found₂⟩ := mapStack_backed mappedUser
  have regions₁ : (vmm₁.procs proc).regions = [r₁] := by rw [built₁.regions, fresh]; rfl
  rw [regions₁] at found₂
  obtain rfl := Except.ok.inj ((second_stack virt₁).symm.trans found₂)
  obtain ⟨virt₂, size₂⟩ := Prod.mk.inj place₂
  have built₂ : SpaceBuilt vmm₁ proc [r₂] vmm₂ := .of_mapped backed₂.mapping built₁.tables
    (by rw [virt₂]; decide) backed₂.physSmall (by rw [size₂]; decide)
  refine ⟨[r₁] ++ [r₂], built₁.trans built₂, ?_⟩
  rw [List.map_append, List.map_singleton, List.map_singleton, place₁, place₂]
  rfl

/-- What `sched_create_thread` does for a user process without threads. -/
structure ThreadBuilt (k : KernelState) (proc t : Nat) (k' : KernelState) : Prop where
  current : k'.sched.current = k.sched.current
  kernelProc : k'.kernelProc = k.kernelProc
  process : ∀ x, x ≠ t → k'.process x = k.process x
  array : k'.sched.processArray = k.sched.processArray
  ids : ∀ p, (k'.sched.procs p).id = (k.sched.procs p).id
  memory : ∃ added vmm addr, SpaceBuilt k.vmm proc added vmm ∧
    added.map place = [(0xBFFFC000, 0x2000), (0xBFFF9000, 0x2000)] ∧
    vmmTempLoop (vmm.procs k.currentProc).regions stackSizeKernel (2 ^ 20) kernelTempStart =
      .ok (some addr) ∧
    WindowClosed vmm k.currentProc stackSizeKernel addr k'.vmm

theorem schedCreateThread_built (tables : k.vmm.TablesApart) (fresh : k.regions proc = [])
    (user : k.mode proc = .user) (newThread : k.sched.current ≠ some t)
    (returned : schedCreateThread k (some proc) t = .ok (.sOk, k')) :
    ThreadBuilt k proc t k' := by
  obtain ⟨owner, kernelStack, vmm₁, userStack, vmm₂, hr, vmm₃, next, runQueue, given, mapped,
    mappedUser, setUp, succeeded, rfl⟩ := schedCreateThread_steps returned
  obtain rfl : proc = owner := given proc rfl
  rw [user] at mappedUser
  obtain ⟨added, built, layout⟩ := stacks_built tables fresh mapped mappedUser
  have process : ∀ x, x ≠ t →
      (update k.sched.threads t ⟨proc, none⟩ x).process = k.process x := by
    intro x other
    rw [update_of_ne other]
    rfl
  have current : ∀ c, k.sched.current = some c →
      (update k.sched.threads t ⟨proc, none⟩ c).process = k.process c :=
    fun c running => process c fun same => newThread (same ▸ running)
  have current₂ : (k.withStacks proc t vmm₂ userStack kernelStack).currentProc = k.currentProc :=
    (@currentProc_congr k (k.withStacks proc t vmm₂ userStack kernelStack) rfl rfl current).2
  have stackSize :
      ((k.withStacks proc t vmm₂ userStack kernelStack).threadStacks t).stackSize =
        stackSizeKernel := by
    change (update k.threadStacks t _ t).stackSize = _
    rw [update_self]
  obtain ⟨addr, search, closed⟩ := @schedSetupThreadStack_closed vmm₃ _ t hr k.currentProc
    built.tables current₂ (by rw [stackSize]; decide) setUp succeeded
  rw [stackSize] at search closed
  refine ⟨rfl, rfl, process, rfl, fun p => ?_, added, vmm₂, addr, built, layout, search, closed⟩
  by_cases here : p = proc
  · simp [KernelState.withStacks, Sched.SchedState.setProc, Sched.SchedState.setNext, here]
  · simp [KernelState.withStacks, Sched.SchedState.setProc, Sched.SchedState.setNext, here]

theorem schedCreateThread_ne_sFalse {procDesc : Option Nat}
    (returned : schedCreateThread k procDesc t = .ok (hr, k')) : hr ≠ .sFalse := by
  rw [schedCreateThread] at returned
  cases initialized : Sched.schedInitThread k.sched procDesc t with
  | error hr' =>
    rw [initialized] at returned
    obtain ⟨rfl, -⟩ := eq_of_returned returned
    rw [schedInitThread_error initialized]
    decide
  | ok sched =>
    rw [initialized] at returned
    obtain ⟨stack, -, returned⟩ := exists_of_bind returned
    obtain ⟨userStack, -, returned⟩ := exists_of_bind returned
    obtain ⟨outcome, -, returned⟩ := exists_of_bind returned
    dsimp only at returned
    split at returned
    · cases returned
    · obtain ⟨sched, -, returned⟩ := exists_of_bind returned
      obtain ⟨rfl, -⟩ := eq_of_returned returned
      decide

theorem schedCreateProcess_created (ready : k.Ready proc t)
    (returned : schedCreateProcess k proc t = .ok (hr, some pid, k')) :
    ProcessCreated k proc pid k' := by
  rw [schedCreateProcess] at returned
  split at returned
  · cases (eq_of_answered returned).2.1
  obtain ⟨⟨hr₁, k₁⟩, created, stored⟩ := exists_of_bind returned
  dsimp only at stored
  split at stored
  · cases (eq_of_answered stored).2.1
  next succeeded =>
  obtain ⟨-, isPid, rfl⟩ := eq_of_answered stored
  obtain rfl := Option.some.inj isPid
  have notCurrent := ready.notCurrent
  have isOk : hr₁ = .sOk := HResult.eq_sOk (schedCreateThread_ne_sFalse created) succeeded
  rw [isOk] at created
  have thread := schedCreateThread_built (addProcess_tables ready.tables) addProcess_regions
    (update_self _ _ _) ready.newThread created
  obtain ⟨added, vmm, addr, built, layout, search, closed⟩ := thread.memory
  change WindowClosed vmm k.currentProc stackSizeKernel addr k₁.vmm at closed
  change vmmTempLoop (vmm.procs k.currentProc).regions _ _ _ = _ at search
  have table : k₁.regions proc = added := by
    rw [KernelState.regions, closed.regions, built.regions]
    exact congrArg (· ++ added) addProcess_regions
  have loaderSpace : vmm.space k.currentProc = k.vmm.space k.currentProc :=
    (built.others _ notCurrent).trans (addProcess_space notCurrent)
  have gone := (WindowsGone.of_space loaderSpace).trans (closed.gone search)
  have process : ∀ c, k.sched.current = some c → (k₁.enlist proc).process c = k.process c :=
    fun c running => thread.process c fun same => ready.newThread (same ▸ running)
  exact
    { given := rfl
      id := (thread.ids proc).trans (by simp [KernelState.addProcess, Sched.SchedState.setProc])
      others := fun p other => (thread.ids p).trans
        (by simp [KernelState.addProcess, Sched.SchedState.setProc, other])
      array := congrArg (· ++ [proc]) thread.array
      tables := closed.tables
      layout := by
        change (k₁.regions proc).map place = _
        rw [table, layout]
      aligned := by
        change ∀ r ∈ k₁.regions proc, _
        rw [table]
        exact built.aligned
      present := (built.present addProcess_present).others closed.others notCurrent.symm
      regions := fun p other => by
        change (k₁.vmm.procs p).regions = _
        rw [closed.regions]
        exact (congrArg AddressSpace.regions ((built.others p other).trans
          (addProcess_space other)))
      current := @currentProc_congr k (k₁.enlist proc) thread.current thread.kernelProc process
      loader := ⟨gone.regions, gone.inside, gone.outside⟩ }

end

end Antonix.Threads
