import Antonix.Scheduler.ThreadSystem

/-! # What threads leave behind

`destroy_thread_struct` does not unmap the kernel stack.  Its region stays in the
table of the process and its blocks stay marked, so threads that run one after
another fill the table. -/

namespace Antonix.Threads

open Function Sched Set Transition

/-- The table of the process and the bitmap are what they would be if the threads that have exited
had never been created. -/
structure Released (start : KernelState) (s : ThreadSystem) (p : Nat) : Prop where
  table : (s.kernel.regions p).Perm (start.regions p ++ ownedIn p s.live)
  bitmap : s.kernel.vmm.kpmm.bits =
    start.vmm.kpmm.bits ∪ ⋃ r ∈ s.live.flatMap StackOwner.owned, r.frames

section

variable {first : KernelState} {start s s' : ThreadSystem} {op : ThreadOp} {ops : List ThreadOp}

theorem IsStack.frames_nonempty {r : KVmmRegion} (isStack : IsStack r) : r.frames.Nonempty := by
  rw [KVmmRegion.frames, isStack.size]
  exact nonempty_Ico.mpr (Nat.lt_add_of_pos_right (by decide))

/-- One region for each thread of the process that has exited is too many. -/
theorem ThreadSystem.Sound.length_eq (sound : s.Sound first) (p : Nat) :
    (s.kernel.regions p).length = (first.regions p).length + (ownedIn p s.live).length +
      s.exited.countP (·.proc = p) := by
  obtain ⟨placed, regions, -, perm⟩ := sound.tables p
  have total := perm.length_eq
  rw [List.length_append, kernelStacksIn, List.length_map, ← List.countP_eq_length_filter] at total
  rw [regions, List.length_append, total, Nat.add_assoc]

/-- The table of a process is as if none of its threads that have exited had been created, only if
there are none. -/
theorem ThreadSystem.Sound.table_iff (sound : s.Sound first) (p : Nat) :
    (s.kernel.regions p).Perm (first.regions p ++ ownedIn p s.live) ↔
      ∀ o ∈ s.exited, o.proc ≠ p := by
  have length := sound.length_eq p
  constructor
  · -- the table is longer by one region for each of them
    intro perm o member same
    have total := perm.length_eq
    have some : 0 < s.exited.countP (·.proc = p) :=
      List.countP_pos_iff.mpr ⟨o, member, decide_eq_true same⟩
    rw [List.length_append] at total
    omega
  · intro none
    obtain ⟨placed, regions, -, perm⟩ := sound.tables p
    have nothing : kernelStacksIn p s.exited = [] := by
      rw [kernelStacksIn, List.filter_eq_nil_iff.mpr (by simpa using none), List.map_nil]
    rw [nothing, List.append_nil] at perm
    rw [regions]
    exact perm.append_left _

/-- The blocks of the stack that is left are neither reserved nor those of a live thread. -/
theorem ThreadSystem.Sound.bitmap_iff (sound : s.Sound first) :
    s.kernel.vmm.kpmm.bits = first.vmm.kpmm.bits ∪ (⋃ r ∈ s.live.flatMap StackOwner.owned, r.frames) ↔
      s.exited = [] := by
  have frames := sound.frames
  constructor
  · intro released
    cases exited : s.exited with
    | nil => rfl
    | cons o later =>
      have isStack : IsStack o.kernelStack :=
        sound.areStacks o (by simp [exited]) _ List.mem_cons_self
      obtain ⟨block, inside⟩ := isStack.frames_nonempty
      rw [exited, List.map_cons] at frames
      have moved := frames.perm List.perm_middle
      have marked : block ∈ s.kernel.vmm.kpmm.bits := moved.marked List.mem_cons_self inside
      -- the law says that it is reserved or that a live thread owns it
      rw [released] at marked
      refine absurd marked (disjoint_left.mp (moved.apart.mono_right ?_) inside)
      apply union_subset_union_right
      apply biUnion_subset_biUnion_left
      exact fun r member => List.mem_append_left _ member
  · intro none
    rw [none, List.map_nil, List.append_nil] at frames
    exact frames.bits_eq

/-- A thread has exited when a call says so. -/
theorem exited_iff (fresh : start.Fresh) (run : Run ThreadStep start ops s) :
    s.exited = [] ↔ ∀ t, ThreadOp.exit t ∉ ops := by
  let Told (past : List ThreadOp) (s : ThreadSystem) : Prop :=
    s.exited = [] ↔ ∀ t, ThreadOp.exit t ∉ past
  refine run.history Told (by simp [Told, fresh.exited]) ?_
  intro past s op s' told step
  cases step with
  | create => simpa [Told] using told
  | exit =>
    refine iff_of_false (List.cons_ne_nil _ _) fun none => ?_
    exact none _ (List.mem_append_right past List.mem_cons_self)
  | tick => simpa [Told] using told

/-- How many threads of the process have been created. -/
def ThreadSystem.created (s : ThreadSystem) (p : Nat) : Nat :=
  (s.live ++ s.exited).countP (·.proc = p)

/-- Every thread ever created holds on to a region. -/
theorem ThreadSystem.Sound.created_le (sound : s.Sound first) (p : Nat) :
    (first.regions p).length + s.created p ≤ (s.kernel.regions p).length := by
  have owned (owners : List StackOwner) :
      owners.countP (·.proc = p) ≤ (ownedIn p owners).length := by
    induction owners with
    | nil => exact Nat.zero_le _
    | cons o owners inductionHypothesis =>
      by_cases here : p = o.proc
      · subst here
        rw [ownedIn_cons_self, List.length_append, StackOwner.owned, List.length_cons,
          List.countP_cons_of_pos (by simp)]
        omega
      · rw [ownedIn_cons_of_ne here, List.countP_cons_of_neg (by simpa using Ne.symm here)]
        exact inductionHypothesis
  have some := owned s.live
  rw [sound.length_eq p, ThreadSystem.created, List.countP_append]
  omega

/-- A thread cannot be created for a process whose table is full. -/
theorem schedCreateThread_full {k : KernelState} {procDesc : Option Nat} {t a physAddr : Nat}
    {sched : SchedState} {kpmm : Bitmap 32}
    (initialized : schedInitThread k.sched procDesc t = .ok sched)
    (full : (k.regions (sched.threads t).process).length = maxVmRegions)
    (found : schedFindProperStackLocation (k.regions (sched.threads t).process) stackSizeKernel =
      .ok a)
    (taken : kpmmAlloc k.vmm.kpmm (stackSizeKernel / pageSize) = (.ok physAddr, kpmm)) :
    schedCreateThread k procDesc t =
      .error (.panic "Maximum count of virtual memory regions reached.") := by
  rw [KernelState.regions] at full found
  have mapped (usage : Nat) : vmmAllocAndMap k.vmm (some (sched.threads t).process) a
      stackSizeKernel usage accessReadWrite =
        .error (.panic "Maximum count of virtual memory regions reached.") := by
    rw [vmmAllocAndMap, taken]
    simp only [vmmMapRegion, procOfDesc, full, if_pos]
  rw [schedCreateThread, initialized]
  simp only [mapStack, found, mapped, bind, Except.bind]

/-- What threads that exit took is released in the runs in which none exits, and in no other: the
table keeps a region for each, so that no run creates more threads of a process than its table
has entries left. -/
theorem thread_exit_releases_iff (fresh : start.Fresh) (run : Run ThreadStep start ops s)
    (p : Nat) :
    (Released start.kernel s p ↔ ∀ t, ThreadOp.exit t ∉ ops) ∧
      ((s.kernel.regions p).Perm (start.kernel.regions p ++ ownedIn p s.live) ↔
        ∀ o ∈ s.exited, o.proc ≠ p) ∧
      ((start.kernel.regions p).length ≤ maxVmRegions →
        (start.kernel.regions p).length + s.created p ≤ maxVmRegions) := by
  have sound := fresh.run run
  refine ⟨?_, sound.table_iff p, fun few => (sound.created_le p).trans (sound.room p few)⟩
  rw [← exited_iff fresh run]
  constructor
  · exact fun released => sound.bitmap_iff.mp released.bitmap
  · intro none
    exact ⟨(sound.table_iff p).mpr (by simp [none]), sound.bitmap_iff.mpr none⟩

end

/-- A thread that has not exited holds on to what it took. -/
theorem thread_exit_releases_iff_create :
    ∃ s, Run ThreadStep ⟨.oneProcess, [], []⟩ [.create (some 0) 16] s ∧
      Released .oneProcess s 0 := by
  obtain ⟨k, created⟩ := exists_of_value (show
    (schedCreateThread .oneProcess (some 0) 16).toOption.map Prod.fst = some .sOk by decide +kernel)
  obtain ⟨o, -, step⟩ := ThreadStep.of_create (List.forall_mem_nil _) created
  have run : Run ThreadStep ⟨.oneProcess, [], []⟩ [.create (some 0) 16] _ := .single step
  exact ⟨_, run, (thread_exit_releases_iff ⟨rfl, rfl⟩ run 0).1.mpr (by simp)⟩

/-- A thread that has exited, with the kernel stack that it leaves. -/
theorem thread_exit_leaves_stack :
    ∃ s, Run ThreadStep ⟨.oneProcess, [], []⟩ [.create (some 0) 16, .tick, .exit 16] s ∧
      s.live = [] ∧ (s.kernel.regions 0).map KVmmRegion.virtAddr = [0xBFFFC000] ∧
      ¬Released .oneProcess s 0 := by
  obtain ⟨⟨hr₁, hr₂, k₂⟩, returned, known⟩ := exists_of_known (show
    (do
      let first ← schedCreateThread .oneProcess (some 0) 16
      let sched ← schedUpdate first.2.sched
      let last ← schedExitThread { first.2 with sched } 16
      .ok (first.1, last) : Except Halt _).toOption.map
        (fun result => (result.1, result.2.1, (result.2.2.regions 0).map KVmmRegion.virtAddr)) =
          some (.sOk, .sOk, [0xBFFFC000]) by decide +kernel)
  obtain ⟨⟨hr, k₁⟩, created, returned⟩ := exists_of_bind returned
  obtain ⟨sched, ticked, returned⟩ := exists_of_bind returned
  obtain ⟨⟨hr', k⟩, exits, returned⟩ := exists_of_bind returned
  obtain ⟨rfl, rfl, rfl⟩ := eq_of_answered returned
  simp only [Prod.mk.injEq] at known
  obtain ⟨rfl, rfl, regions⟩ := known
  obtain ⟨o, isO, create⟩ := ThreadStep.of_create (List.forall_mem_nil _) created
  rw [← isO] at exits
  have exit := @ThreadStep.exit _ _ [] [] [] o exits
  rw [isO] at exit
  refine ⟨_, .cons create (.cons (.tick ticked) (.single exit)), rfl, regions, fun released => ?_⟩
  have length := congrArg List.length regions
  have same := released.table.length_eq
  rw [List.length_map] at length
  exact Nat.one_ne_zero (length.symm.trans same)

end Antonix.Threads
