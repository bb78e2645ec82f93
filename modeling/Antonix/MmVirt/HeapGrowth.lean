import Antonix.MmVirt.AddressSpace
import Antonix.MmVirt.Disjointness

/-! # How often a process can get a heap

`vmm_create_heap` places a heap at the end of the kernel's regions but records it
with the process, so the end does not move and the next heap is asked for at the
same address.  A sequence of requests is granted only when all but the first are
for nothing. -/

namespace Antonix

open Set Transition

/-- `vmm_create_heap(pid, size, usage)` for a pair of size and usage. -/
def HeapStep (pid : Nat) (state : VmmState) (request : Nat × Nat) (state' : VmmState) : Prop :=
  VmmStep state (.createHeap pid request.1 request.2) state'

/-- There are physical memory, a free entry for the region, page tables and addresses for the next
heap. -/
structure HeapRoom (state : VmmState) (proc endKs size : Nat) : Prop where
  whole : size % pageSize = 0
  fits : endKs + size < 2 ^ 32
  memory : ∃ ptr kpmm, kpmmFindFreeRegion state.kpmm (size / pageSize) = .ok ptr ∧
    kpmmMarkBlocks state.kpmm ptr (size / pageSize) = (.sOk, kpmm)
  slots : (state.procs proc).regions.length ≠ maxVmRegions
  tables : (endKs / pageSize + size / pageSize - 1) / 1024 - endKs / pageSize / 1024 + 1 ≤
    state.pool.length

/-- The call returns `S_OK` and a range apart from all regions of the process. -/
def HeapGranted (pid proc : Nat) (state : VmmState) (request : Nat × Nat) : Prop :=
  ∃ addr state', vmmCreateHeap state pid request.1 request.2 = .ok (.sOk, some addr, state') ∧
    ∀ r ∈ (state.procs proc).regions, Disjoint r.range (Ico addr (addr + request.1))

/-- The region starts in the range, ends in it, or encloses it. -/
def KVmmRegion.Hits (r : KVmmRegion) (start size : Nat) : Prop :=
  (start ≤ r.virtAddr ∧ r.virtAddr < start + size) ∨
    (start < r.virtAddr + r.regionSize ∧ r.virtAddr + r.regionSize ≤ start + size) ∨
    r.Encloses start size

/-- The first request is for a range that no region hits, and the later ones are for nothing. -/
def HeapsFit (regions : List KVmmRegion) (endKs : Nat) : List (Nat × Nat) → Prop
  | [] => True
  | first :: later => (first.1 = 0 ∨ ∀ r ∈ regions, ¬r.Hits endKs first.1) ∧
      ∀ request ∈ later, request.1 = 0

section

variable {state state' : VmmState} {pid proc endKs size usage : Nat}

theorem kpmmFindFreeRegion_aligned {bitmap : Bitmap 32} {numBlocks ptr : Nat}
    (found : kpmmFindFreeRegion bitmap numBlocks = .ok ptr) : ptr % pageSize = 0 := by
  rw [kpmmFindFreeRegion] at found
  split at found
  · simp only [Except.ok.injEq] at found
    rw [← found, u32]
    simp only [pageSize]
    omega
  · contradiction

theorem schedFindProcess_setProc (kpmm : Bitmap 32) (paging : Paging)
    (regions : List KVmmRegion) :
    schedFindProcess ({ state with kpmm }.setProc proc paging regions) pid =
      schedFindProcess state pid := by
  simp only [schedFindProcess, VmmState.setProc_id]
  rfl

/-- A call that has what it needs returns the end of the kernel's regions, and what is mapped
there decides about the status. -/
theorem HeapRoom.createHeap (room : HeapRoom state proc endKs size) (sound : state.Sound)
    (live : schedFindProcess state pid = .ok proc)
    (end_eq : vmmGetAddressSpaceEndKs state = .ok endKs) (usage : Nat) :
    ∃ hr state', vmmCreateHeap state pid size usage = .ok (hr, some endKs, state') ∧
      schedFindProcess state' pid = .ok proc ∧ vmmGetAddressSpaceEndKs state' = .ok endKs ∧
      ((hr = .sOk ∧
        (∀ r ∈ (state.procs proc).regions, r.overlaps endKs (u32 (endKs + size)) = false) ∧
        ∃ r, r.virtAddr = endKs ∧
          (state'.procs proc).regions = (state.procs proc).regions ++ [r]) ∨
      (hr = .eFail ∧
        (∃ r ∈ (state.procs proc).regions, r.overlaps endKs (u32 (endKs + size)) = true) ∧
        (state'.procs proc).regions = (state.procs proc).regions)) := by
  obtain ⟨ptr, kpmm, found, marked⟩ := room.memory
  have whole := room.whole
  have fits := room.fits
  have aligned := kpmmFindFreeRegion_aligned found
  have blocks : u32 (size + (pageSize - 1)) / pageSize = size / pageSize := by
    rw [u32_of_lt (by simp only [pageSize] at *; omega)]
    simp only [pageSize] at *
    omega
  -- marking blocks moves no region of the kernel
  have stays : vmmGetAddressSpaceEndKs { state with kpmm } = .ok endKs := end_eq
  have call : ∀ {hr : HResult} {state'}, vmmMapRegion { state with kpmm } (some proc) ptr endKs size
      (usage ||| usageHeap) accessReadWrite = .ok (hr, state') →
      vmmCreateHeap state pid size usage = .ok (hr, some endKs, state') := by
    intro hr state' mapped
    rw [vmmCreateHeap, if_neg (not_not.mpr whole)]
    simp only [live, blocks, found, marked, stays, bind, Except.bind, mapped]
  by_cases overlap : ∃ r ∈ (state.procs proc).regions,
      r.overlaps endKs (u32 (endKs + size)) = true
  · refine ⟨_, _, call (vmmMapRegion_overlap rfl room.slots whole aligned overlap), live, end_eq,
      .inr ⟨rfl, overlap, rfl⟩⟩
  · have apart : ∀ r ∈ (state.procs proc).regions,
        r.overlaps endKs (u32 (endKs + size)) = false := by simpa using overlap
    let r : KVmmRegion := ⟨ptr, endKs, size, usage ||| usageHeap, accessReadWrite⟩
    have enough : (if ((state.paging proc).dir (endKs / pageSize / 1024)).pageTableAddr = 0 then 1
        else 0) + ((endKs / pageSize + size / pageSize - 1) / 1024 - endKs / pageSize / 1024) ≤
        (state.paging proc).pool.length := by
      have tables : _ ≤ (state.paging proc).pool.length := room.tables
      split <;> omega
    obtain ⟨paging, mapped⟩ : ∃ paging, vmmMapPages r.fRw r.fUs (size / pageSize) ptr endKs
        (state.paging proc) = .ok paging := by
      refine vmmMapPages_ok (fun table member => ((sound.tables proc).poolFresh table member).1) ?_
        fun _ => enough
      have := Nat.div_mul_le_self size pageSize
      omega
    refine ⟨_, _, call (vmmMapRegion_ok (r := r) rfl room.slots whole aligned apart mapped), ?_,
      end_eq, .inl ⟨rfl, apart, r, rfl, by simp⟩⟩
    rw [schedFindProcess_setProc]
    exact live

theorem HeapRoom.granted_iff (room : HeapRoom state proc endKs size) (sound : state.Sound)
    (live : schedFindProcess state pid = .ok proc)
    (end_eq : vmmGetAddressSpaceEndKs state = .ok endKs) (usage : Nat) :
    HeapGranted pid proc state (size, usage) ↔
      size = 0 ∨ ∀ r ∈ (state.procs proc).regions, ¬r.Hits endKs size := by
  obtain ⟨hr, state', created, -, -, outcome⟩ := room.createHeap sound live end_eq usage
  -- what the overlap test finds: regions that start or end in the range, not those around it
  have test : ∀ r ∈ (state.procs proc).regions, (r.overlaps endKs (u32 (endKs + size)) = true ↔
      (endKs ≤ r.virtAddr ∧ r.virtAddr < endKs + size) ∨
        (endKs < r.virtAddr + r.regionSize ∧ r.virtAddr + r.regionSize ≤ endKs + size)) := by
    intro r member
    rw [KVmmRegion.overlaps, (sound.fits proc r member).endAddr_eq, u32_of_lt room.fits]
    simp only [Bool.or_eq_true, Bool.and_eq_true, decide_eq_true_eq]
  constructor
  · rintro ⟨addr, after, returned, disjoint⟩
    rw [created] at returned
    obtain ⟨rfl, place, rfl⟩ := eq_of_answered returned
    obtain rfl := Option.some.inj place
    obtain ⟨-, apart, -⟩ := outcome.resolve_right (by simp)
    refine or_iff_not_imp_left.mpr fun nonempty r member hits => ?_
    have notTested := mt (test r member).mpr (by simp [apart r member])
    rw [KVmmRegion.Hits, ← or_assoc] at hits
    have encloses := hits.resolve_left notTested
    exact disjoint_left.mp (disjoint r member) ⟨encloses.1.le, by have := encloses.2; omega⟩
      ⟨le_rfl, by omega⟩
  · intro clear
    have apart : ∀ r ∈ (state.procs proc).regions,
        r.overlaps endKs (u32 (endKs + size)) = false := by
      intro r member
      rw [Bool.eq_false_iff, Ne, test r member]
      intro overlaps
      cases clear with
      | inl empty => omega
      | inr clear => exact clear r member (or_assoc.mp (.inl overlaps))
    obtain ⟨rfl, -, -⟩ := outcome.resolve_right (by
      rintro ⟨-, ⟨r, member, overlaps⟩, -⟩
      simp [apart r member] at overlaps)
    refine ⟨endKs, state', created, fun r member => ?_⟩
    rw [KVmmRegion.range, Ico_disjoint_Ico]
    have notTested := mt (test r member).mpr (by simp [apart r member])
    cases clear with
    | inl empty => simp [empty]
    | inr clear =>
      have notEnclosed : ¬r.Encloses endKs size := fun encloses =>
        clear r member (.inr (.inr encloses))
      rw [KVmmRegion.Encloses] at notEnclosed
      omega

/-- What does not change from call to call. -/
structure HeapOwner (pid proc endKs : Nat) (state : VmmState) : Prop where
  sound : state.Sound
  live : schedFindProcess state pid = .ok proc
  endKs : vmmGetAddressSpaceEndKs state = .ok endKs

/-- The state behind a step is the one that the call returns. -/
theorem HeapStep.eq_of_created {hr : HResult} {out : Option Nat} {after : VmmState}
    (step : HeapStep pid state (size, usage) state')
    (created : vmmCreateHeap state pid size usage = .ok (hr, out, after)) : after = state' := by
  obtain ⟨hr', returned⟩ := step
  simp only [VmmCall.run, created, bind, Except.bind] at returned
  exact (eq_of_returned returned).2

theorem HeapOwner.step (owner : HeapOwner pid proc endKs state)
    (room : HeapRoom state proc endKs size) (step : HeapStep pid state (size, usage) state') :
    HeapOwner pid proc endKs state' ∧
      ∀ r ∈ (state.procs proc).regions, r ∈ (state'.procs proc).regions := by
  have fits : VmmCall.fits state (.createHeap pid size usage) := by
    intro virtAddr endKs
    rw [owner.endKs, Except.ok.injEq] at endKs
    exact endKs ▸ room.fits
  obtain ⟨hr, after, created, live, endKs, outcome⟩ :=
    room.createHeap owner.sound owner.live owner.endKs usage
  obtain rfl := step.eq_of_created created
  refine ⟨⟨(VmmStep.refines step owner.sound fits).1, live, endKs⟩, fun r member => ?_⟩
  cases outcome with
  | inl granted =>
    obtain ⟨-, -, x, -, regions⟩ := granted
    rw [regions]
    exact List.mem_append_left _ member
  | inr refused => rwa [refused.2.2]

theorem HeapRoom.step (room : HeapRoom state proc endKs size)
    (owner : HeapOwner pid proc endKs state) (usage : Nat) :
    ∃ state', HeapStep pid state (size, usage) state' := by
  obtain ⟨hr, state', created, -⟩ := room.createHeap owner.sound owner.live owner.endKs usage
  exact ⟨state', hr, by simp [VmmCall.run, created, bind, Except.bind]⟩

/-- A heap that has been granted lies where the next one is asked for. -/
theorem HeapGranted.occupies (granted : HeapGranted pid proc state (size, usage))
    (owner : HeapOwner pid proc endKs state) (room : HeapRoom state proc endKs size)
    (step : HeapStep pid state (size, usage) state') :
    ∃ r ∈ (state'.procs proc).regions, r.virtAddr = endKs := by
  obtain ⟨hr, after, created, -, -, outcome⟩ :=
    room.createHeap owner.sound owner.live owner.endKs usage
  obtain rfl := step.eq_of_created created
  obtain ⟨addr, after', returned, -⟩ := granted
  rw [created] at returned
  obtain ⟨rfl, -, -⟩ := eq_of_answered returned
  obtain ⟨-, -, r, here, regions⟩ := outcome.resolve_right (by simp)
  exact ⟨r, by simp [regions], here⟩

/-- Once a region starts at the end of the kernel's regions, only empty requests are granted. -/
theorem HeapOwner.granted_iff_empty : ∀ {state : VmmState} {requests : List (Nat × Nat)},
    HeapOwner pid proc endKs state → (∃ r ∈ (state.procs proc).regions, r.virtAddr = endKs) →
    Along (HeapStep pid) (fun state request => HeapRoom state proc endKs request.1) state requests →
    (Along (HeapStep pid) (HeapGranted pid proc) state requests ↔
      ∀ request ∈ requests, request.1 = 0)
  | _, [], _, _, _ => by simp [Along]
  | state, (size, usage) :: requests, owner, occupied, rooms => by
    obtain ⟨room, rest⟩ := rooms
    have here := room.granted_iff owner.sound owner.live owner.endKs usage
    -- every range that is not empty starts where the region does
    have hit : size ≠ 0 → ¬∀ r ∈ (state.procs proc).regions, ¬r.Hits endKs size := by
      obtain ⟨r, member, starts⟩ := occupied
      intro nonempty clear
      exact clear r member (.inl ⟨starts.ge, by omega⟩)
    have later : ∀ state', HeapStep pid state (size, usage) state' →
        (Along (HeapStep pid) (HeapGranted pid proc) state' requests ↔
          ∀ request ∈ requests, request.1 = 0) := by
      intro state' step
      obtain ⟨owner', kept⟩ := owner.step room step
      obtain ⟨r, member, starts⟩ := occupied
      exact HeapOwner.granted_iff_empty owner' ⟨r, kept r member, starts⟩ (rest state' step)
    rw [Along, here, List.forall_mem_cons]
    constructor
    · rintro ⟨clear, granted⟩
      obtain ⟨state', step⟩ := room.step owner usage
      refine ⟨?_, (later state' step).mp (granted state' step)⟩
      by_contra nonempty
      exact hit nonempty (clear.resolve_left nonempty)
    · rintro ⟨empty, rest⟩
      exact ⟨.inl empty, fun state' step => (later state' step).mpr rest⟩

end

/-- With all the memory, entries, page tables and addresses that they need, the calls of a sequence
all return a heap apart from the regions there are if and only if the first range asked for is
not hit and the later requests are for nothing. -/
theorem vmm_heap_growth {state : VmmState} {pid proc endKs : Nat} {requests : List (Nat × Nat)}
    (sound : state.Sound) (live : schedFindProcess state pid = .ok proc)
    (end_eq : vmmGetAddressSpaceEndKs state = .ok endKs)
    (rooms : Along (HeapStep pid) (fun state request => HeapRoom state proc endKs request.1)
      state requests) :
    Along (HeapStep pid) (HeapGranted pid proc) state requests ↔
      HeapsFit (state.procs proc).regions endKs requests := by
  have owner : HeapOwner pid proc endKs state := ⟨sound, live, end_eq⟩
  cases requests with
  | nil => exact iff_of_true trivial trivial
  | cons first later =>
    obtain ⟨size, usage⟩ := first
    obtain ⟨room, rest⟩ := rooms
    have here := room.granted_iff sound live end_eq usage
    have after : HeapGranted pid proc state (size, usage) →
        ∀ state', HeapStep pid state (size, usage) state' →
          (Along (HeapStep pid) (HeapGranted pid proc) state' later ↔
            ∀ request ∈ later, request.1 = 0) := by
      intro granted state' step
      exact (owner.step room step).1.granted_iff_empty (granted.occupies owner room step)
        (rest state' step)
    rw [Along, HeapsFit, ← here]
    constructor
    · rintro ⟨granted, grants⟩
      obtain ⟨state', step⟩ := room.step owner usage
      exact ⟨granted, (after granted state' step).mp (grants state' step)⟩
    · rintro ⟨granted, empty⟩
      exact ⟨granted, fun state' step => (after granted state' step).mpr empty⟩

/-- The first heap of a process. -/
theorem vmm_heap_growth_first :
    ∃ addr state, vmmCreateHeap .oneProcess 0 0x1000 usageUser = .ok (.sOk, some addr, state) ∧
      ∀ r ∈ (VmmState.oneProcess.procs 0).regions, Disjoint r.range (Ico addr (addr + 0x1000)) := by
  have room : HeapRoom .oneProcess 0 0xC0400000 0x1000 :=
    ⟨by decide, by decide, ⟨_, _, by rfl, by rfl⟩, by decide, by decide⟩
  have fit : HeapsFit (VmmState.oneProcess.procs 0).regions 0xC0400000 [(0x1000, usageUser)] := by
    refine ⟨.inr fun r member => ?_, fun request member => ?_⟩
    · contradiction
    · contradiction
  exact ((vmm_heap_growth VmmState.oneProcess_fresh.sound (by rfl) (by rfl) (.single room)).mpr
    fit).1

/-- The second heap of a process is refused, although there is room for it. -/
theorem vmm_heap_growth_second :
    ∃ state state', vmmCreateHeap .oneProcess 0 0x1000 usageUser =
        .ok (.sOk, some 0xC0400000, state) ∧
      HeapRoom state 0 0xC0400000 0x1000 ∧
      vmmCreateHeap state 0 0x1000 usageUser = .ok (.eFail, some 0xC0400000, state') := by
  refine ⟨_, _, by rfl, ?_, by rfl⟩
  exact ⟨by decide, by decide, ⟨_, _, by rfl, by rfl⟩, by decide, by decide⟩

end Antonix
