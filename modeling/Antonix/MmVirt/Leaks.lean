import Antonix.MmPhys.Marking
import Antonix.MmVirt.Regions

/-! # Mappings that fail

`vmm_alloc_and_map`, its limited form and `vmm_create_heap` reserve physical
memory before `vmm_map_region` looks at the virtual range.  Only the limit check
gives the memory back: when the range overlaps a region, or there is no process
to map for, the blocks stay marked. -/

namespace Antonix

/-- If the call fails, the physical bitmap and the regions of all processes are what they were. -/
def KeepsMemory (state : VmmState) (outcome : Except Halt (HResult × VmmState)) : Prop :=
  ∀ hr state', outcome = .ok (hr, state') → hr.failed = true →
    state'.kpmm = state.kpmm ∧
      ∀ proc, (state'.procs proc).regions = (state.procs proc).regions

/-- `vmm_map_region` returns an error for the range: there is no process to map for, or the range
overlaps one of its regions. -/
def VmmState.RefusesMap (state : VmmState) (procDesc : Option Nat) (virtAddr size : Nat) : Prop :=
  (∃ hr, procOfDesc state procDesc = .error hr) ∨
    ∃ proc, procOfDesc state procDesc = .ok proc ∧
      (state.procs proc).regions.length ≠ maxVmRegions ∧ size % pageSize = 0 ∧
      ∃ r ∈ (state.procs proc).regions, r.overlaps virtAddr (u32 (virtAddr + size)) = true

/-- The allocator fails with blocks marked, or it hands out a run that is refused later. -/
def Leaks (bitmap : Bitmap 32) (numBlocks : Nat) (refused : Nat → Prop) : Prop :=
  (∃ s, WrapsOntoFree bitmap numBlocks s) ∨
    0 < numBlocks ∧ ∃ s, HandsOut bitmap numBlocks s ∧ refused s

section

variable {state : VmmState} {procDesc : Option Nat} {hr : HResult} {kpmm : Bitmap 32}
  {physAddr virtAddr size usage access : Nat}

theorem keepsMemory_failed_iff (failed : hr.failed = true) :
    KeepsMemory state (.ok (hr, { state with kpmm })) ↔ kpmm = state.kpmm := by
  constructor
  · exact fun keeps => (keeps _ _ rfl failed).1
  · rintro rfl hr' state' returned -
    obtain ⟨-, rfl⟩ := eq_of_returned returned
    exact ⟨rfl, fun _ => rfl⟩

/-- After the reservation: the memory is kept if nothing was reserved, or the mapping is not
refused. -/
theorem vmmMapRegion_keeps_iff (aligned : physAddr % pageSize = 0) :
    KeepsMemory state
        (vmmMapRegion { state with kpmm } procDesc physAddr virtAddr size usage access) ↔
      kpmm = state.kpmm ∨ ¬state.RefusesMap procDesc virtAddr size := by
  by_cases refuses : state.RefusesMap procDesc virtAddr size
  · have refused : ∃ hr, hr.failed = true ∧
        vmmMapRegion { state with kpmm } procDesc physAddr virtAddr size usage access =
          .ok (hr, { state with kpmm }) := by
      obtain ⟨hr, error⟩ | ⟨proc, desc, few, whole, overlap⟩ := refuses
      · refine ⟨hr, procOfDesc_failed error, ?_⟩
        have error' : procOfDesc { state with kpmm } procDesc = .error hr := error
        simp only [vmmMapRegion, error']
      · exact ⟨.eFail, rfl, vmmMapRegion_overlap desc few whole aligned overlap⟩
    obtain ⟨hr, failed, returned⟩ := refused
    rw [returned, keepsMemory_failed_iff failed, or_iff_left (not_not.mpr refuses)]
  · refine iff_of_true ?_ (.inr refuses)
    intro hr state' returned failed
    cases vmmMapRegion_cases returned with
    | inl refused =>
      obtain ⟨-, -, overlap⟩ := refused
      refine absurd ?_ refuses
      cases desc : procOfDesc state procDesc with
      | error hr' => exact .inl ⟨hr', desc⟩
      | ok proc => exact .inr ⟨proc, desc, (overlap proc desc).2⟩
    | inr accepted =>
      obtain ⟨rfl, -⟩ := accepted
      contradiction

/-- What is done with a run that has been reserved decides whether the memory is kept. -/
theorem keepsMemory_taken_iff {numBlocks s : Nat} {marked : Bitmap 32} {refused : Nat → Prop}
    {outcome : Except Halt (HResult × VmmState)} (handed : HandsOut state.kpmm numBlocks s)
    (notWrapped : ¬∃ s, WrapsOntoFree state.kpmm numBlocks s)
    (unchanged : marked = state.kpmm ↔ numBlocks = 0)
    (later : KeepsMemory state outcome ↔ marked = state.kpmm ∨ ¬refused s) :
    KeepsMemory state outcome ↔ ¬Leaks state.kpmm numBlocks refused := by
  have only : (∃ s, HandsOut state.kpmm numBlocks s ∧ refused s) ↔ refused s := by
    constructor
    · rintro ⟨t, handedToo, isRefused⟩
      rwa [handed.1.unique handedToo.1]
    · exact fun isRefused => ⟨s, handed, isRefused⟩
  rw [later, unchanged, Leaks, or_iff_right notWrapped, only, not_and_or, Nat.pos_iff_ne_zero,
    not_not]

theorem leaks_iff_of_not_handed {numBlocks : Nat} {refused : Nat → Prop}
    (notHanded : ¬∃ s, HandsOut kpmm numBlocks s) :
    Leaks kpmm numBlocks refused ↔ ∃ s, WrapsOntoFree kpmm numBlocks s :=
  or_iff_left fun leaks => notHanded ⟨_, leaks.2.choose_spec.1⟩

/-- A call that allocates and goes on with the run it gets. -/
theorem kpmmAlloc_keeps_iff {numBlocks : Nat} {refused : Nat → Prop}
    {next : Nat → Bitmap 32 → Except Halt (HResult × VmmState)}
    (later : ∀ s marked, (kpmmUnmarkBlocks marked (s * 32 * pageSize) numBlocks).2 = state.kpmm →
      (KeepsMemory state (next (s * 32 * pageSize) marked) ↔ marked = state.kpmm ∨ ¬refused s)) :
    KeepsMemory state
        (match kpmmAlloc state.kpmm numBlocks with
        | (.error hr, kpmm) => .ok (hr, { state with kpmm })
        | (.ok physAddr, kpmm) => next physAddr kpmm) ↔
      ¬Leaks state.kpmm numBlocks refused := by
  rw [kpmmAlloc]
  cases kpmm_reserved state.kpmm numBlocks with
  | notFound found notHanded notWrapped =>
    simp only [found]
    rw [keepsMemory_failed_iff rfl, leaks_iff_of_not_handed notHanded]
    exact iff_of_true rfl notWrapped
  | taken handed notWrapped found reserved released unchanged =>
    simp only [found, reserved]
    exact keepsMemory_taken_iff handed notWrapped unchanged (later _ _ released)
  | refused notHanded found stopped unchanged =>
    simp only [found, stopped]
    rw [keepsMemory_failed_iff rfl, unchanged, leaks_iff_of_not_handed notHanded]

theorem vmmAllocAndMap_keeps_iff :
    KeepsMemory state (vmmAllocAndMap state procDesc virtAddr size usage access) ↔
      ¬Leaks state.kpmm (size / pageSize) fun _ => state.RefusesMap procDesc virtAddr size :=
  kpmmAlloc_keeps_iff fun _ _ _ => vmmMapRegion_keeps_iff (Nat.mul_mod_left _ _)

theorem vmmAllocAndMapLimited_keeps_iff {limit : Nat} :
    KeepsMemory state (vmmAllocAndMapLimited state procDesc virtAddr limit size usage access) ↔
      ¬Leaks state.kpmm (size / pageSize) fun s =>
        u32 (s * 32 * pageSize + size) ≤ limit ∧ state.RefusesMap procDesc virtAddr size := by
  rw [vmmAllocAndMapLimited]
  refine kpmmAlloc_keeps_iff fun s marked released => ?_
  by_cases beyond : limit < u32 (s * 32 * pageSize + size)
  · -- the memory is given back
    rw [if_pos beyond, keepsMemory_failed_iff rfl]
    exact iff_of_true released (.inr fun refused => absurd refused.1 (Nat.not_le_of_lt beyond))
  · rw [if_neg beyond, and_iff_right (Nat.le_of_not_lt beyond)]
    cases desc : procOfDesc state procDesc with
    | error hr =>
      have refuses : state.RefusesMap procDesc virtAddr size := .inl ⟨hr, desc⟩
      rw [keepsMemory_failed_iff (procOfDesc_failed desc), or_iff_left (not_not.mpr refuses)]
    | ok proc =>
      have same : state.RefusesMap procDesc virtAddr size ↔
          state.RefusesMap (some proc) virtAddr size := by
        rw [VmmState.RefusesMap, VmmState.RefusesMap, desc]
        rfl
      rw [same]
      exact vmmMapRegion_keeps_iff (Nat.mul_mod_left _ _)

/-- The number of blocks that `vmm_create_heap` reserves. -/
def heapBlocks (size : Nat) : Nat := u32 (size + (pageSize - 1)) / pageSize

/-- The part of `vmm_create_heap` after the process has been found. -/
theorem vmmCreateHeap_found_keeps_iff {pid proc : Nat} (whole : size % pageSize = 0)
    (found : schedFindProcess state pid = .ok proc) :
    KeepsMemory state ((vmmCreateHeap state pid size usage).map fun answer =>
        (answer.1, answer.2.2)) ↔
      ¬Leaks state.kpmm (heapBlocks size) fun _ =>
        ∃ virtAddr, vmmGetAddressSpaceEndKs state = .ok virtAddr ∧
          state.RefusesMap (some proc) virtAddr size := by
  simp only [vmmCreateHeap, if_neg (not_not.mpr whole), found]
  rw [← heapBlocks]
  cases kpmm_reserved state.kpmm (heapBlocks size) with
  | notFound searched notHanded notWrapped =>
    simp only [searched]
    rw [leaks_iff_of_not_handed notHanded]
    refine iff_of_true (fun hr state' returned => ?_) notWrapped
    contradiction
  | @taken s marked handed notWrapped searched reserved _ unchanged =>
    simp only [searched, reserved]
    refine keepsMemory_taken_iff handed notWrapped unchanged ?_
    have sameEnd : vmmGetAddressSpaceEndKs { state with kpmm := marked } =
        vmmGetAddressSpaceEndKs state := rfl
    rw [sameEnd]
    cases endKs : vmmGetAddressSpaceEndKs state with
    | error halt =>
      refine iff_of_true (fun hr state' returned => ?_) (.inr (by simp))
      contradiction
    | ok virtAddr =>
      -- the status is that of the mapping
      have answer : ∀ outcome : Except Halt (HResult × VmmState),
          (outcome >>= fun mapped => .ok (mapped.1, some virtAddr, mapped.2) :
            Except Halt (HResult × Option Nat × VmmState)).map (fun answer =>
              (answer.1, answer.2.2)) = outcome := by
        intro outcome
        cases outcome with
        | error halt => rfl
        | ok mapped => rfl
      have only : (∃ virtAddr', Except.ok (ε := Halt) virtAddr = .ok virtAddr' ∧
          state.RefusesMap (some proc) virtAddr' size) ↔
          state.RefusesMap (some proc) virtAddr size := by simp
      rw [only, ← @vmmMapRegion_keeps_iff state (some proc) marked (s * 32 * pageSize) virtAddr
        size (usage ||| usageHeap) accessReadWrite (Nat.mul_mod_left _ _)]
      exact Iff.of_eq (congrArg _ (answer _))
  | refused notHanded searched stopped unchanged =>
    simp only [searched, stopped]
    rw [leaks_iff_of_not_handed notHanded, ← unchanged]
    exact keepsMemory_failed_iff rfl

theorem vmmCreateHeap_keeps_iff {pid : Nat} :
    KeepsMemory state ((vmmCreateHeap state pid size usage).map fun answer =>
        (answer.1, answer.2.2)) ↔
      ¬∃ proc, size % pageSize = 0 ∧ schedFindProcess state pid = .ok proc ∧
        Leaks state.kpmm (heapBlocks size) fun _ =>
          ∃ virtAddr, vmmGetAddressSpaceEndKs state = .ok virtAddr ∧
            state.RefusesMap (some proc) virtAddr size := by
  by_cases whole : size % pageSize = 0
  · cases found : schedFindProcess state pid with
    | error hr =>
      refine iff_of_true ?_ (by simp)
      intro hr' state' returned _
      simp only [vmmCreateHeap, if_neg (not_not.mpr whole), found] at returned
      obtain ⟨-, rfl⟩ := eq_of_returned returned
      exact ⟨rfl, fun _ => rfl⟩
    | ok proc =>
      rw [vmmCreateHeap_found_keeps_iff whole found]
      simp [whole]
  · refine iff_of_true ?_ fun leaks => whole leaks.choose_spec.1
    intro hr' state' returned
    simp only [vmmCreateHeap, if_pos whole] at returned
    contradiction

end

/-- Whenever one of the three calls fails, the physical bitmap and the regions are what they were,
unless the allocator itself leaves blocks marked or the mapping is refused after it has reserved
at least one block (for the limited call: below the limit). -/
theorem vmm_failures_keep_memory (state : VmmState) (procDesc : Option Nat)
    (virtAddr limit pid size usage access : Nat) :
    (KeepsMemory state (vmmAllocAndMap state procDesc virtAddr size usage access) ↔
      ¬Leaks state.kpmm (size / pageSize) fun _ => state.RefusesMap procDesc virtAddr size) ∧
    (KeepsMemory state (vmmAllocAndMapLimited state procDesc virtAddr limit size usage access) ↔
      ¬Leaks state.kpmm (size / pageSize) fun s =>
        u32 (s * 32 * pageSize + size) ≤ limit ∧ state.RefusesMap procDesc virtAddr size) ∧
    (KeepsMemory state ((vmmCreateHeap state pid size usage).map fun answer =>
        (answer.1, answer.2.2)) ↔
      ¬∃ proc, size % pageSize = 0 ∧ schedFindProcess state pid = .ok proc ∧
        Leaks state.kpmm (heapBlocks size) fun _ =>
          ∃ virtAddr, vmmGetAddressSpaceEndKs state = .ok virtAddr ∧
            state.RefusesMap (some proc) virtAddr size) :=
  ⟨vmmAllocAndMap_keeps_iff, vmmAllocAndMapLimited_keeps_iff, vmmCreateHeap_keeps_iff⟩

/-- A page is mapped twice at one address: the second call fails and leaves another block
marked. -/
theorem vmm_failure_leaks : ∃ state,
    vmmAllocAndMap .oneProcess (some 0) 0x400000 0x1000 usageUser accessReadWrite =
      .ok (.sOk, state) ∧
    ¬KeepsMemory state
      (vmmAllocAndMap state (some 0) 0x400000 0x1000 usageUser accessReadWrite) := by
  have known : (vmmAllocAndMap .oneProcess (some 0) 0x400000 0x1000 usageUser
      accessReadWrite).toOption.map (fun first => (first.1, first.2.kpmm 40, first.2.kpmm 41)) =
      some (.sOk, 1#32, 0#32) := by decide +kernel
  have known' : (vmmAllocAndMap .oneProcess (some 0) 0x400000 0x1000 usageUser accessReadWrite >>=
      fun first => vmmAllocAndMap first.2 (some 0) 0x400000 0x1000 usageUser
        accessReadWrite).toOption.map (fun second => (second.1, second.2.kpmm 41)) =
      some (.eFail, 1#32) := by decide +kernel
  obtain ⟨⟨hr, state⟩, returned, same⟩ := exists_of_known known
  simp only [Prod.mk.injEq] at same
  obtain ⟨rfl, -, before⟩ := same
  rw [returned] at known'
  obtain ⟨⟨hr, state'⟩, returned', same⟩ := exists_of_known known'
  simp only [Prod.mk.injEq] at same
  obtain ⟨rfl, after⟩ := same
  refine ⟨state, returned, fun keeps => ?_⟩
  rw [(keeps .eFail state' returned' rfl).1, before] at after
  contradiction

end Antonix
