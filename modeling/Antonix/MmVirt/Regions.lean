import Antonix.MmVirt.Paging
import Mathlib.Order.CompletePartialOrder

/-! # What the calls of the memory manager do

Four calls map regions and one removes them.  Each of them either leaves the
processes alone, or maps one region as `RegionMapped` says, or takes one out of a
table as `RegionUnmapped` says; every later fact about the calls is derived from
these. -/

namespace Antonix

open Set Function

namespace KVmmRegion

variable (r : KVmmRegion)

/-- The addresses of the region. -/
def range : Set Nat := Ico r.virtAddr (r.virtAddr + r.regionSize)

/-- The pages that mapping the region sets. -/
def pages : Set Nat :=
  Ico (r.virtAddr / pageSize) (r.virtAddr / pageSize + r.regionSize / pageSize)

/-- `f_rw` and `f_us` of the region. -/
def fRw : Bool := r.access = accessReadWrite

def fUs : Bool := r.usage ||| usageUser ≠ 0

/-- The frame that page `m` of the region is mapped to. -/
def frame (m : Nat) : Nat :=
  (if m = r.virtAddr / pageSize then r.physAddr
    else u32 (r.physAddr + (m - r.virtAddr / pageSize) * pageSize)) / pageSize

/-- The region does not reach the end of the address space. -/
def Fits : Prop := r.virtAddr + r.regionSize < 2 ^ 32

end KVmmRegion

/-- The region `r` has been added to the table of the process and its pages mapped. -/
structure RegionMapped (state : VmmState) (proc : Nat) (r : KVmmRegion) (state' : VmmState) :
    Prop where
  few : (state.procs proc).regions.length ≠ maxVmRegions
  whole : r.regionSize % pageSize = 0
  aligned : r.physAddr % pageSize = 0
  apart : ∀ x ∈ (state.procs proc).regions,
    x.overlaps r.virtAddr (u32 (r.virtAddr + r.regionSize)) = false
  mapped : ∃ kpmm paging, vmmMapPages r.fRw r.fUs (r.regionSize / pageSize) r.physAddr r.virtAddr
      (state.paging proc) = .ok paging ∧
    state' = { state with kpmm }.setProc proc paging ((state.procs proc).regions ++ [r])

/-- The first region with its address, `r`, has been unmapped; it stays in the table when that
fails. -/
structure RegionUnmapped (state : VmmState) (proc : Nat) (r : KVmmRegion) (hr : HResult)
    (state' : VmmState) : Prop where
  nonempty : 0 < r.regionSize / pageSize
  unmapped : ∃ id kpmm, ∃ hr' : HResult, ∃ paging, (state.procs proc).regions[id]? = some r ∧
    (∀ x ∈ (state.procs proc).regions.take id, x.virtAddr ≠ r.virtAddr) ∧
    vmmUnmapPages (u32 (r.virtAddr + r.regionSize)) (r.regionSize / pageSize + 1) r.virtAddr
      (state.paging proc) = .ok (hr', paging) ∧
    (hr = .sOk → hr' = .sOk) ∧
    state' = { state with kpmm }.setProc proc paging
      (if hr = HResult.sOk then (state.procs proc).regions.eraseIdx id else (state.procs proc).regions)

/-! ## `vmm_map_region` and `vmm_unmap_region` -/

section

variable {state state' : VmmState} {procDesc : Option Nat} {hr : HResult}
  {physAddr virtAddr size usage access : Nat}

theorem procOfDesc_failed (error : procOfDesc state procDesc = .error hr) : hr.failed = true := by
  cases procDesc with
  | some proc => simp [procOfDesc] at error
  | none =>
    simp only [procOfDesc, schedGetProcessById] at error
    split at error
    · contradiction
    · obtain rfl := Except.error.inj error
      rfl

theorem procOfDesc_error (error : procOfDesc state procDesc = .error hr) : hr ≠ .sOk := by
  rintro rfl
  exact absurd (procOfDesc_failed error) (by decide)

theorem schedFindProcess_error {pid : Nat} (error : schedFindProcess state pid = .error hr) :
    hr ≠ .sOk := by
  rw [schedFindProcess] at error
  split at error
  · contradiction
  · simp only [Except.error.injEq] at error
    simp [← error]

theorem vmmMapRegion_cases
    (returned : vmmMapRegion state procDesc physAddr virtAddr size usage access =
      .ok (hr, state')) :
    (hr ≠ .sOk ∧ state' = state ∧ ∀ proc, procOfDesc state procDesc = .ok proc → hr = .eFail ∧
      (state.procs proc).regions.length ≠ maxVmRegions ∧ size % pageSize = 0 ∧
      ∃ r ∈ (state.procs proc).regions, r.overlaps virtAddr (u32 (virtAddr + size)) = true) ∨
    (hr = .sOk ∧ ∃ proc, procOfDesc state procDesc = .ok proc ∧
      RegionMapped state proc ⟨physAddr, virtAddr, size, usage, access⟩ state') := by
  unfold vmmMapRegion at returned
  cases desc : procOfDesc state procDesc with
  | error hr' =>
    simp only [desc, Except.ok.injEq, Prod.mk.injEq] at returned
    exact .inl ⟨returned.1 ▸ procOfDesc_error desc, returned.2.symm, by simp⟩
  | ok proc =>
    simp only [desc] at returned
    split at returned
    · contradiction
    · rename_i few
      split at returned
      · contradiction
      · rename_i whole
        split at returned
        · contradiction
        · rename_i aligned
          split at returned
          · rename_i overlap
            obtain ⟨rfl, rfl⟩ := eq_of_returned returned
            refine .inl ⟨by simp, rfl, fun proc' same => ?_⟩
            obtain rfl : proc = proc' := by simpa using same
            exact ⟨rfl, few, not_not.mp whole, by simpa using overlap⟩
          · rename_i apart
            obtain ⟨paging, mapped, stored⟩ := exists_of_bind returned
            obtain ⟨rfl, rfl⟩ := eq_of_returned stored
            refine .inr ⟨rfl, proc, rfl, few, not_not.mp whole, not_not.mp aligned, ?_, state.kpmm,
              paging, mapped, rfl⟩
            simpa using apart

theorem vmmMapRegion_ok {proc : Nat} {paging : Paging} {r : KVmmRegion}
    (desc : procOfDesc state procDesc = .ok proc)
    (few : (state.procs proc).regions.length ≠ maxVmRegions) (whole : r.regionSize % pageSize = 0)
    (aligned : r.physAddr % pageSize = 0)
    (apart : ∀ x ∈ (state.procs proc).regions,
      x.overlaps r.virtAddr (u32 (r.virtAddr + r.regionSize)) = false)
    (mapped : vmmMapPages r.fRw r.fUs (r.regionSize / pageSize) r.physAddr r.virtAddr
      (state.paging proc) = .ok paging) :
    vmmMapRegion state procDesc r.physAddr r.virtAddr r.regionSize r.usage r.access =
      .ok (.sOk, state.setProc proc paging ((state.procs proc).regions ++ [r])) := by
  have notAny : (state.procs proc).regions.any
      (·.overlaps r.virtAddr (u32 (r.virtAddr + r.regionSize))) ≠ true := by simpa using apart
  rw [KVmmRegion.fRw, KVmmRegion.fUs] at mapped
  rw [vmmMapRegion]
  simp only [desc]
  rw [if_neg few, if_neg (not_not.mpr whole), if_neg (not_not.mpr aligned), if_neg notAny, mapped]
  rfl

theorem vmmMapRegion_overlap {proc : Nat} (desc : procOfDesc state procDesc = .ok proc)
    (few : (state.procs proc).regions.length ≠ maxVmRegions) (whole : size % pageSize = 0)
    (aligned : physAddr % pageSize = 0)
    (overlap : ∃ x ∈ (state.procs proc).regions,
      x.overlaps virtAddr (u32 (virtAddr + size)) = true) :
    vmmMapRegion state procDesc physAddr virtAddr size usage access = .ok (.eFail, state) := by
  have any : (state.procs proc).regions.any
      (·.overlaps virtAddr (u32 (virtAddr + size))) = true := by simpa using overlap
  rw [vmmMapRegion]
  simp only [desc]
  rw [if_neg few, if_neg (not_not.mpr whole), if_neg (not_not.mpr aligned), if_pos any]

theorem vmmUnmapRegion_cases
    (returned : vmmUnmapRegion state procDesc virtAddr = .ok (hr, state')) :
    (hr ≠ .sOk ∧ state' = state) ∨
    ∃ proc r, procOfDesc state procDesc = .ok proc ∧ r.virtAddr = virtAddr ∧
      RegionUnmapped state proc r hr state' := by
  unfold vmmUnmapRegion at returned
  cases desc : procOfDesc state procDesc with
  | error hr' =>
    simp only [desc, Except.ok.injEq, Prod.mk.injEq] at returned
    exact .inl ⟨returned.1 ▸ procOfDesc_error desc, returned.2.symm⟩
  | ok proc =>
    simp only [desc] at returned
    cases found : (state.procs proc).regions.findIdx? fun r => r.virtAddr = virtAddr with
    | none =>
      simp only [found, Except.ok.injEq, Prod.mk.injEq] at returned
      exact .inl ⟨by simp [← returned.1], returned.2.symm⟩
    | some id =>
      obtain ⟨inside, here, earlier⟩ := List.findIdx?_eq_some_iff_getElem.mp found
      have lookup : (state.procs proc).regions[id]? = some ((state.procs proc).regions[id]) :=
        List.getElem?_eq_getElem inside
      simp only [found, List.getD_eq_getElem?_getD, lookup, Option.getD_some] at returned
      split at returned
      · contradiction
      · rename_i nonempty
        obtain ⟨⟨hr', paging⟩, unmapped, rest⟩ := exists_of_bind returned
        have first : ∀ x ∈ (state.procs proc).regions.take id, x.virtAddr ≠
            (state.procs proc).regions[id].virtAddr := by
          intro x member
          obtain ⟨j, below, rfl⟩ := List.mem_take_iff_getElem.mp member
          have differ := earlier j (by omega)
          simp only [decide_eq_true_eq] at differ here
          rwa [here]
        simp only [decide_eq_true_eq] at here
        refine .inr ⟨proc, _, rfl, here, Nat.pos_of_ne_zero nonempty, id, ?_⟩
        rw [here] at first ⊢
        split at rest
        · -- every page has been unmapped
          rename_i paging' outcome
          obtain ⟨rfl, rfl⟩ := Prod.mk.inj outcome
          split at rest
          · split at rest
            · contradiction
            · split at rest
              · obtain ⟨rfl, rfl⟩ := eq_of_returned rest
                exact ⟨_, .sOk, paging, lookup, first, unmapped, fun _ => rfl, rfl⟩
              · rename_i _ _ failed _
                obtain ⟨rfl, rfl⟩ := eq_of_returned rest
                exact ⟨_, .sOk, paging, lookup, first, unmapped, fun isOk => absurd isOk failed,
                  by rw [if_neg failed]⟩
          · obtain ⟨rfl, rfl⟩ := eq_of_returned rest
            exact ⟨state.kpmm, .sOk, paging, lookup, first, unmapped, fun _ => rfl, rfl⟩
        · rename_i failed outcome
          obtain ⟨rfl, rfl⟩ := Prod.mk.inj outcome
          obtain ⟨rfl, rfl⟩ := eq_of_returned rest
          exact ⟨state.kpmm, hr', paging, lookup, first, unmapped, fun isOk => isOk,
            by rw [if_neg failed]⟩

theorem kpmmAlloc_error {bitmap bitmap' : Bitmap 32} {numBlocks : Nat}
    (failed : kpmmAlloc bitmap numBlocks = (.error hr, bitmap')) : hr ≠ .sOk := by
  rw [kpmmAlloc] at failed
  cases found : kpmmFindFreeRegion bitmap numBlocks with
  | error hr' =>
    simp only [found, Prod.mk.injEq, Except.error.injEq] at failed
    rw [kpmmFindFreeRegion] at found
    split at found
    · contradiction
    · simp only [Except.error.injEq] at found
      simp [← failed.1, ← found]
  | ok area =>
    simp only [found] at failed
    split at failed
    · simp at failed
    · rename_i _ _ refused _
      simp only [Prod.mk.injEq, Except.error.injEq] at failed
      rw [← failed.1]
      exact refused

theorem RegionMapped.of_kpmm {kpmm : Bitmap 32} {proc : Nat} {r : KVmmRegion}
    (mapping : RegionMapped { state with kpmm } proc r state') : RegionMapped state proc r state' :=
  ⟨mapping.few, mapping.whole, mapping.aligned, mapping.apart, mapping.mapped⟩

end

/-! ## Statuses

None of the calls answers `S_FALSE`, so that one that has not failed returns `S_OK`. -/

theorem kpmmMarkLoop_ne_sFalse (fuel numBlocks blockId : Nat) (bitmap : Bitmap 32) :
    (kpmmMarkLoop fuel numBlocks blockId bitmap).1 ≠ .sFalse := by
  fun_induction kpmmMarkLoop fuel numBlocks blockId bitmap <;> simp_all

theorem kpmmUnmarkLoop_ne_sFalse (numBlocks blockId : Nat) (bitmap : Bitmap 32) :
    (kpmmUnmarkLoop numBlocks blockId bitmap).1 ≠ .sFalse := by
  fun_induction kpmmUnmarkLoop numBlocks blockId bitmap <;> simp_all

theorem kpmmUnmarkBlocks_ne_sFalse {bitmap bitmap' : Bitmap 32} {addr numBlocks : Nat}
    {hr : HResult} (outcome : kpmmUnmarkBlocks bitmap addr numBlocks = (hr, bitmap')) :
    hr ≠ .sFalse := by
  have status := kpmmUnmarkLoop_ne_sFalse numBlocks (addr / pageSize) bitmap
  rw [kpmmUnmarkBlocks] at outcome
  rwa [outcome] at status

theorem kpmmAlloc_ne_sFalse {bitmap bitmap' : Bitmap 32} {numBlocks : Nat} {hr : HResult}
    (failed : kpmmAlloc bitmap numBlocks = (.error hr, bitmap')) : hr ≠ .sFalse := by
  rw [kpmmAlloc] at failed
  cases found : kpmmFindFreeRegion bitmap numBlocks with
  | error hr' =>
    rw [found] at failed
    obtain ⟨same, -⟩ := Prod.mk.inj failed
    rw [kpmmFindFreeRegion] at found
    split at found
    · contradiction
    · rw [← Except.error.inj same, ← Except.error.inj found]
      decide
  | ok area =>
    rw [found] at failed
    dsimp only at failed
    split at failed
    · cases (Prod.mk.inj failed).1
    · next hr' _ _ outcome =>
      have status := kpmmMarkLoop_ne_sFalse numBlocks numBlocks (area / pageSize) bitmap
      rw [kpmmMarkBlocks] at outcome
      rw [outcome] at status
      rwa [← Except.error.inj (Prod.mk.inj failed).1]

section

variable {state state' : VmmState} {procDesc : Option Nat} {hr : HResult}
  {physAddr virtAddr size usage access : Nat}

theorem vmmMapRegion_ne_sFalse
    (returned : vmmMapRegion state procDesc physAddr virtAddr size usage access =
      .ok (hr, state')) : hr ≠ .sFalse := by
  rintro rfl
  cases vmmMapRegion_cases returned with
  | inl refused =>
    cases desc : procOfDesc state procDesc with
    | error hr' =>
      rw [vmmMapRegion, desc] at returned
      obtain ⟨rfl, -⟩ := eq_of_returned returned
      exact absurd (procOfDesc_failed desc) (by decide)
    | ok proc =>
      have isFail := (refused.2.2 proc desc).1
      contradiction
  | inr accepted =>
    have isOk := accepted.1
    contradiction

theorem vmmAllocAndMap_ne_sFalse
    (returned : vmmAllocAndMap state procDesc virtAddr size usage access = .ok (hr, state')) :
    hr ≠ .sFalse := by
  unfold vmmAllocAndMap at returned
  split at returned
  · next refused =>
    obtain ⟨rfl, -⟩ := eq_of_returned returned
    exact kpmmAlloc_ne_sFalse refused
  · exact vmmMapRegion_ne_sFalse returned

theorem vmmUnmapPages_ne_sFalse {endAddr fuel virtAddrIdx : Nat} {paging paging' : Paging}
    (returned : vmmUnmapPages endAddr fuel virtAddrIdx paging = .ok (hr, paging')) :
    hr ≠ .sFalse := by
  induction fuel generalizing virtAddrIdx paging with
  | zero => cases returned
  | succ fuel inductionHypothesis =>
    rw [vmmUnmapPages] at returned
    split at returned
    · obtain ⟨⟨found, paging₁⟩, fetched, rest⟩ := exists_of_bind returned
      cases found with
      | error hr' =>
        obtain ⟨rfl, -⟩ := eq_of_returned rest
        rw [fetchPageTable] at fetched
        split at fetched
        · cases (eq_of_returned fetched).1
        · rw [if_neg Bool.false_ne_true] at fetched
          rw [← Except.error.inj (eq_of_returned fetched).1]
          decide
      | ok table => exact inductionHypothesis rest
    · obtain ⟨rfl, -⟩ := eq_of_returned returned
      decide

theorem vmmUnmapRegion_ne_sFalse
    (returned : vmmUnmapRegion state procDesc virtAddr = .ok (hr, state')) : hr ≠ .sFalse := by
  rw [vmmUnmapRegion] at returned
  cases desc : procOfDesc state procDesc with
  | error hr' =>
    rw [desc] at returned
    obtain ⟨rfl, -⟩ := eq_of_returned returned
    rintro rfl
    exact absurd (procOfDesc_failed desc) (by decide)
  | ok proc =>
    simp only [desc] at returned
    split at returned
    · obtain ⟨rfl, -⟩ := eq_of_returned returned
      decide
    · split at returned
      · contradiction
      · obtain ⟨⟨hr', paging⟩, unmapped, rest⟩ := exists_of_bind returned
        have pages := vmmUnmapPages_ne_sFalse unmapped
        split at rest
        · split at rest
          · split at rest
            · contradiction
            · split at rest
              · obtain ⟨rfl, -⟩ := eq_of_returned rest
                decide
              · rename_i hr' kpmm _ outcome
                obtain ⟨rfl, -⟩ := eq_of_returned rest
                exact kpmmUnmarkBlocks_ne_sFalse outcome
          · obtain ⟨rfl, -⟩ := eq_of_returned rest
            decide
        · next same =>
          obtain ⟨rfl, -⟩ := eq_of_returned rest
          obtain ⟨rfl, -⟩ := Prod.mk.inj same
          exact pages

end

/-! ## Calls -/

inductive VmmCall where
  | mapRegion (procDesc : Option Nat) (physAddr virtAddr size usage access : Nat)
  | unmapRegion (procDesc : Option Nat) (virtAddr : Nat)
  | allocAndMap (procDesc : Option Nat) (virtAddr size usage access : Nat)
  | createHeap (pid size usage : Nat)
  | tempMapRegion (procDesc : Option Nat) (physAddr regionSize : Nat)

def VmmCall.run (state : VmmState) : VmmCall → Except Halt (HResult × VmmState)
  | .mapRegion procDesc physAddr virtAddr size usage access =>
    vmmMapRegion state procDesc physAddr virtAddr size usage access
  | .unmapRegion procDesc virtAddr => vmmUnmapRegion state procDesc virtAddr
  | .allocAndMap procDesc virtAddr size usage access =>
    vmmAllocAndMap state procDesc virtAddr size usage access
  | .createHeap pid size usage => do
    let (hr, _, state) ← vmmCreateHeap state pid size usage
    .ok (hr, state)
  | .tempMapRegion procDesc physAddr regionSize => do
    let (hr, _, state) ← vmmTempMapRegion state procDesc physAddr regionSize
    .ok (hr, state)

/-- A call that returns, with whatever status. -/
def VmmStep (state : VmmState) (call : VmmCall) (state' : VmmState) : Prop :=
  ∃ hr, call.run state = .ok (hr, state')

/-- The call asks to map the region for the process; the physical memory of `allocAndMap` and
`createHeap` is whatever the physical allocator returns. -/
inductive VmmCall.Requests (state : VmmState) : VmmCall → Nat → KVmmRegion → Prop
  | mapRegion {procDesc physAddr virtAddr size usage access proc} :
      procOfDesc state procDesc = .ok proc →
      Requests state (.mapRegion procDesc physAddr virtAddr size usage access) proc
        ⟨physAddr, virtAddr, size, usage, access⟩
  | allocAndMap {procDesc physAddr virtAddr size usage access proc} :
      procOfDesc state procDesc = .ok proc →
      Requests state (.allocAndMap procDesc virtAddr size usage access) proc
        ⟨physAddr, virtAddr, size, usage ||| usageAutofree, access⟩
  | createHeap {pid physAddr virtAddr size usage proc} :
      schedFindProcess state pid = .ok proc → vmmGetAddressSpaceEndKs state = .ok virtAddr →
      Requests state (.createHeap pid size usage) proc
        ⟨physAddr, virtAddr, size, usage ||| usageHeap, accessReadWrite⟩
  | tempMapRegion {physAddr addr regionSize proc} :
      vmmTempLoop (state.procs proc).regions regionSize (2 ^ 20) kernelTempStart =
        .ok (some addr) →
      Requests state (.tempMapRegion (some proc) physAddr regionSize) proc
        ⟨physAddr, addr, regionSize, usageTemp, accessReadWrite⟩

/-- What a call has done when it returns: it has failed and left the processes alone, or mapped
the region it asks for, or unmapped one. -/
inductive VmmOutcome (state : VmmState) (call : VmmCall) : HResult → VmmState → Prop
  | refused {hr} (kpmm) (failed : hr ≠ .sOk) : VmmOutcome state call hr { state with kpmm }
  | mapped {proc r state'} (request : call.Requests state proc r)
      (mapping : RegionMapped state proc r state') : VmmOutcome state call .sOk state'
  | unmapped {procDesc virtAddr proc r hr state'} (isUnmap : call = .unmapRegion procDesc virtAddr)
      (unmapping : RegionUnmapped state proc r hr state') : VmmOutcome state call hr state'

section

variable {state state' : VmmState} {call : VmmCall} {hr : HResult} {procDesc : Option Nat}
  {physAddr virtAddr size usage access : Nat}

/-- A call that ends with `vmm_map_region` does what this does. -/
theorem VmmOutcome.of_mapRegion (kpmm : Bitmap 32)
    (requests : ∀ proc, procOfDesc state procDesc = .ok proc →
      call.Requests state proc ⟨physAddr, virtAddr, size, usage, access⟩)
    (returned : vmmMapRegion { state with kpmm } procDesc physAddr virtAddr size usage access =
      .ok (hr, state')) : VmmOutcome state call hr state' := by
  cases vmmMapRegion_cases returned with
  | inl refused =>
    obtain ⟨failed, rfl, -⟩ := refused
    exact .refused kpmm failed
  | inr accepted =>
    obtain ⟨rfl, proc, desc, mapping⟩ := accepted
    exact .mapped (requests proc desc) mapping.of_kpmm

theorem vmmUnmapRegion_outcome
    (returned : vmmUnmapRegion state procDesc virtAddr = .ok (hr, state')) :
    VmmOutcome state (.unmapRegion procDesc virtAddr) hr state' := by
  cases vmmUnmapRegion_cases returned with
  | inl refused =>
    obtain ⟨failed, rfl⟩ := refused
    exact .refused state'.kpmm failed
  | inr found =>
    obtain ⟨proc, r, -, -, unmapping⟩ := found
    exact .unmapped rfl unmapping

theorem vmmAllocAndMap_outcome
    (returned : vmmAllocAndMap state procDesc virtAddr size usage access = .ok (hr, state')) :
    VmmOutcome state (.allocAndMap procDesc virtAddr size usage access) hr state' := by
  unfold vmmAllocAndMap at returned
  split at returned
  · rename_i failed
    obtain ⟨rfl, rfl⟩ := eq_of_returned returned
    exact .refused _ (kpmmAlloc_error failed)
  · exact .of_mapRegion _ (fun _ => .allocAndMap) returned

theorem vmmCreateHeap_outcome {pid : Nat} {out : Option Nat}
    (returned : vmmCreateHeap state pid size usage = .ok (hr, out, state')) :
    VmmOutcome state (.createHeap pid size usage) hr state' := by
  simp only [vmmCreateHeap] at returned
  split at returned
  · contradiction
  · split at returned
    · rename_i notFound
      obtain ⟨rfl, -, rfl⟩ := eq_of_answered returned
      exact .refused state.kpmm (schedFindProcess_error notFound)
    · rename_i proc found
      split at returned
      · contradiction
      · split at returned
        · -- the blocks are marked, and the heap goes behind the last region of the kernel
          obtain ⟨virtAddr, endKs, placed⟩ := exists_of_bind returned
          obtain ⟨⟨hr', state''⟩, mapped, answered⟩ := exists_of_bind placed
          obtain ⟨rfl, -, rfl⟩ := eq_of_answered answered
          refine .of_mapRegion _ ?_ mapped
          intro proc' desc
          obtain rfl : proc = proc' := by simpa [procOfDesc] using desc
          exact .createHeap found endKs
        · rename_i notMarked _
          obtain ⟨rfl, -, rfl⟩ := eq_of_answered returned
          exact .refused _ notMarked

theorem vmmTempMapRegion_outcome {out : Option Nat}
    (returned : vmmTempMapRegion state procDesc physAddr size = .ok (hr, out, state')) :
    VmmOutcome state (.tempMapRegion procDesc physAddr size) hr state' := by
  cases procDesc with
  | none => contradiction
  | some proc =>
    obtain ⟨place, searched, placed⟩ := exists_of_bind returned
    cases place with
    | none =>
      -- no address is available
      obtain ⟨rfl, -, rfl⟩ := eq_of_answered placed
      exact .refused state.kpmm (by decide)
    | some addr =>
      obtain ⟨⟨hr', state''⟩, mapped, answered⟩ := exists_of_bind placed
      obtain ⟨rfl, -, rfl⟩ := eq_of_answered answered
      refine .of_mapRegion state.kpmm ?_ mapped
      intro proc' desc
      obtain rfl : proc = proc' := by simpa [procOfDesc] using desc
      exact .tempMapRegion searched

theorem VmmCall.outcome (returned : call.run state = .ok (hr, state')) :
    VmmOutcome state call hr state' := by
  cases call with
  | mapRegion procDesc physAddr virtAddr size usage access =>
    exact .of_mapRegion state.kpmm (fun _ => .mapRegion) returned
  | unmapRegion procDesc virtAddr => exact vmmUnmapRegion_outcome returned
  | allocAndMap procDesc virtAddr size usage access => exact vmmAllocAndMap_outcome returned
  | createHeap pid size usage =>
    obtain ⟨⟨hr', out, state''⟩, created, stored⟩ := exists_of_bind returned
    obtain ⟨rfl, rfl⟩ := eq_of_returned stored
    exact vmmCreateHeap_outcome created
  | tempMapRegion procDesc physAddr regionSize =>
    obtain ⟨⟨hr', out, state''⟩, tried, stored⟩ := exists_of_bind returned
    obtain ⟨rfl, rfl⟩ := eq_of_returned stored
    exact vmmTempMapRegion_outcome tried

end

end Antonix
