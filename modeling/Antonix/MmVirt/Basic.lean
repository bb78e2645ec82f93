import Antonix.MmPhys.Basic
import Mathlib.Logic.Function.Basic

/-! # The virtual memory manager (`mm_virt.c`)

Every process has a table of at most 32 regions and a page directory, whose page
tables are created by the first mapping that needs them.  Page tables are
allocated with `skheap_calloc_a`; the state holds the frames that its next calls
return.

Physical frames, directory slots and page numbers are the 20, 10 and 20 upper
bits of an address.  The `commit` arguments and what depends on them (clearing
the TLB) are left out. -/

namespace Antonix

/-- `MAX_VM_REGIONS` -/
abbrev maxVmRegions : Nat := 32

/-- `KERNEL_TEMP_START` -/
abbrev kernelTempStart : Nat := 0xFE000000

/-- `K_VMM_REGION` -/
structure KVmmRegion where
  physAddr : Nat
  virtAddr : Nat
  regionSize : Nat
  usage : Nat
  access : Nat
  deriving DecidableEq, Repr

/-- `K_VMM_PAGE_ENTRY`, the fields that the code sets. -/
structure KVmmPageEntry where
  fPresent : Bool
  fWritable : Bool
  fUser : Bool
  frameAddr : Nat
  deriving DecidableEq, Repr

/-- `K_VMM_PAGE_DIR_ENTRY`, the fields that the code sets. -/
structure KVmmPageDirEntry where
  fPresent : Bool
  fReadwrite : Bool
  fAllowUserRead : Bool
  pageTableAddr : Nat
  deriving DecidableEq, Repr

/-- An entry filled with zeros. -/
def KVmmPageEntry.zero : KVmmPageEntry := ⟨false, false, false, 0⟩

def KVmmPageDirEntry.zero : KVmmPageDirEntry := ⟨false, false, false, 0⟩

/-- `K_VMM_PAGE_TABLE` -/
abbrev KVmmPageTable : Type := Nat → KVmmPageEntry

/-- `K_VMM_PAGE_DIR` -/
abbrev KVmmPageDir : Type := Nat → KVmmPageDirEntry

/-- `K_PROCESS`, the fields that the memory manager uses; `region_count` is the length of
`regions`. -/
structure KProcess where
  id : Nat
  regions : List KVmmRegion
  pageDir : KVmmPageDir

/-- A page directory with the memory that its tables are in: the table in each frame, and
the frames that the next calls of `skheap_calloc_a` return. -/
structure Paging where
  dir : KVmmPageDir
  tables : Nat → KVmmPageTable
  pool : List Nat

structure VmmState where
  kpmm : Bitmap 32
  /-- `kernel_regions` up to `kernel_region_cnt` -/
  kernelRegions : List KVmmRegion
  /-- the process descriptors, by address -/
  procs : Nat → KProcess
  /-- `process_array` up to `process_count` -/
  processArray : List Nat
  tables : Nat → KVmmPageTable
  pool : List Nat

namespace VmmState

def paging (state : VmmState) (proc : Nat) : Paging :=
  ⟨(state.procs proc).pageDir, state.tables, state.pool⟩

/-- Store the directory, the tables and the regions of a process. -/
def setProc (state : VmmState) (proc : Nat) (paging : Paging) (regions : List KVmmRegion) :
    VmmState :=
  { state with
    procs := Function.update state.procs proc
      { state.procs proc with regions := regions, pageDir := paging.dir }
    tables := paging.tables
    pool := paging.pool }

variable (state : VmmState) {proc other : Nat} (paging : Paging) (regions : List KVmmRegion)

@[simp] theorem setProc_regions_self :
    ((state.setProc proc paging regions).procs proc).regions = regions := by
  simp [setProc]

@[simp] theorem setProc_paging_self :
    (state.setProc proc paging regions).paging proc = paging := by
  simp [VmmState.paging, setProc]

@[simp] theorem setProc_id (current : Nat) :
    ((state.setProc proc paging regions).procs current).id = (state.procs current).id := by
  by_cases self : current = proc
  · simp [setProc, self]
  · simp [setProc, self]

theorem setProc_procs_of_ne (differ : other ≠ proc) :
    (state.setProc proc paging regions).procs other = state.procs other := by
  simp [setProc, differ]

end VmmState

/-! ## Page tables -/

/-- Put a new page table, filled with zeros, in a slot of the directory. -/
def Paging.createTable (paging : Paging) (id : Nat) (autocrRw autocrUs : Bool) (table : Nat)
    (pool : List Nat) : Paging where
  dir := Function.update paging.dir id ⟨true, autocrRw, autocrUs, table⟩
  tables := Function.update paging.tables table fun _ => .zero
  pool := pool

/-- `fetch_page_table`: the frame of the table.  A table that cannot be allocated is written
to at address 0. -/
def fetchPageTable (paging : Paging) (id : Nat) (autoCreate autocrRw autocrUs : Bool) :
    Except Halt (Except HResult Nat × Paging) :=
  if (paging.dir id).pageTableAddr ≠ 0 then .ok (.ok (paging.dir id).pageTableAddr, paging)
  else if autoCreate then
    match paging.pool with
    | [] => .error .stuck
    | table :: pool => .ok (.ok table, paging.createTable id autocrRw autocrUs table pool)
  else .ok (.error .eInvalidArg, paging)

def Paging.setEntry (paging : Paging) (table pageId : Nat) (entry : KVmmPageEntry) : Paging :=
  { paging with
    tables := Function.update paging.tables table
      (Function.update (paging.tables table) pageId entry) }

/-- The loop of `vmm_map_region` over the pages. -/
def vmmMapPages (fRw fUs : Bool) : Nat → Nat → Nat → Paging → Except Halt Paging
  | 0, _, _, paging => .ok paging
  | pageCnt + 1, physAddrIdx, virtAddrIdx, paging => do
    let pageTableId := virtAddrIdx / 0x1000 / 1024
    let pageId := virtAddrIdx / 0x1000 % 1024
    match ← fetchPageTable paging pageTableId true fRw fUs with
    | (.error _, _) => .error (.panic "Failed to retrieve page table.")
    | (.ok table, paging) =>
      let paging := paging.setEntry table pageId ⟨true, fRw, fUs, physAddrIdx / 0x1000⟩
      vmmMapPages fRw fUs pageCnt (u32 (physAddrIdx + pageSize)) (u32 (virtAddrIdx + pageSize))
        paging

/-- The loop of `vmm_unmap_region` over the pages, with the status it leaves with.  It runs
until an address is reached, so it is fuelled. -/
def vmmUnmapPages (endAddr : Nat) : Nat → Nat → Paging → Except Halt (HResult × Paging)
  | 0, _, _ => .error .stuck
  | fuel + 1, virtAddrIdx, paging =>
    if virtAddrIdx < endAddr then do
      let pageTableId := virtAddrIdx / 0x1000 / 1024
      let pageId := virtAddrIdx / 0x1000 % 1024
      match ← fetchPageTable paging pageTableId false false false with
      | (.error hr, paging) => .ok (hr, paging)
      | (.ok table, paging) =>
        let entry := paging.tables table pageId
        vmmUnmapPages endAddr fuel (u32 (virtAddrIdx + pageSize))
          (paging.setEntry table pageId { entry with fPresent := false })
    else .ok (.sOk, paging)

/-! ## Regions -/

/-- `sched_get_process_by_id`: by position in `process_array`, not by pid. -/
def schedGetProcessById (state : VmmState) (id : Nat) : Except HResult Nat :=
  match state.processArray[id]? with
  | some proc => .ok proc
  | none => .error .eNotFound

/-- `sched_find_process` -/
def schedFindProcess (state : VmmState) (pid : Nat) : Except HResult Nat :=
  match state.processArray.find? fun proc => (state.procs proc).id = pid with
  | some proc => .ok proc
  | none => .error .eNotFound

/-- The process that a `proc_desc` stands for; `none` is `NULL`, the kernel process. -/
def procOfDesc (state : VmmState) : Option Nat → Except HResult Nat
  | some proc => .ok proc
  | none => schedGetProcessById state 0

/-- `virt_addr + region_size` of a region -/
def KVmmRegion.endAddr (r : KVmmRegion) : Nat := u32 (r.virtAddr + r.regionSize)

/-- The overlap test of `vmm_map_region` and `vmm_temp_map_region`: an end of the region lies
in the range. -/
def KVmmRegion.overlaps (rangeStart rangeEnd : Nat) (r : KVmmRegion) : Bool :=
  (rangeStart ≤ r.virtAddr && r.virtAddr < rangeEnd) ||
    (rangeStart < r.endAddr && r.endAddr ≤ rangeEnd)

/-- `vmm_map_region` -/
def vmmMapRegion (state : VmmState) (procDesc : Option Nat)
    (physAddr virtAddr size usage access : Nat) : Except Halt (HResult × VmmState) :=
  match procOfDesc state procDesc with
  | .error hr => .ok (hr, state)
  | .ok proc =>
    let regions := (state.procs proc).regions
    if regions.length = maxVmRegions then
      .error (.panic "Maximum count of virtual memory regions reached.")
    else if size % pageSize ≠ 0 then
      .error (.panic "Memory region's length is not granular to page frame size.")
    else if physAddr % 0x1000 ≠ 0 then
      .error (.panic "Physical address must be aligned at 4KiB.")
    else if regions.any (·.overlaps virtAddr (u32 (virtAddr + size))) then .ok (.eFail, state)
    else do
      let fRw := access = accessReadWrite
      -- `usage | USAGE_USER` as the code has it, so this is always set
      let fUs := usage ||| usageUser ≠ 0
      let paging ← vmmMapPages fRw fUs (size / pageSize) physAddr virtAddr (state.paging proc)
      .ok (.sOk, state.setProc proc paging (regions ++ [⟨physAddr, virtAddr, size, usage, access⟩]))

/-- `vmm_unmap_region`.  The pages are marked before a failure to free the physical memory,
which leaves the region in the table. -/
def vmmUnmapRegion (state : VmmState) (procDesc : Option Nat) (virtAddr : Nat) :
    Except Halt (HResult × VmmState) :=
  match procOfDesc state procDesc with
  | .error hr => .ok (hr, state)
  | .ok proc =>
    let regions := (state.procs proc).regions
    match regions.findIdx? fun r => r.virtAddr = virtAddr with
    | none => .ok (.eInvalidArg, state)
    | some id =>
      let r := regions.getD id ⟨0, 0, 0, 0, 0⟩
      if r.regionSize / pageSize = 0 then .error .assertion
      else do
        match ← vmmUnmapPages (u32 (virtAddr + r.regionSize)) (r.regionSize / pageSize + 1)
          virtAddr (state.paging proc) with
        | (.sOk, paging) =>
          if r.usage &&& usageAutofree ≠ 0 then
            if r.regionSize % pageSize ≠ 0 then .error .assertion
            else
              match kpmmUnmarkBlocks state.kpmm r.physAddr (r.regionSize / pageSize) with
              | (.sOk, kpmm) =>
                .ok (.sOk, { state with kpmm }.setProc proc paging (regions.eraseIdx id))
              | (hr, kpmm) => .ok (hr, { state with kpmm }.setProc proc paging regions)
          else .ok (.sOk, state.setProc proc paging (regions.eraseIdx id))
        | (hr, paging) => .ok (hr, state.setProc proc paging regions)

/-- `vmm_alloc_and_map` -/
def vmmAllocAndMap (state : VmmState) (procDesc : Option Nat) (virtAddr size usage access : Nat) :
    Except Halt (HResult × VmmState) :=
  match kpmmAlloc state.kpmm (size / pageSize) with
  | (.error hr, kpmm) => .ok (hr, { state with kpmm })
  | (.ok physAddr, kpmm) =>
    vmmMapRegion { state with kpmm } procDesc physAddr virtAddr size (usage ||| usageAutofree)
      access

/-- `vmm_alloc_and_map_limited`.  Physical memory beyond the limit is released again. -/
def vmmAllocAndMapLimited (state : VmmState) (procDesc : Option Nat)
    (virtAddr limit size usage access : Nat) : Except Halt (HResult × VmmState) :=
  match kpmmAlloc state.kpmm (size / pageSize) with
  | (.error hr, kpmm) => .ok (hr, { state with kpmm })
  | (.ok physAddr, kpmm) =>
    if limit < u32 (physAddr + size) then
      .ok (.eFail, { state with kpmm := (kpmmUnmarkBlocks kpmm physAddr (size / pageSize)).2 })
    else
      match procOfDesc state procDesc with
      | .error hr => .ok (hr, { state with kpmm })
      | .ok proc =>
        vmmMapRegion { state with kpmm } (some proc) physAddr virtAddr size
          (usage ||| usageAutofree) access

/-- The loop of `vmm_get_address_space_end_ks`: the region with the largest address so far. -/
def vmmLastRegionLoop : List KVmmRegion → KVmmRegion → Except Halt KVmmRegion
  | [], r => .ok r
  | region :: regions, r =>
    if region.virtAddr = r.virtAddr then .error .assertion
    else vmmLastRegionLoop regions (if r.virtAddr < region.virtAddr then region else r)

/-- `vmm_get_address_space_end_ks` -/
def vmmGetAddressSpaceEndKs (state : VmmState) : Except Halt Nat :=
  match state.kernelRegions with
  | [] => .ok 0xC0000000
  | r :: regions => do
    let r ← vmmLastRegionLoop regions r
    .ok r.endAddr

/-- `vmm_create_heap`: the status, and `*out` where it is set. -/
def vmmCreateHeap (state : VmmState) (pid size usage : Nat) :
    Except Halt (HResult × Option Nat × VmmState) :=
  if size % pageSize ≠ 0 then .error .assertion
  else
    match schedFindProcess state pid with
    | .error hr => .ok (hr, none, state)
    | .ok proc =>
      let phBlocks := u32 (size + (pageSize - 1)) / pageSize
      match kpmmFindFreeRegion state.kpmm phBlocks with
      | .error _ => .error (.panic "vmm_create_heap(): Not enough physical memory.")
      | .ok ptr =>
        match kpmmMarkBlocks state.kpmm ptr phBlocks with
        | (.sOk, kpmm) => do
          let virtAddr ← vmmGetAddressSpaceEndKs { state with kpmm }
          let (hr, state) ← vmmMapRegion { state with kpmm } (some proc) ptr virtAddr size
            (usage ||| usageHeap) accessReadWrite
          .ok (hr, some virtAddr, state)
        | (hr, kpmm) => .ok (hr, none, { state with kpmm })

/-- The loop of `vmm_temp_map_region`: the address it settles for.  An address that is not
available is left for the end of the region found there. -/
def vmmTempLoop (regions : List KVmmRegion) (regionSize : Nat) : Nat → Nat → Except Halt (Option Nat)
  | 0, _ => .error .stuck
  | fuel + 1, addr =>
    if addr < 0xFFFFFFFF - regionSize then
      match regions.find? (·.overlaps addr (u32 (addr + regionSize))) with
      | none => .ok (some addr)
      | some r =>
        if r.endAddr % pageSize ≠ 0 then .error .assertion
        else vmmTempLoop regions regionSize fuel r.endAddr
    else .ok none

/-- `vmm_temp_map_region`; the regions are read from `proc_desc` itself. -/
def vmmTempMapRegion (state : VmmState) (procDesc : Option Nat) (physAddr regionSize : Nat) :
    Except Halt (HResult × Option Nat × VmmState) :=
  match procDesc with
  | none => .error .stuck
  | some proc => do
    match ← vmmTempLoop (state.procs proc).regions regionSize (2 ^ 20) kernelTempStart with
    | none => .ok (.eFail, none, state)
    | some addr =>
      let (hr, state) ← vmmMapRegion state procDesc physAddr addr regionSize usageTemp
        accessReadWrite
      .ok (hr, if hr.failed then none else some addr, state)

/-- `vmm_get_region_phys_addr` -/
def vmmGetRegionPhysAddr (state : VmmState) (procDesc : Option Nat) (virtAddr : Nat) :
    Except HResult Nat :=
  match procOfDesc state procDesc with
  | .error hr => .error hr
  | .ok proc =>
    match (state.procs proc).regions.find? fun r => r.virtAddr = virtAddr with
    | some r => .ok r.physAddr
    | none => .error .eNotFound

/-! ## A first state -/

/-- A fresh system with one process and three page tables to allocate. -/
def VmmState.oneProcess : VmmState where
  kpmm := kpmmInit
  kernelRegions := [⟨0, 0xC0000000, 0x400000, usageKernel, accessReadWrite⟩]
  procs := fun _ => ⟨0, [], fun _ => .zero⟩
  processArray := [0]
  tables := fun _ _ => .zero
  pool := [0x201, 0x202, 0x203]

end Antonix
