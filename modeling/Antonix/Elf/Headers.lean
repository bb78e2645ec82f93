import Antonix.Elf.Segments
import Antonix.Lib.Transition

/-! # The program headers

A segment is loaded exactly when its bytes are in the file, its rounded size does not
wrap, and both processes have room: the new one for the segment, the current one
for the window.  The loop returns when every header is one that it can take, in
the state in which its turn comes. -/

namespace Antonix.Elf

open Function Set Buffer Streams Threads Transition

/-! ## One segment -/

/-- The invariant of the loop over the program headers. -/
structure Loading (proc : Nat) (m : Machine) : Prop where
  tables : m.kernel.vmm.TablesApart
  apart : m.kernel.currentProc ≠ proc
  aligned : ∀ r ∈ m.kernel.regions proc, r.physAddr % pageSize = 0

/-- There is room for a window of this size, besides `taken` page tables. -/
structure WindowFits (vmm : VmmState) (proc size taken : Nat) : Prop where
  few : (vmm.procs proc).regions.length ≠ maxVmRegions
  search : ∃ addr, vmmTempLoop (vmm.procs proc).regions size (2 ^ 20) kernelTempStart =
      .ok (some addr) ∧
    taken + ((vmm.paging proc).missing addr (size / pageSize)).card ≤ vmm.pool.length

/-- There are blocks, a region and page tables for the segment, and it overlaps nothing. -/
structure SegmentFits (vmm : VmmState) (proc : Nat) (ph : KElfProgrHdr32) : Prop where
  few : (vmm.procs proc).regions.length ≠ maxVmRegions
  blocks : ∃ area, (kpmmAlloc vmm.kpmm (ph.size / pageSize)).1 = .ok area
  free : ∀ x ∈ (vmm.procs proc).regions,
    x.overlaps ph.newVaddr (u32 (ph.newVaddr + ph.size)) = false

/-- A segment that the loader can take. -/
structure SegmentSafe (buff : List (BitVec 8)) (proc : Nat) (m : Machine) (ph : KElfProgrHdr32) :
    Prop where
  positive : 0 < ph.sizeMem
  contained : ph.Contained buff
  running : m.kernel.sched.current ≠ none
  room : SegmentFits m.kernel.vmm proc ph
  window : WindowFits m.kernel.vmm m.kernel.currentProc ph.size
    ((m.kernel.vmm.paging proc).missing ph.newVaddr (ph.size / pageSize)).card

/-- The calls for a segment: its memory is at `phys`, and the window for it at `addr`. -/
structure SegmentSteps (buff : List (BitVec 8)) (proc : Nat) (m : Machine) (ph : KElfProgrHdr32)
    (vmm : VmmState) (phys addr : Nat) (vmm₁ : VmmState) (memory : ByteMem) (vmm₂ : VmmState) :
    Prop where
  mapped : vmmAllocAndMap m.kernel.vmm (some proc) ph.newVaddr ph.size (ph.usage ||| usageUser)
    ph.access = .ok (.sOk, vmm)
  found : vmmGetRegionPhysAddr vmm (some proc) ph.newVaddr = .ok phys
  running : m.kernel.sched.current ≠ none
  opened : vmmTempMapRegion vmm (some m.kernel.currentProc) phys ph.size =
    .ok (.sOk, some addr, vmm₁)
  positive : ph.sizeMem ≠ 0
  copied : copySegment (vmm₁.paging m.kernel.currentProc) buff ph addr m.memory = .ok memory
  unmapped : vmmUnmapRegion vmm₁ (some m.kernel.currentProc) addr = .ok (.sOk, vmm₂)

/-- The segment was given the region `r`, and written through a window at `addr` to the
memory at `phys`. -/
structure SegmentLoaded (buff : List (BitVec 8)) (proc : Nat) (m : Machine) (ph : KElfProgrHdr32)
    (r : KVmmRegion) (phys addr : Nat) (vmm : VmmState) (m' : Machine) : Prop where
  place : place r = (ph.newVaddr, ph.size)
  backed : RegionBacked m.kernel.vmm proc r vmm
  found : vmmGetRegionPhysAddr vmm (some proc) ph.newVaddr = .ok phys
  positive : 0 < ph.sizeMem
  contained : ph.Contained buff
  running : m.kernel.sched.current ≠ none
  few : (m.kernel.regions m.kernel.currentProc).length ≠ maxVmRegions
  search : vmmTempLoop (m.kernel.regions m.kernel.currentProc) ph.size (2 ^ 20) kernelTempStart =
    .ok (some addr)
  written : phys + ph.size ≤ 2 ^ 32 →
    m'.memory = writeAt m.memory (phys + ph.alignExcess) (ph.image buff)
  closed : WindowClosed vmm m.kernel.currentProc ph.size addr m'.kernel.vmm
  kernel : m'.kernel = { m.kernel with vmm := m'.kernel.vmm }

section

variable {k : KernelState} {m m' : Machine} {buff : List (BitVec 8)} {proc phys addr : Nat}
  {ph : KElfProgrHdr32} {r : KVmmRegion} {vmm : VmmState}

theorem schedGetCurrentProc_running (running : k.sched.current ≠ none) :
    schedGetCurrentProc k = .ok k.currentProc := by
  rw [schedGetCurrentProc, KernelState.currentProc]
  cases here : k.sched.current with
  | none => exact absurd here running
  | some current => rfl

theorem running_of_schedGetCurrentProc {cur : Nat} (found : schedGetCurrentProc k = .ok cur) :
    k.sched.current ≠ none ∧ cur = k.currentProc := by
  have running : k.sched.current ≠ none := by
    intro none
    rw [schedGetCurrentProc, none] at found
    cases found
  exact ⟨running, Except.ok.inj (found.symm.trans (schedGetCurrentProc_running running))⟩

theorem KElfProgrHdr32.Contained.size_pos (contained : ph.Contained buff)
    (positive : 0 < ph.sizeMem) : 0 < ph.size := by
  have inPages := contained.inPages
  omega

theorem segment_backed (backed : RegionBacked m.kernel.vmm proc r vmm)
    (loading : Loading proc m) (fits : ph.Fits) (place : Threads.place r = (ph.newVaddr, ph.size)) :
    SpaceBuilt m.kernel.vmm proc [r] vmm ∧
      vmm.space m.kernel.currentProc = m.kernel.vmm.space m.kernel.currentProc ∧
      vmm.pool.length +
          ((m.kernel.vmm.paging proc).missing ph.newVaddr (ph.size / pageSize)).card =
        m.kernel.vmm.pool.length := by
  obtain ⟨virt, size⟩ := Prod.mk.inj place
  have virtSmall : r.virtAddr < 2 ^ 32 := virt ▸ fits.newVaddr
  have built := SpaceBuilt.of_mapped backed.mapping loading.tables virtSmall backed.physSmall
    (size ▸ ph.size_lt)
  have pool := backed.mapping.pool loading.tables virtSmall
  rw [virt, size] at pool
  exact ⟨built, built.others _ loading.apart, pool⟩

theorem vmmGetRegionPhysAddr_aligned
    (aligned : ∀ x ∈ (vmm.procs proc).regions, x.physAddr % pageSize = 0)
    (found : vmmGetRegionPhysAddr vmm (some proc) ph.newVaddr = .ok phys) :
    phys % pageSize = 0 := by
  rw [vmmGetRegionPhysAddr, procOfDesc] at found
  dsimp only at found
  split at found
  · next x first =>
    rw [← Except.ok.inj found]
    exact aligned x (List.mem_of_find?_eq_some first)
  · cases found

theorem vmmGetRegionPhysAddr_found (member : r ∈ (vmm.procs proc).regions)
    (virt : r.virtAddr = ph.newVaddr) :
    ∃ phys, vmmGetRegionPhysAddr vmm (some proc) ph.newVaddr = .ok phys := by
  have some : ((vmm.procs proc).regions.find? fun x => x.virtAddr = ph.newVaddr).isSome = true :=
    List.find?_isSome.mpr ⟨r, member, by simpa using virt⟩
  obtain ⟨x, first⟩ := Option.isSome_iff_exists.mp some
  refine ⟨x.physAddr, ?_⟩
  rw [vmmGetRegionPhysAddr, procOfDesc]
  dsimp only
  rw [first]

theorem loadSegment_eq_ok_iff :
    loadSegment buff proc ph m = .ok m' ↔
      ∃ vmm phys addr vmm₁ memory vmm₂, SegmentSteps buff proc m ph vmm phys addr vmm₁ memory vmm₂ ∧
        m' = ⟨{ m.kernel with vmm := vmm₂ }, memory⟩ := by
  constructor
  · intro returned
    obtain ⟨⟨hr, vmm⟩, mapped, returned⟩ := exists_of_bind returned
    dsimp only at returned
    split at returned
    · cases returned
    next succeeded =>
    obtain rfl := HResult.eq_sOk (vmmAllocAndMap_ne_sFalse mapped) succeeded
    cases found : vmmGetRegionPhysAddr vmm (some proc) ph.newVaddr with
    | error hr =>
      rw [found] at returned
      cases returned
    | ok phys =>
      rw [found] at returned
      dsimp only at returned
      cases current : schedGetCurrentProc m.kernel with
      | error hr =>
        rw [current] at returned
        cases returned
      | ok cur =>
        rw [current] at returned
        obtain ⟨running, rfl⟩ := running_of_schedGetCurrentProc current
        obtain ⟨⟨hr, out, vmm₁⟩, opened, returned⟩ := exists_of_bind returned
        cases out with
        | none => cases returned
        | some addr =>
          obtain ⟨rfl, -⟩ := vmmTempMapRegion_mapped opened
          dsimp only at returned
          split at returned
          · cases returned
          next positive =>
          obtain ⟨memory, copied, returned⟩ := exists_of_bind returned
          obtain ⟨⟨hr, vmm₂⟩, unmapped, returned⟩ := exists_of_bind returned
          dsimp only at returned
          split at returned
          · cases returned
          next taken =>
          obtain rfl := HResult.eq_sOk (vmmUnmapRegion_ne_sFalse unmapped) taken
          exact ⟨vmm, phys, addr, vmm₁, memory, vmm₂,
            ⟨mapped, found, running, opened, positive, copied, unmapped⟩,
            (Except.ok.inj returned).symm⟩
  · rintro ⟨vmm, phys, addr, vmm₁, memory, vmm₂, steps, rfl⟩
    rw [loadSegment, steps.mapped]
    dsimp only [bind, Except.bind]
    rw [if_neg (show ¬HResult.sOk.failed = true by decide), steps.found,
      schedGetCurrentProc_running steps.running]
    dsimp only
    rw [steps.opened]
    dsimp only
    rw [if_neg steps.positive, steps.copied]
    dsimp only
    rw [steps.unmapped]
    rfl

/-- What the memory holds does not matter for the kernel. -/
theorem loadSegment_memory (loading : Loading proc m) (fits : ph.Fits)
    (returned : loadSegment buff proc ph m = .ok m') (memory : ByteMem) :
    ∃ memory', loadSegment buff proc ph ⟨m.kernel, memory⟩ = .ok ⟨m'.kernel, memory'⟩ := by
  obtain ⟨vmm, phys, addr, vmm₁, memory₁, vmm₂, steps, rfl⟩ := loadSegment_eq_ok_iff.mp returned
  obtain ⟨physAddr, backed⟩ := vmmAllocAndMap_backed steps.mapped
  obtain ⟨built, -, -⟩ := segment_backed backed loading fits rfl
  obtain ⟨-, window⟩ := vmmTempMapRegion_mapped steps.opened
  obtain ⟨memory', copied⟩ := @copySegment_returns (vmm₁.paging m.kernel.currentProc) buff ph addr
    memory fits (copySegment_contained fits steps.copied) window.fits fun k below =>
      window.translate_isSome built.tables below
  exact ⟨memory', loadSegment_eq_ok_iff.mpr ⟨vmm, phys, addr, vmm₁, memory', vmm₂,
    { steps with copied := copied }, rfl⟩⟩

theorem loadSegment_loaded (loading : Loading proc m) (fits : ph.Fits)
    (returned : loadSegment buff proc ph m = .ok m') :
    ∃ r phys addr vmm, SegmentLoaded buff proc m ph r phys addr vmm m' := by
  obtain ⟨vmm, phys, addr, vmm₁, memory, vmm₂, steps, rfl⟩ := loadSegment_eq_ok_iff.mp returned
  obtain ⟨physAddr, backed⟩ := vmmAllocAndMap_backed steps.mapped
  obtain ⟨built, loaderSpace, -⟩ := segment_backed backed loading fits rfl
  -- the segment went to the new process, so that the window is found as before
  have loaderRegions : (vmm.procs m.kernel.currentProc).regions =
      m.kernel.regions m.kernel.currentProc := congrArg AddressSpace.regions loaderSpace
  obtain ⟨-, window⟩ := vmmTempMapRegion_mapped steps.opened
  have positive : 0 < ph.sizeMem := Nat.pos_of_ne_zero steps.positive
  have contained := copySegment_contained fits steps.copied
  obtain ⟨vmm₃, unmapped, closed⟩ := window.closed built.tables (contained.size_pos positive)
  obtain ⟨-, rfl⟩ := eq_of_returned (steps.unmapped.symm.trans unmapped)
  have search := window.search
  have few := window.mapping.few
  rw [loaderRegions] at search few
  refine ⟨_, phys, addr, vmm, rfl, backed, steps.found, positive, contained, steps.running, few,
    search, fun physFits => ?_, closed, rfl⟩
  have written := @copySegment_eq (vmm₁.paging m.kernel.currentProc) buff ph addr phys
    m.memory fits contained window.fits fun k below =>
      window.translate_eq built.tables physFits below
  exact Except.ok.inj (steps.copied.symm.trans written)

theorem SegmentLoaded.safe (loaded : SegmentLoaded buff proc m ph r phys addr vmm m')
    (loading : Loading proc m) (fits : ph.Fits) : SegmentSafe buff proc m ph := by
  obtain ⟨virt, size⟩ := Prod.mk.inj loaded.place
  obtain ⟨built, loaderSpace, pool⟩ :=
    segment_backed loaded.backed loading fits loaded.place
  -- the page tables of the window stay in the directory when it is closed
  have window := loaded.closed.pool
  rw [missing_of_space loaderSpace] at window
  have alloc := loaded.backed.alloc
  have free := loaded.backed.mapping.apart
  rw [size] at alloc free
  rw [virt] at free
  exact
    { positive := loaded.positive
      contained := loaded.contained
      running := loaded.running
      room :=
        { few := loaded.backed.mapping.few
          blocks := ⟨r.physAddr, congrArg Prod.fst alloc⟩
          free := free }
      window :=
        { few := loaded.few
          search := ⟨addr, loaded.search, by omega⟩ } }

theorem loadSegment_returns (loading : Loading proc m) (fits : ph.Fits)
    (safe : SegmentSafe buff proc m ph) : ∃ m', loadSegment buff proc ph m = .ok m' := by
  obtain ⟨positive, contained, running, room, fewLoader, addr, search, tables⟩ := safe
  obtain ⟨few, blocks, free⟩ := room
  obtain ⟨vmm, mapped⟩ := @vmmAllocAndMap_maps m.kernel.vmm proc ph.newVaddr ph.size
    (ph.usage ||| usageUser) ph.access loading.tables fits.newVaddr few ph.size_whole blocks free
    (by omega)
  obtain ⟨physAddr, backed⟩ := vmmAllocAndMap_backed mapped
  obtain ⟨built, loaderSpace, pool⟩ := segment_backed backed loading fits rfl
  have regions := built.regions
  obtain ⟨phys, found⟩ := @vmmGetRegionPhysAddr_found proc ph _ vmm
    (by rw [regions]; exact List.mem_append_right _ (List.mem_singleton_self _)) rfl
  -- it may be the memory of an older region that starts at the same address
  have aligned : phys % pageSize = 0 := by
    refine vmmGetRegionPhysAddr_aligned ?_ found
    rw [regions]
    exact List.forall_mem_append.mpr ⟨loading.aligned, built.aligned⟩
  have loaderRegions : (vmm.procs m.kernel.currentProc).regions =
      (m.kernel.vmm.procs m.kernel.currentProc).regions :=
    congrArg AddressSpace.regions loaderSpace
  obtain ⟨vmm₁, opened, window⟩ := @vmmTempMapRegion_maps vmm m.kernel.currentProc phys ph.size addr
    built.tables (by rwa [loaderRegions]) (by rwa [loaderRegions]) ph.size_whole aligned
    (by rw [missing_of_space loaderSpace]; omega)
  obtain ⟨memory, copied⟩ := @copySegment_returns (vmm₁.paging m.kernel.currentProc) buff ph addr
    m.memory fits contained window.fits fun k below =>
      window.translate_isSome built.tables below
  obtain ⟨vmm₂, unmapped, -⟩ := window.closed built.tables (contained.size_pos positive)
  exact ⟨_, loadSegment_eq_ok_iff.mpr ⟨vmm, phys, addr, vmm₁, memory, vmm₂,
    ⟨mapped, found, running, opened, Nat.ne_of_gt positive, copied, unmapped⟩, rfl⟩⟩

/-- A segment is loaded exactly when it is one that the loader can take. -/
theorem loadSegment_iff (loading : Loading proc m) (fits : ph.Fits) :
    (∃ m', loadSegment buff proc ph m = .ok m') ↔ SegmentSafe buff proc m ph := by
  refine ⟨fun returned => ?_, loadSegment_returns loading fits⟩
  obtain ⟨m', returned⟩ := returned
  obtain ⟨r, phys, addr, vmm, loaded⟩ := loadSegment_loaded loading fits returned
  exact loaded.safe loading fits

namespace SegmentLoaded

variable (loaded : SegmentLoaded buff proc m ph r phys addr vmm m')
include loaded

theorem currentProc : m'.kernel.currentProc = m.kernel.currentProc := by
  rw [loaded.kernel]
  rfl

theorem regions (loading : Loading proc m) (fits : ph.Fits) :
    m'.kernel.regions proc = m.kernel.regions proc ++ [r] :=
  (loaded.closed.regions proc).trans
    (segment_backed loaded.backed loading fits loaded.place).1.regions

theorem loader_regions (loading : Loading proc m) (fits : ph.Fits) :
    m'.kernel.regions m.kernel.currentProc = m.kernel.regions m.kernel.currentProc :=
  (loaded.closed.regions _).trans
    (congrArg AddressSpace.regions (segment_backed loaded.backed loading fits loaded.place).2.1)

theorem loading (loading : Loading proc m) (fits : ph.Fits) : Loading proc m' where
  tables := loaded.closed.tables
  apart := loaded.currentProc ▸ loading.apart
  aligned := by
    rw [loaded.regions loading fits]
    exact List.forall_mem_append.mpr
      ⟨loading.aligned, List.forall_mem_singleton.mpr loaded.backed.mapping.aligned⟩

end SegmentLoaded

end

/-! ## The loop -/

/-- A program header that the loader can take. -/
def HeaderSafe (buff : List (BitVec 8)) (proc : Nat) (m : Machine) (ph : Nat) : Prop :=
  ph + 4 ≤ buff.length ∧
    ((progrHdr buff ph).segType = elfPtNull ∨ (progrHdr buff ph).segType = elfPtPhdr ∨
      ((progrHdr buff ph).segType = elfPtLoad ∧ ph + 28 ≤ buff.length ∧
        SegmentSafe buff proc m (progrHdr buff ph)))

/-- The pass of the loop for the header at `ph`. -/
def HeaderLoads (buff : List (BitVec 8)) (proc : Nat) (m : Machine) (ph : Nat) (m' : Machine) :
    Prop := loadHeader buff proc ph m = .ok m'

/-- Where the loop looks for program headers. -/
def headerOffsets : Nat → Nat → List Nat
  | 0, _ => []
  | count + 1, ph => ph :: headerOffsets count (u32 (ph + progrHdrSize))

section

variable {m m' : Machine} {buff : List (BitVec 8)} {proc ph count : Nat}

theorem loadHeader_eq (inside : ph + 4 ≤ buff.length) :
    loadHeader buff proc ph m =
      if (progrHdr buff ph).segType = elfPtNull then .ok m
      else if (progrHdr buff ph).segType = elfPtLoad then
        if buff.length < ph + 28 then .error .stuck
        else loadSegment buff proc (progrHdr buff ph) m
      else if (progrHdr buff ph).segType = elfPtPhdr then .ok m
      else .error (.panic "Unhandled program header type.") := by
  rw [loadHeader, readField, if_pos inside]
  rfl

theorem loadHeader_skip (inside : ph + 4 ≤ buff.length)
    (skipped : (progrHdr buff ph).segType = elfPtNull ∨ (progrHdr buff ph).segType = elfPtPhdr) :
    loadHeader buff proc ph m = .ok m := by
  rw [loadHeader_eq inside]
  rcases skipped with isNull | isPhdr
  · rw [if_pos isNull]
  · rw [if_neg (by rw [isPhdr]; decide), if_neg (by rw [isPhdr]; decide), if_pos isPhdr]

theorem loadHeader_load (header : ph + 28 ≤ buff.length)
    (isLoad : (progrHdr buff ph).segType = elfPtLoad) :
    loadHeader buff proc ph m = loadSegment buff proc (progrHdr buff ph) m := by
  rw [loadHeader_eq (by omega), if_neg (by rw [isLoad]; decide), if_pos isLoad, if_neg (by omega)]

theorem loadHeader_cases (returned : loadHeader buff proc ph m = .ok m') :
    ph + 4 ≤ buff.length ∧
      ((((progrHdr buff ph).segType = elfPtNull ∨ (progrHdr buff ph).segType = elfPtPhdr) ∧
          m' = m) ∨
        ((progrHdr buff ph).segType = elfPtLoad ∧ ph + 28 ≤ buff.length ∧
          loadSegment buff proc (progrHdr buff ph) m = .ok m')) := by
  obtain ⟨segType, read, returned⟩ := exists_of_bind returned
  rw [readField] at read
  split at read
  · next inside =>
    obtain rfl := Except.ok.inj read
    refine ⟨inside, ?_⟩
    split at returned
    · next isNull => exact .inl ⟨.inl isNull, (Except.ok.inj returned).symm⟩
    · split at returned
      · next isLoad =>
        split at returned
        · cases returned
        · next header => exact .inr ⟨isLoad, by omega, returned⟩
      · split at returned
        · next isPhdr => exact .inl ⟨.inr isPhdr, (Except.ok.inj returned).symm⟩
        · cases returned
  · cases read

/-- A pass skips a header, or loads its segment. -/
theorem HeaderLoads.cases (loading : Loading proc m) (taken : HeaderLoads buff proc m ph m') :
    (((progrHdr buff ph).segType = elfPtNull ∨ (progrHdr buff ph).segType = elfPtPhdr) ∧
        m' = m) ∨
      ((progrHdr buff ph).segType = elfPtLoad ∧ ∃ r phys addr vmm,
        SegmentLoaded buff proc m (progrHdr buff ph) r phys addr vmm m') := by
  obtain ⟨-, skipped | ⟨isLoad, -, returned⟩⟩ := loadHeader_cases taken
  · exact .inl skipped
  · exact .inr ⟨isLoad,
      loadSegment_loaded loading (KElfProgrHdr32.progrHdr_fits buff ph) returned⟩

theorem HeaderLoads.loading (loading : Loading proc m) (taken : HeaderLoads buff proc m ph m') :
    Loading proc m' := by
  obtain ⟨-, rfl⟩ | ⟨-, r, phys, addr, vmm, loaded⟩ := taken.cases loading
  · exact loading
  · exact loaded.loading loading (KElfProgrHdr32.progrHdr_fits buff ph)

theorem loadHeader_iff (loading : Loading proc m) :
    (∃ m', loadHeader buff proc ph m = .ok m') ↔ HeaderSafe buff proc m ph := by
  have segment := @loadSegment_iff m buff proc _ loading (KElfProgrHdr32.progrHdr_fits buff ph)
  constructor
  · rintro ⟨m', returned⟩
    obtain ⟨inside, ⟨skipped, -⟩ | ⟨isLoad, header, returned⟩⟩ := loadHeader_cases returned
    · exact ⟨inside, skipped.imp_right .inl⟩
    · exact ⟨inside, .inr (.inr ⟨isLoad, header, segment.mp ⟨m', returned⟩⟩)⟩
  · rintro ⟨inside, isNull | isPhdr | ⟨isLoad, header, safe⟩⟩
    · exact ⟨m, loadHeader_skip inside (.inl isNull)⟩
    · exact ⟨m, loadHeader_skip inside (.inr isPhdr)⟩
    · obtain ⟨m', returned⟩ := segment.mpr safe
      exact ⟨m', (loadHeader_load header isLoad).trans returned⟩

/-- The loop is a run of its passes. -/
theorem loadHeaders_iff_run :
    loadHeaders buff proc count ph m = .ok m' ↔
      Run (HeaderLoads buff proc) m (headerOffsets count ph) m' := by
  induction count generalizing ph m with
  | zero =>
    constructor
    · intro returned
      rw [Except.ok.inj returned]
      exact .nil _
    · intro run
      cases run
      rfl
  | succ count inductionHypothesis =>
    constructor
    · intro returned
      obtain ⟨m₁, first, rest⟩ := exists_of_bind returned
      exact .cons first (inductionHypothesis.mp rest)
    · intro run
      cases run with
      | cons first rest =>
        rw [loadHeaders, first]
        exact inductionHypothesis.mpr rest

/-- The loop returns exactly when every header is safe when its turn comes. -/
theorem loadHeaders_returns_iff (loading : Loading proc m) :
    (∃ m', loadHeaders buff proc count ph m = .ok m') ↔
      Along (HeaderLoads buff proc) (HeaderSafe buff proc) m (headerOffsets count ph) := by
  -- induction on the headers that are left; the invariant makes each pass an equivalence
  induction count generalizing ph m with
  | zero => exact iff_of_true ⟨m, rfl⟩ trivial
  | succ count inductionHypothesis =>
    have first := @loadHeader_iff m buff proc ph loading
    constructor
    · rintro ⟨m', returned⟩
      obtain ⟨m₁, taken, rest⟩ := exists_of_bind returned
      refine ⟨first.mp ⟨m₁, taken⟩, fun m₂ taken' => ?_⟩
      obtain rfl := Except.ok.inj (taken.symm.trans taken')
      exact (inductionHypothesis (HeaderLoads.loading loading taken)).mp ⟨m', rest⟩
    · rintro ⟨safe, later⟩
      obtain ⟨m₁, taken⟩ := first.mpr safe
      obtain ⟨m', rest⟩ :=
        (inductionHypothesis (HeaderLoads.loading loading taken)).mpr (later m₁ taken)
      exact ⟨m', by rw [loadHeaders, taken]; exact rest⟩

theorem loadHeaders_keeps (loading : Loading proc m)
    (run : Run (HeaderLoads buff proc) m (headerOffsets count ph) m') :
    Loading proc m' ∧ m'.kernel.sched = m.kernel.sched := by
  refine run.invariant (fun s => Loading proc s ∧ s.kernel.sched = m.kernel.sched) ?_ ⟨loading, rfl⟩
  intro s ph s' before taken
  obtain ⟨before, same⟩ := before
  refine ⟨taken.loading before, ?_⟩
  obtain ⟨-, rfl⟩ | ⟨-, r, phys, addr, vmm, loaded⟩ := taken.cases before
  · exact same
  · rw [loaded.kernel]
    exact same

end

/-! ## Around the loop -/

/-- `hdr->type` -/
def elfType (buff : List (BitVec 8)) : Nat := LittleEndian.field 16 2 buff

/-- The program headers that the header of a file announces. -/
def elfHeaderOffsets (buff : List (BitVec 8)) : List Nat :=
  headerOffsets (LittleEndian.field 44 2 buff) (LittleEndian.field 28 4 buff)

/-- A new process with its stacks and the kernel mapped. -/
structure LoadBegun (k : KernelState) (proc pid : Nat) (k' : KernelState) : Prop where
  id : (k'.sched.procs proc).id = pid
  array : k'.sched.processArray = k.sched.processArray ++ [proc]
  tables : k'.vmm.TablesApart
  layout : (k'.regions proc).map place =
    [(0xBFFFC000, 0x2000), (0xBFFF9000, 0x2000), (0xC0000000, kernelSize)]
  aligned : ∀ r ∈ k'.regions proc, r.physAddr % pageSize = 0
  present : k'.vmm.RegionsPresent proc
  regions : ∀ p, p ≠ proc → k'.regions p = k.regions p
  current : schedGetCurrentProc k' = schedGetCurrentProc k ∧ k'.currentProc = k.currentProc
  loader : WindowsGone k.vmm k.currentProc [stackSizeKernel] k'.vmm

section

variable {k k' : KernelState} {memory : ByteMem} {proc found t pid : Nat}

theorem ProcessCreated.schedFindProc (created : ProcessCreated k proc pid k')
    (ready : k.Ready proc t) : Sched.schedFindProc k'.sched pid = .ok proc := by
  -- no older process has the new pid, so the search goes on to the new one
  have older : ∀ p ∈ k.sched.processArray, ¬(k'.sched.procs p).id = pid := by
    intro p member
    rw [created.others p (ne_of_mem_of_not_mem member ready.newProc), created.given]
    exact Nat.ne_of_lt (ready.pids p member)
  rw [Sched.schedFindProc, created.array, List.find?_append,
    List.find?_eq_none.mpr (by simpa using older)]
  simp [created.id]

/-- What the loader has done when it comes to the program headers. -/
theorem elfLoadBegin_begun (ready : k.Ready proc t)
    (returned : elfLoadBegin k proc t = .ok (.ok (pid, found), k')) :
    found = proc ∧ LoadBegun k proc pid k' := by
  obtain ⟨⟨hr, pid', k₁⟩, create, returned⟩ := exists_of_bind returned
  cases pid' with
  | none => cases (eq_of_returned returned).1
  | some pid' =>
    have created := schedCreateProcess_created ready create
    dsimp only at returned
    rw [ProcessCreated.schedFindProc created ready] at returned
    obtain ⟨⟨hr, vmm⟩, mapped, returned⟩ := exists_of_bind returned
    dsimp only at returned
    split at returned
    · cases returned
    next succeeded =>
    obtain ⟨answer, rfl⟩ := eq_of_returned returned
    obtain ⟨rfl, rfl⟩ := Prod.mk.inj (Except.ok.inj answer)
    obtain rfl := HResult.eq_sOk (vmmMapRegion_ne_sFalse mapped) succeeded
    obtain ⟨-, proc', desc, mapping⟩ := (vmmMapRegion_cases mapped).resolve_left (by simp)
    obtain rfl : proc = proc' := Except.ok.inj desc
    have built := SpaceBuilt.of_mapped mapping created.tables (by decide) (by decide) (by decide)
    have loaderSpace := built.others k.currentProc ready.notCurrent
    refine ⟨rfl,
      { id := created.id
        array := created.array
        tables := built.tables
        layout := ?_
        aligned := ?_
        present := built.present created.present
        regions := fun p other =>
          (congrArg AddressSpace.regions (built.others p other)).trans (created.regions p other)
        current := created.current
        loader := created.loader.trans (.of_space (created.current.2 ▸ loaderSpace)) }⟩
    · change ((vmm.procs proc).regions).map place = _
      rw [built.regions, List.map_append]
      change (k₁.regions proc).map place ++ _ = _
      rw [created.layout]
      rfl
    · change ∀ r ∈ (vmm.procs proc).regions, _
      rw [built.regions]
      exact List.forall_mem_append.mpr ⟨created.aligned, built.aligned⟩

theorem LoadBegun.loading (begun : LoadBegun k proc pid k') (ready : k.Ready proc t) :
    Loading proc ⟨k', memory⟩ where
  tables := begun.tables
  apart := begun.current.2 ▸ ready.notCurrent
  aligned := begun.aligned

theorem elfLoadBegin_error {hr : HResult} (returned : elfLoadBegin k proc t = .ok (.error hr, k')) :
    hr.failed = true := by
  obtain ⟨⟨hr', pid, k₁⟩, create, returned⟩ := exists_of_bind returned
  cases pid with
  | none =>
    obtain ⟨answer, -⟩ := eq_of_returned returned
    obtain rfl := Except.error.inj answer
    rw [schedCreateProcess] at create
    split at create
    · rw [← (eq_of_answered create).1]
      rfl
    · obtain ⟨⟨hr₁, k₂⟩, -, stored⟩ := exists_of_bind create
      dsimp only at stored
      split at stored
      · next failed => rwa [← (eq_of_answered stored).1]
      · cases (eq_of_answered stored).2.1
  | some pid =>
    dsimp only at returned
    split at returned
    · cases returned
    · obtain ⟨⟨hr₁, vmm⟩, -, returned⟩ := exists_of_bind returned
      dsimp only at returned
      split at returned
      · cases returned
      · cases (eq_of_returned returned).1

theorem elfLoadFromMemory_eq {m : Machine} {buff : List (BitVec 8)}
    (long : elfHeaderSize ≤ buff.length) :
    elfLoadFromMemory m buff proc t =
      if elfType buff ≠ elfTypeExecutable then .ok (.eFail, none, m)
      else (do
        match ← elfLoadBegin m.kernel proc t with
        | (.error hr, kernel) => .ok (hr, none, { m with kernel })
        | (.ok (pid, proc), kernel) => do
          let m ← loadHeaders buff proc (LittleEndian.field 44 2 buff)
            (LittleEndian.field 28 4 buff) { m with kernel }
          let sched ← Sched.elfLoadFinish m.kernel.sched proc
          .ok (.sOk, some pid, { m with kernel := { m.kernel with sched } })) := by
  have read : ∀ offset count, offset + count ≤ 52 →
      readField buff offset count = .ok (LittleEndian.field offset count buff) := by
    intro offset count inside
    exact if_pos (Nat.le_trans inside long)
  rw [elfLoadFromMemory, read 16 2 (by decide), read 24 4 (by decide), read 28 4 (by decide),
    read 44 2 (by decide)]
  rfl

theorem elfLoadFromMemory_of_run {m m₁ : Machine} {buff : List (BitVec 8)}
    {sched : Sched.SchedState} (long : elfHeaderSize ≤ buff.length)
    (executable : elfType buff = elfTypeExecutable)
    (begins : elfLoadBegin m.kernel proc t = .ok (.ok (pid, found), k))
    (run : Run (HeaderLoads buff found) ⟨k, m.memory⟩ (elfHeaderOffsets buff) m₁)
    (finished : Sched.elfLoadFinish m₁.kernel.sched found = .ok sched) :
    elfLoadFromMemory m buff proc t =
      .ok (.sOk, some pid, { m₁ with kernel := { m₁.kernel with sched } }) := by
  rw [elfLoadFromMemory_eq long, if_neg (not_not_intro executable), begins]
  dsimp only [bind, Except.bind]
  rw [loadHeaders_iff_run.mpr run]
  dsimp only
  rw [finished]

/-- What the loader has done when it returns `S_OK`. -/
theorem elfLoadFromMemory_loaded {m m' : Machine} {buff : List (BitVec 8)} {out : Option Nat}
    (long : elfHeaderSize ≤ buff.length)
    (returned : elfLoadFromMemory m buff proc t = .ok (.sOk, out, m')) :
    elfType buff = elfTypeExecutable ∧ ∃ pid found k m₁ sched,
      elfLoadBegin m.kernel proc t = .ok (.ok (pid, found), k) ∧
      Run (HeaderLoads buff found) ⟨k, m.memory⟩ (elfHeaderOffsets buff) m₁ ∧
      Sched.elfLoadFinish m₁.kernel.sched found = .ok sched ∧ out = some pid ∧
      m' = { m₁ with kernel := { m₁.kernel with sched } } := by
  rw [elfLoadFromMemory_eq long] at returned
  split at returned
  · cases (eq_of_answered returned).1
  next executable =>
  obtain ⟨⟨answer, k⟩, begins, returned⟩ := exists_of_bind returned
  cases answer with
  | error hr =>
    obtain rfl := (eq_of_answered returned).1
    cases elfLoadBegin_error begins
  | ok created =>
    obtain ⟨pid, found⟩ := created
    obtain ⟨m₁, looped, returned⟩ := exists_of_bind returned
    obtain ⟨sched, finished, returned⟩ := exists_of_bind returned
    obtain ⟨-, rfl, rfl⟩ := eq_of_answered returned
    exact ⟨not_not.mp executable, pid, found, k, m₁, sched, begins, loadHeaders_iff_run.mp looped,
      finished, rfl, rfl⟩

end

end Antonix.Elf
