import Antonix.Lib.Ledger
import Antonix.Lib.Transition
import Antonix.MmPhys.Ownership
import Antonix.MmVirt.HeapGrowth
import Antonix.MmVirt.PageTables

/-! # The address space of the kernel (`mm_virt.c`)

The kernel has a table of at most 128 regions and a page directory of its own.  Its heaps
are put behind the region with the largest address, into physical memory that is found
for them, and give it back when they are destroyed. -/

namespace Antonix

open Function Set Transition

/-- `MAX_KERNEL_REGIONS` -/
abbrev maxKernelRegions : Nat := 128

/-- `get_kernel_address_space_offset()` -/
abbrev kernelAddressSpaceOffset : Nat := 0xC0000000

/-- `kernel_regions` up to `kernel_region_cnt`, the physical memory, and `page_dir` with the memory
that its tables are in. -/
structure KernelSpace where
  kpmm : Bitmap 32
  kernelRegions : List KVmmRegion
  paging : Paging

/-- `vmm_map_region_ks` -/
def vmmMapRegionKs (s : KernelSpace) (physAddr virtAddr size usage access : Nat) :
    Except Halt (HResult × KernelSpace) :=
  if virtAddr < kernelAddressSpaceOffset then
    .error (.panic
      "Requesting to map kernel virtual memory to address lower than 0xC0000000.")
  else if s.kernelRegions.length = maxKernelRegions then
    .error (.panic "Maximum count of virtual memory regions reached.")
  else if size % pageSize ≠ 0 then
    .error (.panic "Memory region's length is not granular to page frame size.")
  else if physAddr % 0x1000 ≠ 0 then
    .error (.panic "Physical address must be aligned at 4KiB.")
  else if s.kernelRegions.any (·.overlaps virtAddr (u32 (virtAddr + size))) then .ok (.eFail, s)
  else do
    let fRw := access = accessReadWrite
    let fUs := usage = usageUser
    let paging ← vmmMapPages fRw fUs (size / pageSize) physAddr virtAddr s.paging
    .ok (.sOk, { s with
      paging := paging
      kernelRegions := s.kernelRegions ++ [⟨physAddr, virtAddr, size, usage, access⟩] })

/-- `vmm_unmap_region_ks` -/
def vmmUnmapRegionKs (s : KernelSpace) (virtAddr : Nat) : Except Halt (HResult × KernelSpace) :=
  match s.kernelRegions.findIdx? fun r => r.virtAddr = virtAddr with
  | none => .ok (.eInvalidArg, s)
  | some id =>
    let r := s.kernelRegions.getD id ⟨0, 0, 0, 0, 0⟩
    if r.usage &&& usageKernel = 0 then .ok (.eInvalidArg, s)
    else if r.regionSize / pageSize = 0 then .error .assertion
    else do
      match ← vmmUnmapPages (u32 (virtAddr + r.regionSize)) (r.regionSize / pageSize + 1) virtAddr
        s.paging with
      | (.sOk, paging) =>
        .ok (.sOk, { s with paging := paging, kernelRegions := s.kernelRegions.eraseIdx id })
      | (hr, paging) => .ok (hr, { s with paging := paging })

/-- `vmm_find_region_ks` -/
def vmmFindRegionKs (s : KernelSpace) (virtAddr : Nat) : Except HResult KVmmRegion :=
  match s.kernelRegions.find? fun r => r.virtAddr = virtAddr with
  | some r => .ok r
  | none => .error .eFail

/-- `vmm_get_address_space_end_ks` for the kernel alone. -/
def KernelSpace.addressSpaceEnd (s : KernelSpace) : Except Halt Nat :=
  match s.kernelRegions with
  | [] => .ok 0xC0000000
  | r :: regions => do
    let r ← vmmLastRegionLoop regions r
    .ok r.endAddr

/-- `vmm_create_heap_k`: the status, and `*out` where it is set. -/
def vmmCreateHeapK (s : KernelSpace) (size usage : Nat) :
    Except Halt (HResult × Option Nat × KernelSpace) :=
  if size % pageSize ≠ 0 then .error .assertion
  else
    let phBlocks := u32 (size + (pageSize - 1)) / pageSize
    match kpmmFindFreeRegion s.kpmm phBlocks with
    | .error _ => .error (.panic "Not enough physical memory")
    | .ok ptr =>
      if usage = usageKernel then
        match kpmmMarkBlocks s.kpmm ptr phBlocks with
        | (.sOk, kpmm) => do
          let virtAddr ← s.addressSpaceEnd
          let (hr, s) ← vmmMapRegionKs { s with kpmm := kpmm } ptr virtAddr size
            (usage ||| usageHeap) accessReadWrite
          .ok (hr, some virtAddr, s)
        | (hr, kpmm) => .ok (hr, none, { s with kpmm := kpmm })
      else .ok (.eFail, none, s)

/-- `vmm_destroy_heap_k` -/
def vmmDestroyHeapK (s : KernelSpace) (heapPtr : Nat) : Except Halt (HResult × KernelSpace) :=
  match vmmFindRegionKs s heapPtr with
  | .error hr => .ok (hr, s)
  | .ok r =>
    if r.usage &&& usageHeap = 0 then .error (.panic "Trying to free non-heap region")
    else if r.usage &&& usageKernel ≠ 0 then do
      match ← vmmUnmapRegionKs s r.virtAddr with
      | (.sOk, s) =>
        if r.regionSize % pageSize ≠ 0 then .error .assertion
        else
          let (hr, kpmm) := kpmmUnmarkBlocks s.kpmm r.physAddr (r.regionSize / pageSize)
          .ok (hr, { s with kpmm := kpmm })
      | (hr, s) => .ok (hr, s)
    else .error (.panic "Destroying user-space heap is not implemented.")

/-- The region that `vmm_init_virtual_address_space` maps. -/
def kernelImage : KVmmRegion := ⟨0, 0xC0000000, 4 * 1024 * 1024, usageKernel, accessReadWrite⟩

/-- `vmm_init`, when nothing has been mapped; `pool` are the frames that the next calls of
`skheap_calloc_a` return. -/
def vmmInit (kpmm : Bitmap 32) (tables : Nat → KVmmPageTable) (pool : List Nat) :
    Except Halt KernelSpace := do
  let blank : KernelSpace := ⟨kpmm, [], fun _ => .zero, tables, pool⟩
  let (hr, s) ← vmmMapRegionKs blank 0 0xC0000000 (4 * 1024 * 1024) usageKernel accessReadWrite
  if hr.failed then
    .error (.panic "Failed to map region [0x0..0x00100000] to [0xC0000000..0xC0100000].")
  else .ok s

/-! ## Runs -/

inductive KernelCall where
  | createHeap (size usage : Nat)
  | destroyHeap (heapPtr : Nat)

inductive KernelAnswer where
  | created (hr : HResult) (out : Option Nat)
  | destroyed (hr : HResult)

/-- A call that returns. -/
inductive KernelStep : KernelSpace → KernelCall × KernelAnswer → KernelSpace → Prop
  | createHeap {s t : KernelSpace} {size usage : Nat} {hr : HResult} {out : Option Nat}
      (called : vmmCreateHeapK s size usage = .ok (hr, out, t)) :
      KernelStep s (.createHeap size usage, .created hr out) t
  | destroyHeap {s t : KernelSpace} {heapPtr : Nat} {hr : HResult}
      (called : vmmDestroyHeapK s heapPtr = .ok (hr, t)) :
      KernelStep s (.destroyHeap heapPtr, .destroyed hr) t

/-- A heap is not empty and ends inside the address space, and the memory that is found for it ends
below 4 GB. -/
def KernelCall.InRange (s : KernelSpace) : KernelCall → Prop
  | .createHeap size _ => 0 < size ∧ size < 2 ^ 32 ∧
    (∀ endKs, s.addressSpaceEnd = .ok endKs → endKs + size < 2 ^ 32) ∧
    ∀ ptr, kpmmFindFreeRegion s.kpmm (size / pageSize) = .ok ptr → ptr + size ≤ 2 ^ 32
  | .destroyHeap _ => True

/-! ## The heaps

They follow one another behind the image of the kernel, so that no two regions overlap; what is
mapped is the regions and nothing else, and a heap owns the physical memory behind it until it is
destroyed. -/

/-- The blocks of physical memory behind a region. -/
def KVmmRegion.blocks (r : KVmmRegion) : Set Nat := blockRange r.physAddr (r.regionSize / pageSize)

/-- A region as `vmm_create_heap_k` records it. -/
structure IsKernelHeap (r : KVmmRegion) : Prop where
  usage : r.usage = usageKernel ||| usageHeap
  virtAligned : r.virtAddr % pageSize = 0
  physAligned : r.physAddr % pageSize = 0
  whole : r.regionSize % pageSize = 0
  nonempty : 0 < r.regionSize
  fits : r.Fits
  physFits : r.physAddr + r.regionSize ≤ 2 ^ 32

/-- The second region begins where the first ends, or later. -/
def KVmmRegion.Before (r r' : KVmmRegion) : Prop := r.virtAddr + r.regionSize ≤ r'.virtAddr

/-- The heaps are recorded behind the image, mapped, and the owners of their memory. -/
structure KernelSound (foreign : Set Nat) (ledger : Ledger KVmmRegion.blocks)
    (heaps : List KVmmRegion) (s : KernelSpace) : Prop where
  regions : s.kernelRegions = kernelImage :: heaps
  wellFormed : ∀ r ∈ heaps, IsKernelHeap r
  ascending : (kernelImage :: heaps).Pairwise KVmmRegion.Before
  sound : s.paging.Sound foreign
  tables : ∀ r ∈ kernelImage :: heaps, ∀ m ∈ r.pages, (s.paging.dir (m / 1024)).pageTableAddr ≠ 0
  inside : ∀ r ∈ kernelImage :: heaps, ∀ m ∈ r.pages, s.paging.entry m = ⟨true, true, false, r.frame m⟩
  outside : ∀ m, (∀ r ∈ kernelImage :: heaps, m ∉ r.pages) → (s.paging.entry m).fPresent = false
  live : ledger.live.Perm heaps
  used : s.kpmm.bits = ledger.used

section

variable {foreign : Set Nat} {ledger : Ledger KVmmRegion.blocks} {heaps : List KVmmRegion}
  {s t : KernelSpace} {r : KVmmRegion}

theorem kernelImage_fits : kernelImage.Fits := by
  simp [KVmmRegion.Fits, kernelImage]

theorem KernelSound.region_fits (sound : KernelSound foreign ledger heaps s)
    (member : r ∈ kernelImage :: heaps) :
    r.virtAddr % pageSize = 0 ∧ r.regionSize % pageSize = 0 ∧ 0 < r.regionSize ∧ r.Fits := by
  cases List.mem_cons.mp member with
  | inl image =>
    subst image
    exact ⟨by decide, by decide, by decide, kernelImage_fits⟩
  | inr heap =>
    have wellFormed := sound.wellFormed r heap
    exact ⟨wellFormed.virtAligned, wellFormed.whole, wellFormed.nonempty, wellFormed.fits⟩

/-! ## The end of the address space -/

/-- Of regions that follow one another the last one is found. -/
theorem vmmLastRegionLoop_eq {first last : KVmmRegion} {regions : List KVmmRegion}
    (nonempty : ∀ r ∈ first :: regions, 0 < r.regionSize)
    (ascending : (first :: regions).Pairwise KVmmRegion.Before)
    (isLast : (first :: regions).getLast? = some last) :
    vmmLastRegionLoop regions first = .ok last := by
  induction regions generalizing first with
  | nil =>
    obtain rfl : first = last := by simpa using isLast
    rfl
  | cons region regions inductionHypothesis =>
    have later : first.virtAddr + first.regionSize ≤ region.virtAddr :=
      (List.pairwise_cons.mp ascending).1 region List.mem_cons_self
    have some := nonempty first List.mem_cons_self
    rw [vmmLastRegionLoop, if_neg (by omega), if_pos (by omega)]
    apply inductionHypothesis
    · exact fun r member => nonempty r (List.mem_cons_of_mem _ member)
    · exact (List.pairwise_cons.mp ascending).2
    · simpa using isLast

/-- The last region, with all others before it. -/
theorem exists_last {regions : List KVmmRegion} {first : KVmmRegion}
    (ascending : (first :: regions).Pairwise KVmmRegion.Before) :
    ∃ last, (first :: regions).getLast? = some last ∧ last ∈ first :: regions ∧
      ∀ r ∈ first :: regions, r = last ∨ r.Before last := by
  obtain ⟨front, last, split⟩ : ∃ front last, first :: regions = front ++ [last] :=
    ⟨_, _, (List.dropLast_append_getLast (List.cons_ne_nil _ _)).symm⟩
  rw [split] at ascending ⊢
  refine ⟨last, by simp, by simp, ?_⟩
  intro r member
  cases List.mem_append.mp member with
  | inl earlier =>
    have before := (List.pairwise_append.mp ascending).2.2
    exact .inr (before r earlier last (by simp))
  | inr same => exact .inl (List.mem_singleton.mp same)

/-- The address space ends where no region reaches. -/
theorem KernelSound.addressSpaceEnd (sound : KernelSound foreign ledger heaps s) :
    ∃ endKs, s.addressSpaceEnd = .ok endKs ∧ endKs % pageSize = 0 ∧
      kernelAddressSpaceOffset ≤ endKs ∧
      ∀ r ∈ kernelImage :: heaps, r.virtAddr + r.regionSize ≤ endKs := by
  obtain ⟨last, isLast, member, greatest⟩ := exists_last sound.ascending
  have found := vmmLastRegionLoop_eq (fun r member => (sound.region_fits member).2.2.1)
    sound.ascending isLast
  obtain ⟨virtAligned, whole, nonempty, fits⟩ := sound.region_fits member
  have below : ∀ r ∈ kernelImage :: heaps, r.virtAddr + r.regionSize ≤
      last.virtAddr + last.regionSize := by
    intro r other
    cases greatest r other with
    | inl same => rw [same]
    | inr before =>
      have before' : r.virtAddr + r.regionSize ≤ last.virtAddr := before
      omega
  refine ⟨last.endAddr, ?_, ?_, ?_, ?_⟩
  · rw [KernelSpace.addressSpaceEnd, sound.regions]
    simp only [found, bind, Except.bind]
  · rw [fits.endAddr_eq]
    simp only [pageSize] at *
    omega
  · have image := below kernelImage List.mem_cons_self
    rw [fits.endAddr_eq]
    simp only [kernelImage, kernelAddressSpaceOffset] at *
    omega
  · intro r other
    rw [fits.endAddr_eq]
    exact below r other

/-! ## Creating a heap -/

theorem KVmmRegion.mem_pages_of_fits {m : Nat} : m ∈ r.pages ↔
    r.virtAddr / pageSize ≤ m ∧ m < r.virtAddr / pageSize + r.regionSize / pageSize := Iff.rfl

/-- A region that is mapped behind all the others. -/
theorem KernelSound.mapped (sound : KernelSound foreign ledger heaps s) (heap : IsKernelHeap r)
    (behind : ∀ x ∈ kernelImage :: heaps, x.virtAddr + x.regionSize ≤ r.virtAddr)
    {paging : Paging} {kpmm : Bitmap 32}
    (mapped : PagesMapped foreign true false r.frame r.pages s.paging paging)
    (free : Disjoint r.blocks ledger.used) (marked : kpmm.bits = s.kpmm.bits ∪ r.blocks) :
    KernelSound foreign (ledger.alloc r free) (heaps ++ [r])
      { kpmm := kpmm, kernelRegions := s.kernelRegions ++ [r], paging := paging } where
  regions := by simp [sound.regions]
  wellFormed := by
    intro x member
    cases List.mem_append.mp member with
    | inl older => exact sound.wellFormed x older
    | inr newest => rw [List.mem_singleton.mp newest]; exact heap
  ascending := by
    rw [← List.cons_append, List.pairwise_append]
    refine ⟨sound.ascending, List.pairwise_singleton _ _, ?_⟩
    intro x older y newest
    rw [List.mem_singleton.mp newest]
    exact behind x older
  sound := mapped.sound
  tables := by
    intro x member m page
    rw [← List.cons_append, List.mem_append] at member
    cases member with
    | inl older =>
      have table := sound.tables x older m page
      rwa [mapped.kept _ table]
    | inr newest =>
      rw [List.mem_singleton.mp newest] at page
      exact mapped.tables m page
  inside := by
    intro x member m page
    rw [← List.cons_append, List.mem_append] at member
    cases member with
    | inl older =>
      -- the pages of the older regions are all below
      have below := behind x older
      obtain ⟨virtAligned, whole, -, -⟩ := sound.region_fits older
      have other : m ∉ r.pages := by
        intro also
        rw [KVmmRegion.mem_pages_of_fits] at page also
        have aligned := heap.virtAligned
        simp only [pageSize] at *
        omega
      rw [mapped.outside m other]
      exact sound.inside x older m page
    | inr newest =>
      rw [List.mem_singleton.mp newest] at page ⊢
      exact mapped.inside m page
  outside := by
    intro m nowhere
    rw [mapped.outside m (nowhere r (by simp))]
    exact sound.outside m fun x member => nowhere x (by
      rw [← List.cons_append]
      exact List.mem_append_left _ member)
  live := by
    rw [Ledger.live_alloc]
    exact (List.Perm.cons r sound.live).trans (List.perm_append_singleton r heaps).symm
  used := by
    rw [Ledger.used_alloc, ← sound.used]
    exact marked

/-- What a call leaves: a sound state in which no memory has been given up for good, unless a call
failed, and in which the page tables of others are as they were. -/
structure KernelKept (foreign : Set Nat) (ledger : Ledger KVmmRegion.blocks) (s : KernelSpace)
    (hr : HResult) (t : KernelSpace) : Prop where
  others : EqOn t.paging.tables s.paging.tables foreign
  sound : ∃ ledger' heaps', KernelSound foreign ledger' heaps' t ∧
    ledger.reserved ⊆ ledger'.reserved ∧ (hr = .sOk → ledger'.reserved = ledger.reserved)

theorem KernelSound.kept (sound : KernelSound foreign ledger heaps s) (hr : HResult) :
    KernelKept foreign ledger s hr s :=
  ⟨eqOn_refl _ _, ledger, heaps, sound, subset_rfl, fun _ => rfl⟩

/-- Blocks that a failed `kpmm_mark_blocks` left marked. -/
theorem KernelSound.leaked (sound : KernelSound foreign ledger heaps s) {kpmm : Bitmap 32}
    {hr : HResult} (failed : hr ≠ .sOk) (more : s.kpmm.bits ⊆ kpmm.bits) :
    KernelKept foreign ledger s hr { s with kpmm := kpmm } := by
  have free : Disjoint (kpmm.bits \ ledger.used) ledger.used := disjoint_sdiff_self_left
  refine ⟨eqOn_refl _ _, ledger.reserve _ free, heaps, ?_, ?_, fun isOk => absurd isOk failed⟩
  · refine ⟨sound.regions, sound.wellFormed, sound.ascending, sound.sound, sound.tables,
      sound.inside, sound.outside, sound.live, ?_⟩
    rw [Ledger.used_reserve, union_sdiff_cancel]
    rwa [← sound.used]
  · rw [Ledger.reserved_reserve]
    exact subset_union_left

/-- Everything that `vmm_create_heap_k` can do when it returns. -/
theorem vmmCreateHeapK_cases {size usage : Nat} {hr : HResult} {out : Option Nat}
    (called : vmmCreateHeapK s size usage = .ok (hr, out, t)) :
    size % pageSize = 0 ∧ ∃ ptr,
      kpmmFindFreeRegion s.kpmm (u32 (size + (pageSize - 1)) / pageSize) = .ok ptr ∧
      ((hr = .eFail ∧ t = s) ∨ ∃ kpmm,
        (kpmmMarkBlocks s.kpmm ptr (u32 (size + (pageSize - 1)) / pageSize) = (hr, kpmm) ∧
          hr ≠ .sOk ∧ t = { s with kpmm := kpmm }) ∨
        ∃ endKs, kpmmMarkBlocks s.kpmm ptr (u32 (size + (pageSize - 1)) / pageSize) = (.sOk, kpmm) ∧
          s.addressSpaceEnd = .ok endKs ∧ out = some endKs ∧
          vmmMapRegionKs { s with kpmm := kpmm } ptr endKs size (usageKernel ||| usageHeap)
            accessReadWrite = .ok (hr, t)) := by
  unfold vmmCreateHeapK at called
  split at called
  · cases called
  · next whole =>
    refine ⟨not_not.mp whole, ?_⟩
    dsimp only at called
    split at called
    · cases called
    · next ptr found =>
      refine ⟨ptr, found, ?_⟩
      split at called
      · next kernel =>
        subst kernel
        split at called
        · next kpmm marked =>
          obtain ⟨endKs, isEnd, called⟩ := exists_of_bind called
          obtain ⟨⟨status, after⟩, mapped, called⟩ := exists_of_bind called
          obtain ⟨rfl, rfl, rfl⟩ := eq_of_answered called
          exact .inr ⟨kpmm, .inr ⟨endKs, marked, isEnd, rfl, mapped⟩⟩
        · next status kpmm failed marked =>
          obtain ⟨rfl, -, rfl⟩ := eq_of_answered called
          exact .inr ⟨kpmm, .inl ⟨marked, failed, rfl⟩⟩
      · obtain ⟨rfl, -, rfl⟩ := eq_of_answered called
        exact .inl ⟨rfl, rfl⟩

/-- Behind all regions nothing overlaps, and the pages are mapped. -/
theorem KernelSound.mapRegion (sound : KernelSound foreign ledger heaps s) (heap : IsKernelHeap r)
    (access : r.access = accessReadWrite)
    (behind : ∀ x ∈ kernelImage :: heaps, x.virtAddr + x.regionSize ≤ r.virtAddr)
    {kpmm : Bitmap 32} {hr : HResult}
    (called : vmmMapRegionKs { s with kpmm := kpmm } r.physAddr r.virtAddr r.regionSize r.usage
      r.access = .ok (hr, t)) :
    hr = .sOk ∧ ∃ paging, t = ⟨kpmm, s.kernelRegions ++ [r], paging⟩ ∧
      PagesMapped foreign true false r.frame r.pages s.paging paging := by
  have fits : r.virtAddr + r.regionSize < 2 ^ 32 := heap.fits
  have apart : s.kernelRegions.any
      (·.overlaps r.virtAddr (u32 (r.virtAddr + r.regionSize))) = false := by
    rw [sound.regions, u32_of_lt fits, List.any_eq_false]
    intro x member
    obtain ⟨-, -, some, xFits⟩ := sound.region_fits member
    have below := behind x member
    rw [KVmmRegion.overlaps, xFits.endAddr_eq]
    simp only [Bool.or_eq_true, Bool.and_eq_true, decide_eq_true_eq]
    omega
  have high : ¬ r.virtAddr < kernelAddressSpaceOffset := by
    have image := behind kernelImage List.mem_cons_self
    simp only [kernelImage, kernelAddressSpaceOffset] at *
    omega
  unfold vmmMapRegionKs at called
  dsimp only at called
  rw [if_neg high] at called
  split at called
  · cases called
  · rw [if_neg (not_not.mpr heap.whole), if_neg (not_not.mpr heap.physAligned), apart,
      if_neg (by simp)] at called
    obtain ⟨paging, pages, called⟩ := exists_of_bind called
    obtain ⟨rfl, rfl⟩ := eq_of_returned called
    refine ⟨rfl, paging, rfl, ?_⟩
    have frames : ∀ i < r.regionSize / pageSize, r.frame (r.virtAddr / pageSize + i) =
        (if i = 0 then r.physAddr else u32 (r.physAddr + i * pageSize)) / pageSize := by
      intro i below
      rw [KVmmRegion.frame, Nat.add_sub_cancel_left]
      by_cases first : i = 0
      · simp [first]
      · rw [if_neg first, if_neg (by omega)]
    have ends : r.virtAddr + r.regionSize / pageSize * pageSize ≤ 2 ^ 32 := by
      have back := Nat.div_mul_le_self r.regionSize pageSize
      omega
    have writable : decide (r.access = accessReadWrite) = true := by simp [access]
    have kernel : decide (r.usage = usageUser) = false := by
      rw [heap.usage]
      decide
    rw [writable, kernel] at pages
    exact vmmMapPages_spec sound.sound ends frames pages

/-- A heap is created behind all regions. -/
theorem KernelSound.createHeap (sound : KernelSound foreign ledger heaps s) {size usage : Nat}
    {hr : HResult} {out : Option Nat} (inRange : (KernelCall.createHeap size usage).InRange s)
    (called : vmmCreateHeapK s size usage = .ok (hr, out, t)) :
    KernelKept foreign ledger s hr t := by
  obtain ⟨positive, small, fits, physFits⟩ := inRange
  obtain ⟨whole, ptr, found, outcome⟩ := vmmCreateHeapK_cases called
  have phBlocks : u32 (size + (pageSize - 1)) / pageSize = size / pageSize := by
    simp only [pageSize] at *
    rw [u32_of_lt (by omega)]
    omega
  rw [phBlocks] at found outcome
  cases outcome with
  | inl refused =>
    obtain ⟨rfl, rfl⟩ := refused
    exact sound.kept .eFail
  | inr outcome =>
    obtain ⟨kpmm, outcome⟩ := outcome
    cases outcome with
    | inl failed =>
      obtain ⟨marked, notOk, rfl⟩ := failed
      have more := (kpmmMarkBlocks_bounds s.kpmm ptr (size / pageSize)).1
      rw [marked] at more
      exact sound.leaked notOk more
    | inr mapped =>
      obtain ⟨virtAddr, marked, isEnd, -, mapped⟩ := mapped
      obtain ⟨endKs, atEnd, endAligned, -, behind⟩ := sound.addressSpaceEnd
      obtain rfl : virtAddr = endKs := Except.ok.inj (isEnd.symm.trans atEnd)
      let r : KVmmRegion := ⟨ptr, virtAddr, size, usageKernel ||| usageHeap, accessReadWrite⟩
      have heap : IsKernelHeap r :=
        ⟨rfl, endAligned, kpmmFindFreeRegion_aligned found, whole, positive, fits virtAddr isEnd,
          physFits ptr found⟩
      -- what could be marked was free
      have free : Disjoint r.blocks s.kpmm.bits := by
        by_contra occupied
        have refused : (kpmmMarkBlocks s.kpmm ptr (size / pageSize)).1 = .eFail :=
          kpmmMarkBlocks_occupied occupied
        rw [marked] at refused
        cases refused
      have bits : (kpmmMarkBlocks s.kpmm ptr (size / pageSize)).2.bits = s.kpmm.bits ∪ r.blocks :=
        (kpmmMarkBlocks_free free).2
      rw [marked] at bits
      obtain ⟨rfl, paging, rfl, pages⟩ := sound.mapRegion (r := r) heap rfl behind mapped
      rw [sound.used] at free
      exact ⟨pages.foreign, _, _, sound.mapped heap behind pages free bits, subset_rfl,
        fun _ => rfl⟩

/-! ## Destroying a heap -/

/-- The pages of two regions that follow one another are different. -/
theorem KVmmRegion.Before.pages_disjoint {r' : KVmmRegion} (before : r.Before r')
    (whole : r.regionSize % pageSize = 0) (aligned : r.virtAddr % pageSize = 0)
    (aligned' : r'.virtAddr % pageSize = 0) {m : Nat} (page : m ∈ r.pages) : m ∉ r'.pages := by
  intro also
  have order : r.virtAddr + r.regionSize ≤ r'.virtAddr := before
  rw [KVmmRegion.mem_pages_of_fits] at page also
  simp only [pageSize] at *
  omega

/-- No region before a heap has its address. -/
theorem KernelSound.differs (sound : KernelSound foreign ledger heaps s)
    {before after : List KVmmRegion} (split : heaps = before ++ r :: after) {x : KVmmRegion}
    (earlier : x ∈ kernelImage :: before) : x.Before r ∧ x.virtAddr ≠ r.virtAddr := by
  have ascending := sound.ascending
  rw [split, ← List.cons_append] at ascending
  have order : x.Before r := (List.pairwise_append.mp ascending).2.2 x earlier r List.mem_cons_self
  have member : x ∈ kernelImage :: heaps := by
    rw [split, ← List.cons_append]
    exact List.mem_append_left _ earlier
  have nonempty := (sound.region_fits member).2.2.1
  have order' : x.virtAddr + x.regionSize ≤ r.virtAddr := order
  exact ⟨order, by omega⟩

theorem KernelSound.findIdx (sound : KernelSound foreign ledger heaps s)
    {before after : List KVmmRegion} (split : heaps = before ++ r :: after) :
    s.kernelRegions.findIdx? (fun x => x.virtAddr = r.virtAddr) = some (before.length + 1) := by
  have none : (kernelImage :: before).findIdx? (fun x => decide (x.virtAddr = r.virtAddr)) =
      none := by
    rw [List.findIdx?_eq_none_iff]
    intro x earlier
    simpa using (sound.differs split earlier).2
  rw [sound.regions, split, ← List.cons_append, List.findIdx?_append, none, List.findIdx?_cons]
  simp

theorem KernelSound.find (sound : KernelSound foreign ledger heaps s) (member : r ∈ heaps) :
    vmmFindRegionKs s r.virtAddr = .ok r := by
  obtain ⟨before, after, split⟩ := List.append_of_mem member
  have none : (kernelImage :: before).find? (fun x => decide (x.virtAddr = r.virtAddr)) = none := by
    rw [List.find?_eq_none]
    intro x earlier
    simpa using (sound.differs split earlier).2
  rw [vmmFindRegionKs, sound.regions, split, ← List.cons_append, List.find?_append, none]
  simp

/-- A heap is unmapped: its pages all have tables. -/
theorem KernelSound.unmapRegion (sound : KernelSound foreign ledger heaps s)
    {before after : List KVmmRegion} (split : heaps = before ++ r :: after) :
    ∃ paging, vmmUnmapRegionKs s r.virtAddr = .ok (.sOk,
        { s with paging := paging, kernelRegions := kernelImage :: (before ++ after) }) ∧
      PagesCleared foreign r.pages .sOk s.paging paging := by
  have member : r ∈ heaps := by simp [split]
  have heap := sound.wellFormed r member
  have fits : r.virtAddr + r.regionSize < 2 ^ 32 := heap.fits
  have whole := heap.whole
  have nonempty := heap.nonempty
  have pageCnt : r.regionSize / pageSize * pageSize = r.regionSize :=
    Nat.div_mul_cancel (Nat.dvd_of_mod_eq_zero whole)
  have ends : r.virtAddr + r.regionSize / pageSize * pageSize = r.virtAddr + r.regionSize := by
    rw [pageCnt]
  obtain ⟨hr, paging, unmapped, cleared, status⟩ := vmmUnmapPages_spec fits sound.sound ends
    (Nat.lt_succ_self (r.regionSize / pageSize))
  obtain rfl := status (sound.tables r (List.mem_cons_of_mem _ member))
  refine ⟨paging, ?_, cleared⟩
  have entry : s.kernelRegions.getD (before.length + 1) ⟨0, 0, 0, 0, 0⟩ = r := by
    simp [sound.regions, split]
  have erased : s.kernelRegions.eraseIdx (before.length + 1) = kernelImage :: (before ++ after) := by
    rw [sound.regions, split, List.eraseIdx_cons_succ, List.eraseIdx_append_of_length_le le_rfl,
      Nat.sub_self, List.eraseIdx_cons_zero]
  have isKernel : ¬ r.usage &&& usageKernel = 0 := by
    rw [heap.usage]
    decide
  have some : ¬ r.regionSize / pageSize = 0 := by
    simp only [pageSize] at *
    omega
  unfold vmmUnmapRegionKs
  rw [sound.findIdx split]
  simp only [entry, if_neg isKernel, if_neg some, u32_of_lt fits, unmapped, bind, Except.bind,
    erased]

/-- A heap goes, and its memory with it. -/
theorem KernelSound.unmapped (sound : KernelSound foreign ledger heaps s)
    {before after : List KVmmRegion} (split : heaps = before ++ r :: after) {paging : Paging}
    {kpmm : Bitmap 32} (cleared : PagesCleared foreign r.pages .sOk s.paging paging)
    (freed : kpmm.bits = s.kpmm.bits \ r.blocks) :
    KernelSound foreign (ledger.free r) (before ++ after)
      ⟨kpmm, kernelImage :: (before ++ after), paging⟩ := by
  have member : r ∈ heaps := by simp [split]
  have heap := sound.wellFormed r member
  have fewer : (before ++ after).Sublist heaps := by
    rw [split]
    exact List.Sublist.append_left (List.sublist_cons_self r after) before
  have old : ∀ x ∈ kernelImage :: (before ++ after), x ∈ kernelImage :: heaps :=
    fun x rest => (fewer.cons_cons kernelImage).subset rest
  -- the pages of the regions that stay are others
  have others : ∀ x ∈ kernelImage :: (before ++ after), ∀ m ∈ x.pages, m ∉ r.pages := by
    intro x rest m page also
    obtain ⟨xAligned, xWhole, -, -⟩ := sound.region_fits (old x rest)
    rw [← List.cons_append, List.mem_append] at rest
    cases rest with
    | inl earlier =>
      have order := (sound.differs split earlier).1
      exact order.pages_disjoint xWhole xAligned heap.virtAligned page also
    | inr later =>
      have ascending := sound.ascending
      rw [split, ← List.cons_append] at ascending
      have tail := (List.pairwise_append.mp ascending).2.1
      have order : r.Before x := (List.pairwise_cons.mp tail).1 x later
      exact order.pages_disjoint heap.whole heap.virtAligned xAligned also page
  have lives : r ∈ ledger.live := sound.live.mem_iff.mpr member
  constructor
  · rfl
  · exact fun x rest => sound.wellFormed x (fewer.subset rest)
  · exact sound.ascending.sublist (fewer.cons_cons kernelImage)
  · exact cleared.sound
  · intro x rest m page
    rw [cleared.dir]
    exact sound.tables x (old x rest) m page
  · intro x rest m page
    rw [cleared.outside (others x rest m page)]
    exact sound.inside x (old x rest) m page
  · intro m nowhere
    by_cases here : m ∈ r.pages
    · exact cleared.cleared rfl m here
    · rw [cleared.outside here]
      apply sound.outside
      intro x member'
      by_cases same : x = r
      · rwa [same]
      · refine nowhere x ?_
        rw [split] at member'
        simp only [List.mem_cons, List.mem_append] at member' ⊢
        tauto
  · have erased : (ledger.live.erase r).Perm (heaps.erase r) := sound.live.erase r
    have rest : (heaps.erase r).Perm (before ++ after) := by
      have moved : heaps.Perm (r :: (before ++ after)) := by
        rw [split]
        exact List.perm_middle
      have less := moved.erase r
      rwa [List.erase_cons_head] at less
    exact erased.trans rest
  · rw [Ledger.used_free ledger lives, ← sound.used]
    exact freed

/-- A heap can always be destroyed, and gives back its addresses and its memory. -/
theorem KernelSound.destroyHeap_eq (sound : KernelSound foreign ledger heaps s)
    (member : r ∈ heaps) : ∃ t heaps', vmmDestroyHeapK s r.virtAddr = .ok (.sOk, t) ∧
      KernelSound foreign (ledger.free r) heaps' t ∧ t.kpmm.bits = s.kpmm.bits \ r.blocks ∧
      PagesCleared foreign r.pages .sOk s.paging t.paging := by
  obtain ⟨before, after, split⟩ := List.append_of_mem member
  obtain ⟨paging, unmapped, cleared⟩ := sound.unmapRegion split
  have heap := sound.wellFormed r member
  have owned : r.blocks ⊆ s.kpmm.bits := by
    rw [sound.used]
    exact ledger.extent_subset_used (sound.live.mem_iff.mpr member)
  obtain ⟨status, bits⟩ := kpmmUnmarkBlocks_marked owned
  have isHeap : ¬ r.usage &&& usageHeap = 0 := by
    rw [heap.usage]
    decide
  have isKernel : r.usage &&& usageKernel ≠ 0 := by
    rw [heap.usage]
    decide
  refine ⟨⟨(kpmmUnmarkBlocks s.kpmm r.physAddr (r.regionSize / pageSize)).2,
    kernelImage :: (before ++ after), paging⟩, before ++ after, ?_, sound.unmapped split cleared bits,
    bits, cleared⟩
  unfold vmmDestroyHeapK
  rw [sound.find member]
  simp only [if_neg isHeap, if_pos isKernel, unmapped, bind, Except.bind,
    if_neg (not_not.mpr heap.whole), status]

theorem KernelSound.destroyHeap (sound : KernelSound foreign ledger heaps s) {heapPtr : Nat}
    {hr : HResult} (called : vmmDestroyHeapK s heapPtr = .ok (hr, t)) :
    KernelKept foreign ledger s hr t := by
  cases found : vmmFindRegionKs s heapPtr with
  | error failure =>
    unfold vmmDestroyHeapK at called
    rw [found] at called
    obtain ⟨rfl, rfl⟩ := eq_of_returned called
    exact sound.kept failure
  | ok r =>
    have recorded : r ∈ kernelImage :: heaps ∧ r.virtAddr = heapPtr := by
      unfold vmmFindRegionKs at found
      split at found
      · next x isFirst =>
        obtain rfl := Except.ok.inj found
        have here := List.find?_some isFirst
        rw [← sound.regions]
        exact ⟨List.mem_of_find?_eq_some isFirst, by simpa using here⟩
      · cases found
    obtain ⟨recorded, rfl⟩ := recorded
    cases List.mem_cons.mp recorded with
    | inl image =>
      -- `HalKernelPanic`
      subst image
      unfold vmmDestroyHeapK at called
      rw [found] at called
      cases called
    | inr member =>
      obtain ⟨t', heaps', destroyed, sound', -, cleared⟩ := sound.destroyHeap_eq member
      obtain ⟨rfl, rfl⟩ := eq_of_returned (destroyed.symm.trans called)
      exact ⟨cleared.foreign, _, heaps', sound', subset_rfl, fun _ => rfl⟩

/-! ## What is mapped -/

theorem KernelSound.physFits (sound : KernelSound foreign ledger heaps s)
    (member : r ∈ kernelImage :: heaps) :
    r.physAddr % pageSize = 0 ∧ r.physAddr + r.regionSize ≤ 2 ^ 32 := by
  cases List.mem_cons.mp member with
  | inl image =>
    subst image
    exact ⟨by decide, by decide⟩
  | inr heap => exact ⟨(sound.wellFormed r heap).physAligned, (sound.wellFormed r heap).physFits⟩

/-- An address of a region translates to the one at the same offset. -/
theorem KernelSound.translate (sound : KernelSound foreign ledger heaps s)
    (member : r ∈ kernelImage :: heaps) {k : Nat} (below : k < r.regionSize) :
    s.paging.translate (r.virtAddr + k) = some (r.physAddr + k) := by
  obtain ⟨virtAligned, whole, -, -⟩ := sound.region_fits member
  obtain ⟨physAligned, physFits⟩ := sound.physFits member
  have page := KVmmRegion.page_mem virtAligned whole below
  rw [Paging.translate, sound.inside r member _ page]
  have frame : r.frame ((r.virtAddr + k) / pageSize) * pageSize + (r.virtAddr + k) % pageSize =
      r.physAddr + k := by
    simp only [KVmmRegion.frame, u32, pageSize] at *
    split <;> omega
  simp only [if_true, frame]

/-- Other addresses translate to nothing. -/
theorem KernelSound.translate_none (sound : KernelSound foreign ledger heaps s) {addr : Nat}
    (nowhere : ∀ r ∈ kernelImage :: heaps, addr ∉ r.range) : s.paging.translate addr = none := by
  have absent : (s.paging.entry (addr / pageSize)).fPresent = false := by
    apply sound.outside
    intro r member page
    obtain ⟨virtAligned, whole, -, -⟩ := sound.region_fits member
    exact nowhere r member ((KVmmRegion.mem_pages_iff virtAligned whole).mp page)
  simp [Paging.translate, absent]

theorem KernelSound.disjoint (sound : KernelSound foreign ledger heaps s) :
    (kernelImage :: heaps).Pairwise fun r r' => Disjoint r.range r'.range := by
  refine sound.ascending.imp ?_
  intro r r' before
  have order : r.virtAddr + r.regionSize ≤ r'.virtAddr := before
  rw [KVmmRegion.range, KVmmRegion.range, Ico_disjoint_Ico]
  omega

/-! ## Runs -/

/-- The frames for page tables are different, and nobody else's. -/
def PoolFresh (foreign : Set Nat) (pool : List Nat) : Prop :=
  pool.Nodup ∧ ∀ table ∈ pool, table ≠ 0 ∧ table ∉ foreign

theorem vmmInit_sound {kpmm : Bitmap 32} {tables : Nat → KVmmPageTable} {pool : List Nat}
    (fresh : PoolFresh foreign pool) (booted : vmmInit kpmm tables pool = .ok s) :
    KernelSound foreign (.empty kpmm.bits) [] s ∧ EqOn s.paging.tables tables foreign := by
  have blank : Paging.Sound foreign ⟨fun _ => .zero, tables, pool⟩ := by
    refine ⟨by simp [KVmmPageDirEntry.zero], by simp [KVmmPageDirEntry.zero],
      by simp [KVmmPageDirEntry.zero], fresh.1, ?_⟩
    intro table member
    obtain ⟨nonzero, own⟩ := fresh.2 table member
    exact ⟨nonzero, own, fun id => Ne.symm nonzero⟩
  unfold vmmInit at booted
  obtain ⟨⟨hr, booting⟩, called, booted⟩ := exists_of_bind booted
  obtain ⟨paging, pages, called⟩ := exists_of_bind called
  obtain ⟨rfl, rfl⟩ := eq_of_returned called
  obtain rfl := Except.ok.inj booted
  have mapped : PagesMapped foreign true false kernelImage.frame kernelImage.pages
      ⟨fun _ => .zero, tables, pool⟩ paging := by
    refine vmmMapPages_spec blank (by decide) ?_ pages
    intro i below
    rw [KVmmRegion.frame, show kernelImage.virtAddr = 0xC0000000 from rfl, Nat.add_sub_cancel_left]
    by_cases first : i = 0
    · simp [first, kernelImage]
    · rw [if_neg first, if_neg (by omega)]
      rfl
  refine ⟨⟨rfl, by simp, List.pairwise_singleton _ _, mapped.sound, ?_, ?_, ?_, .nil, ?_⟩,
    mapped.foreign⟩
  · intro r member m page
    obtain rfl := List.mem_singleton.mp member
    exact mapped.tables m page
  · intro r member m page
    obtain rfl := List.mem_singleton.mp member
    exact mapped.inside m page
  · intro m nowhere
    rw [mapped.outside m (nowhere kernelImage (by simp))]
    simp [Paging.entry, KVmmPageDirEntry.zero, KVmmPageEntry.zero]
  · simp

/-- The status that a call answered with. -/
def KernelAnswer.hr : KernelAnswer → HResult
  | .created hr _ | .destroyed hr => hr

theorem KernelSound.step {op : KernelCall × KernelAnswer}
    (sound : KernelSound foreign ledger heaps s) (inRange : op.1.InRange s)
    (step : KernelStep s op t) : KernelKept foreign ledger s op.2.hr t := by
  cases step with
  | createHeap called => exact sound.createHeap inRange called
  | destroyHeap called => exact sound.destroyHeap called

end

/-- After any creations and destructions of kernel heaps: no two regions overlap; the addresses of
every region translate to the memory behind it, and no others translate; the image and every heap
own that memory alone, and nothing is marked but what they own, what was marked before, and what
a call that failed left; the page tables of others are as they were; and every heap can be
destroyed, and then neither its addresses are mapped nor its memory is marked. -/
theorem kernelHeaps_exact {foreign : Set Nat} {kpmm : Bitmap 32} {tables : Nat → KVmmPageTable}
    {pool : List Nat} {start s : KernelSpace} {ops : List (KernelCall × KernelAnswer)}
    (fresh : PoolFresh foreign pool) (booted : vmmInit kpmm tables pool = .ok start)
    (run : Run (Guarded (fun s op => op.1.InRange s) KernelStep) start ops s) :
    ∃ heaps, s.kernelRegions = kernelImage :: heaps ∧
      (kernelImage :: heaps).Pairwise (fun r r' => Disjoint r.range r'.range) ∧
      (∀ r ∈ kernelImage :: heaps, ∀ k < r.regionSize,
        s.paging.translate (r.virtAddr + k) = some (r.physAddr + k)) ∧
      (∀ addr, (∀ r ∈ kernelImage :: heaps, addr ∉ r.range) → s.paging.translate addr = none) ∧
      (∃ ledger : Ledger KVmmRegion.blocks, ledger.live.Perm heaps ∧ s.kpmm.bits = ledger.used ∧
        kpmm.bits ⊆ ledger.reserved ∧
        ((∀ op ∈ ops, op.2.hr = .sOk) → ledger.reserved = kpmm.bits)) ∧
      EqOn s.paging.tables tables foreign ∧
      ∀ r ∈ heaps, ∃ t, vmmDestroyHeapK s r.virtAddr = .ok (.sOk, t) ∧
        t.kpmm.bits = s.kpmm.bits \ r.blocks ∧
        ∀ k < r.regionSize, t.paging.translate (r.virtAddr + k) = none := by
  obtain ⟨first, untouched⟩ := vmmInit_sound fresh booted
  let holds : List (KernelCall × KernelAnswer) → KernelSpace → Prop := fun past s =>
    ∃ (ledger : Ledger KVmmRegion.blocks) (heaps : List KVmmRegion),
      KernelSound foreign ledger heaps s ∧ kpmm.bits ⊆ ledger.reserved ∧
      ((∀ op ∈ past, op.2.hr = .sOk) → ledger.reserved = kpmm.bits) ∧
      EqOn s.paging.tables tables foreign
  have kept : ∀ past s op t, holds past s →
      Guarded (fun s op => op.1.InRange s) KernelStep s op t → holds (past ++ [op]) t := by
    intro past s op t before step
    obtain ⟨ledger, heaps, sound, reserved, exact, tablesKept⟩ := before
    obtain ⟨others, ledger', heaps', sound', more, none⟩ := sound.step step.1 step.2
    refine ⟨ledger', heaps', sound', reserved.trans more, ?_, others.trans tablesKept⟩
    intro allOk
    rw [none (allOk op (by simp))]
    exact exact fun op' member => allOk op' (by simp [member])
  obtain ⟨ledger, heaps, sound, reserved, exact, tablesKept⟩ := run.history holds
    ⟨.empty kpmm.bits, [], first, subset_rfl, fun _ => rfl, untouched⟩ kept
  refine ⟨heaps, sound.regions, sound.disjoint, fun r member k below => sound.translate member below,
    fun addr nowhere => sound.translate_none nowhere,
    ⟨ledger, sound.live, sound.used, reserved, exact⟩, tablesKept, ?_⟩
  intro r member
  obtain ⟨t, heaps', destroyed, -, bits, cleared⟩ := sound.destroyHeap_eq member
  refine ⟨t, destroyed, bits, ?_⟩
  have heap := sound.wellFormed r member
  exact (cleared.translate heap.virtAligned heap.whole).1

/-- The memory below the fifth megabyte is marked. -/
def lowMemory : Bitmap 32 := fun i => if i < 40 then 0xFFFFFFFF#32 else 0#32

/-- A page table is enough for the pages of one slot. -/
theorem vmmMapPages_slot (fRw fUs : Bool) (phys : Nat) {virt pageCnt slot : Nat} {paging : Paging}
    (small : virt < 2 ^ 32) (oneSlot : ∀ m ∈ pagesFrom virt pageCnt, m / 1024 = slot)
    (nonzero : ∀ table ∈ paging.pool, table ≠ 0) (some : paging.pool ≠ []) :
    ∃ paging', vmmMapPages fRw fUs pageCnt phys virt paging = .ok paging' ∧
      paging.pool.length ≤ paging'.pool.length + 1 := by
  have few : (paging.missing virt pageCnt).card ≤ 1 := by
    refine Finset.card_le_one_iff_subset_singleton.mpr ⟨slot, ?_⟩
    intro id member
    obtain ⟨m, page, rfl⟩ := mem_tableSlots.mp (Finset.mem_filter.mp member).1
    exact Finset.mem_singleton.mpr (oneSlot m page)
  have outcome := @vmmMapPages_outcome paging virt pageCnt phys fRw fUs small nonzero
  have positive := List.length_pos_of_ne_nil some
  rw [if_pos (by omega)] at outcome
  obtain ⟨paging', mapped, taken⟩ := outcome
  exact ⟨paging', mapped, by omega⟩

/-- A region of the kernel that passes the checks is mapped when its pages are. -/
theorem vmmMapRegionKs_eq {s : KernelSpace} {r : KVmmRegion} {paging : Paging}
    (high : kernelAddressSpaceOffset ≤ r.virtAddr) (free : s.kernelRegions.length ≠ maxKernelRegions)
    (whole : r.regionSize % pageSize = 0) (aligned : r.physAddr % pageSize = 0)
    (apart : s.kernelRegions.any (·.overlaps r.virtAddr (u32 (r.virtAddr + r.regionSize))) = false)
    (pages : vmmMapPages (r.access = accessReadWrite) (r.usage = usageUser)
      (r.regionSize / pageSize) r.physAddr r.virtAddr s.paging = .ok paging) :
    vmmMapRegionKs s r.physAddr r.virtAddr r.regionSize r.usage r.access =
      .ok (.sOk, { s with paging := paging, kernelRegions := s.kernelRegions ++ [r] }) := by
  unfold vmmMapRegionKs
  rw [if_neg (Nat.not_lt.mpr high), if_neg free, if_neg (not_not.mpr whole),
    if_neg (not_not.mpr aligned), apart, if_neg (by simp)]
  dsimp only
  rw [pages]
  rfl

theorem vmmInit_lowMemory : ∃ paging, vmmInit lowMemory (fun _ _ => .zero) [0x1000, 0x2000] =
    .ok ⟨lowMemory, [kernelImage], paging⟩ ∧ paging.pool ≠ [] := by
  have oneSlot : ∀ m ∈ pagesFrom 0xC0000000 (4 * 1024 * 1024 / pageSize), m / 1024 = 768 := by
    rintro m ⟨i, below, rfl⟩
    simp only [pageAt, u32, pageSize] at *
    omega
  let blank : Paging := ⟨fun _ => .zero, fun _ _ => .zero, [0x1000, 0x2000]⟩
  obtain ⟨paging, mapped, left⟩ := vmmMapPages_slot true false 0 (by decide) oneSlot
    (show ∀ table ∈ blank.pool, table ≠ 0 by simp [blank]) (by simp [blank])
  have image := vmmMapRegionKs_eq (s := ⟨lowMemory, [], blank⟩) (r := kernelImage) (by decide)
    (by decide) (by decide) (by decide) (by simp) mapped
  refine ⟨paging, ?_, ?_⟩
  · have called : vmmMapRegionKs ⟨lowMemory, [], blank⟩ 0 0xC0000000 (4 * 1024 * 1024) usageKernel
        accessReadWrite = .ok (.sOk, ⟨lowMemory, [kernelImage], paging⟩) := image
    rw [vmmInit, called]
    rfl
  · have left' : 1 ≤ paging.pool.length := by simpa [blank] using left
    exact List.ne_nil_of_length_pos left'

/-- The heap that is created first. -/
def firstHeap : KVmmRegion := ⟨0x500000, 0xC0400000, 4096, usageKernel ||| usageHeap, accessReadWrite⟩

set_option maxRecDepth 4000 in
theorem kpmmFindFreeRegion_lowMemory : kpmmFindFreeRegion lowMemory 1 = .ok 0x500000 := by
  decide

theorem vmmCreateHeapK_first {paging : Paging} (tables : paging.pool ≠ [])
    (nonzero : ∀ table ∈ paging.pool, table ≠ 0) : ∃ s,
    vmmCreateHeapK ⟨lowMemory, [kernelImage], paging⟩ 4096 usageKernel =
      .ok (.sOk, some 0xC0400000, s) ∧ s.kernelRegions = [kernelImage, firstHeap] := by
  have oneSlot : ∀ m ∈ pagesFrom 0xC0400000 (4096 / pageSize), m / 1024 = 769 := by
    rintro m ⟨i, below, rfl⟩
    simp only [pageAt, u32, pageSize] at *
    omega
  obtain ⟨paging', mapped, -⟩ := vmmMapPages_slot true false 0x500000 (by decide) oneSlot nonzero
    tables
  have marked : (kpmmMarkBlocks lowMemory 0x500000 1).1 = .sOk := by decide
  cases outcome : kpmmMarkBlocks lowMemory 0x500000 1 with
  | mk hr kpmm =>
    obtain rfl : hr = .sOk := by rw [← marked, outcome]
    have heap := vmmMapRegionKs_eq (s := ⟨kpmm, [kernelImage], paging⟩) (r := firstHeap)
      (by decide) (show 1 ≠ 128 by decide) (by decide) (by decide)
      (show [kernelImage].any (·.overlaps 0xC0400000 0xC0401000) = false by decide) mapped
    refine ⟨⟨kpmm, [kernelImage, firstHeap], paging'⟩, ?_, rfl⟩
    unfold vmmCreateHeapK
    rw [if_neg (by decide)]
    dsimp only
    rw [show u32 (4096 + (pageSize - 1)) / pageSize = 1 by decide, kpmmFindFreeRegion_lowMemory]
    dsimp only
    rw [if_pos rfl, outcome]
    dsimp only
    rw [show KernelSpace.addressSpaceEnd ⟨lowMemory, [kernelImage], paging⟩ = .ok 0xC0400000 from rfl]
    exact congrArg (fun r => r.bind fun x => .ok (x.1, some 0xC0400000, x.2)) heap

/-- An address of the first heap is mapped until the heap is destroyed. -/
theorem kernelHeaps_exact_first : ∃ start s t,
    vmmInit lowMemory (fun _ _ => .zero) [0x1000, 0x2000] = .ok start ∧
      vmmCreateHeapK start 4096 usageKernel = .ok (.sOk, some 0xC0400000, s) ∧
      s.paging.translate 0xC0400123 = some 0x500123 ∧
      vmmDestroyHeapK s 0xC0400000 = .ok (.sOk, t) ∧ t.paging.translate 0xC0400123 = none := by
  obtain ⟨paging, booted, tables⟩ := vmmInit_lowMemory
  have fresh : PoolFresh ∅ [0x1000, 0x2000] := ⟨by simp, by simp⟩
  obtain ⟨first, -⟩ := vmmInit_sound fresh booted
  obtain ⟨s, created, recorded⟩ := vmmCreateHeapK_first tables
    fun table member => (first.sound.poolFresh table member).1
  have inRange : (KernelCall.createHeap 4096 usageKernel).InRange
      ⟨lowMemory, [kernelImage], paging⟩ := by
    refine ⟨by decide, by decide, ?_, ?_⟩
    · intro endKs isEnd
      obtain rfl : 0xC0400000 = endKs := Except.ok.inj isEnd
      decide
    · intro ptr isFound
      obtain rfl := Except.ok.inj (kpmmFindFreeRegion_lowMemory.symm.trans isFound)
      decide
  have run : Run (Guarded (fun s op => op.1.InRange s) KernelStep) _
      [(.createHeap 4096 usageKernel, .created .sOk (some 0xC0400000))] s :=
    .cons ⟨inRange, .createHeap created⟩ (.nil s)
  obtain ⟨heaps, all, -, mapped, -, -, -, destroyed⟩ := kernelHeaps_exact fresh booted run
  obtain rfl : [firstHeap] = heaps := (List.cons.inj (recorded.symm.trans all)).2
  obtain ⟨t, gone, -, unmapped⟩ := destroyed firstHeap (by simp)
  exact ⟨_, s, t, booted, created, mapped firstHeap (by simp) 0x123 (by decide), gone,
    unmapped 0x123 (by decide)⟩

end Antonix
