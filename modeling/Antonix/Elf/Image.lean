import Antonix.Elf.Placement
import Antonix.MmPhys.Spec

/-! # What segments hold

A process reads at an address what the last segment over its page has put there:
a byte of that segment, or what the memory held before.  Segments that share no
page show their own bytes; one that lies inside another hides what is below.  The
loader loses what it had mapped where the windows were. -/

namespace Antonix.Elf

open Function Set Buffer Streams Threads Transition

/-! ## Bytes and pages -/

namespace KElfProgrHdr32

/-- A byte of the segment: from the file, or zero. -/
def byte (ph : KElfProgrHdr32) (buff : List (BitVec 8)) (k : Nat) : Option (BitVec 8) :=
  if k < ph.sizeInFile then buff[ph.pOffset + k]? else some 0

/-- The byte of the segment that belongs at an address, if there is one. -/
def byteAt (ph : KElfProgrHdr32) (buff : List (BitVec 8)) (a : Nat) : Option (BitVec 8) :=
  if sub32 a ph.pVaddr < ph.sizeMem then ph.byte buff (sub32 a ph.pVaddr) else none

/-- The segment is mapped over the page. -/
def maps (ph : KElfProgrHdr32) (n : Nat) : Bool :=
  (n + 2 ^ 20 - ph.newVaddr / pageSize) % 2 ^ 20 < ph.size / pageSize

variable {ph : KElfProgrHdr32} {buff : List (BitVec 8)} {a n k j : Nat}

theorem Contained.getElem?_image (contained : ph.Contained buff) (inside : k < ph.sizeMem) :
    (ph.image buff)[k]? = ph.byte buff k := by
  have length := contained.length_fileBytes
  rw [image, byte]
  by_cases inFile : k < ph.sizeInFile
  · rw [if_pos inFile, List.getElem?_append_left (by omega), fileBytes,
      List.getElem?_take_of_lt inFile, List.getElem?_drop]
  · rw [if_neg inFile, List.getElem?_append_right (by omega), List.getElem?_replicate,
      if_pos (by omega)]

theorem Contained.exists_byte (contained : ph.Contained buff) (inside : k < ph.sizeMem) :
    ∃ byte, ph.byte buff k = some byte := by
  have length := contained.length_image
  rw [← contained.getElem?_image inside, List.getElem?_eq_getElem (by omega)]
  exact ⟨_, rfl⟩

/-- The bytes of the pages around those of the segment are not its own. -/
theorem Contained.byteAt_page (contained : ph.Contained buff) (fits : ph.Fits)
    (inside : j < ph.size) :
    ph.byteAt buff (u32 (ph.newVaddr + j)) =
      if ph.alignExcess ≤ j ∧ j < ph.alignExcess + ph.sizeMem then
        ph.byte buff (j - ph.alignExcess)
      else none := by
  have vaddr := fits.pVaddr
  have small := ph.size_lt
  have start := ph.newVaddr_add
  have inPages := contained.inPages
  by_cases before : j < ph.alignExcess
  · have offset : sub32 (u32 (ph.newVaddr + j)) ph.pVaddr = 2 ^ 32 + j - ph.alignExcess := by
      simp only [sub32, u32]
      omega
    rw [byteAt, offset, if_neg (by omega), if_neg (by omega)]
  · have offset : sub32 (u32 (ph.newVaddr + j)) ph.pVaddr = j - ph.alignExcess := by
      simp only [sub32, u32]
      omega
    rw [byteAt, offset]
    by_cases behind : j < ph.alignExcess + ph.sizeMem
    · rw [if_pos (by omega), if_pos ⟨by omega, behind⟩]
    · rw [if_neg (by omega), if_neg (by omega)]

theorem exists_of_maps (fits : ph.Fits) (small : a < 2 ^ 32)
    (mapped : ph.maps (a / pageSize) = true) : ∃ j < ph.size, a = u32 (ph.newVaddr + j) := by
  have start := fits.newVaddr
  have aligned := ph.newVaddr_aligned
  have whole := ph.size_whole
  have size := ph.size_lt
  rw [maps, decide_eq_true_eq] at mapped
  refine ⟨u32 (a + 2 ^ 32 - ph.newVaddr), ?_, ?_⟩
  · simp only [u32, pageSize] at *
    omega
  · simp only [u32, pageSize] at *
    omega

theorem maps_page (fits : ph.Fits) (inside : j < ph.size) :
    ph.maps (u32 (ph.newVaddr + j) / pageSize) = true := by
  have start := fits.newVaddr
  have aligned := ph.newVaddr_aligned
  have whole := ph.size_whole
  have size := ph.size_lt
  rw [maps, decide_eq_true_eq]
  simp only [u32, pageSize] at *
  omega

end KElfProgrHdr32

/-- The last of the segments that is mapped over the page. -/
def lastAt (segments : List KElfProgrHdr32) (n : Nat) : Option KElfProgrHdr32 :=
  segments.reverse.find? (·.maps n)

theorem lastAt_append (segments : List KElfProgrHdr32) (ph : KElfProgrHdr32) (n : Nat) :
    lastAt (segments ++ [ph]) n = if ph.maps n then some ph else lastAt segments n := by
  rw [lastAt, List.reverse_append, List.reverse_singleton, List.singleton_append]
  by_cases mapped : ph.maps n = true
  · rw [if_pos mapped]
    exact List.find?_cons_of_pos mapped
  · rw [if_neg mapped]
    exact List.find?_cons_of_neg mapped

/-! ## One segment over others -/

/-- What the process shows after these segments, where the memory held `memory` before: at each
page the last of them that has it. -/
structure Overlaid (buff : List (BitVec 8)) (proc : Nat) (memory : ByteMem)
    (done : List KElfProgrHdr32) (m : Machine) : Prop where
  shown : ∀ a < 2 ^ 32, ∀ last, lastAt done (a / pageSize) = some last →
    ∃ phys, (m.kernel.vmm.paging proc).translate a = some phys ∧
      phys / pageSize ∈ m.kernel.vmm.kpmm.bits ∧
      m.memory phys = (last.byteAt buff a).getD (memory phys)
  fresh : ∀ phys, phys / pageSize ∉ m.kernel.vmm.kpmm.bits → m.memory phys = memory phys

section

variable {buff : List (BitVec 8)} {proc phys addr : Nat} {m m' : Machine} {ph : KElfProgrHdr32}
  {r : KVmmRegion} {vmm : VmmState} {memory : ByteMem} {done : List KElfProgrHdr32}

theorem Overlaid.start : Overlaid buff proc m.memory [] m where
  shown a _ last found := by cases found
  fresh phys _ := rfl

theorem SegmentLoaded.frames (loaded : SegmentLoaded buff proc m ph r phys addr vmm m') :
    Disjoint (blockRange r.physAddr (ph.size / pageSize)) m.kernel.vmm.kpmm.bits ∧
      m'.kernel.vmm.kpmm.bits =
        m.kernel.vmm.kpmm.bits ∪ blockRange r.physAddr (ph.size / pageSize) := by
  have alloc := loaded.backed.alloc
  rw [(Prod.mk.inj loaded.place).2, ← loaded.closed.kpmm] at alloc
  have spec := kpmmAlloc_spec m.kernel.vmm.kpmm (ph.size / pageSize)
  rw [alloc] at spec
  exact ⟨spec.1, spec.2.2⟩

theorem SegmentLoaded.translate (loaded : SegmentLoaded buff proc m ph r phys addr vmm m')
    (loading : Loading proc m) (fits : ph.Fits) (low : r.physAddr + ph.size ≤ 2 ^ 32) :
    (∀ j < ph.size, (m'.kernel.vmm.paging proc).translate (u32 (ph.newVaddr + j)) =
        some (r.physAddr + j)) ∧
      ∀ a < 2 ^ 32, ph.maps (a / pageSize) = false →
        (m'.kernel.vmm.paging proc).translate a = (m.kernel.vmm.paging proc).translate a := by
  obtain ⟨virt, size⟩ := Prod.mk.inj loaded.place
  have virtSmall : r.virtAddr < 2 ^ 32 := virt ▸ fits.newVaddr
  have sizeSmall : r.regionSize < 2 ^ 32 := size ▸ ph.size_lt
  obtain ⟨-, -, -, pages⟩ := loaded.backed.mapping.setsPages loading.tables virtSmall
    loaded.backed.physSmall sizeSmall
  have kept := translate_of_space (loaded.closed.others proc loading.apart.symm)
  refine ⟨fun j inside => ?_, fun a small notMapped => ?_⟩
  · have there := pages.translate_pageSet virtSmall (virt ▸ ph.newVaddr_aligned)
      loaded.backed.mapping.aligned loaded.backed.mapping.whole (size ▸ low) (size ▸ inside)
      sizeSmall
    rw [virt] at there
    rw [kept, there]
  · rw [kept]
    refine Paging.translate_congr (pages.outside _ fun inside => ?_)
    obtain ⟨i, below, page⟩ := inside
    rw [virt, pageAt] at page
    rw [size] at below
    have offset : i * pageSize < ph.size := by
      have whole := ph.size_whole
      simp only [pageSize] at *
      omega
    have mapped := KElfProgrHdr32.maps_page fits offset
    rw [← page, notMapped] at mapped
    cases mapped

theorem Overlaid.next (overlaid : Overlaid buff proc memory done m)
    (loaded : SegmentLoaded buff proc m ph r r.physAddr addr vmm m') (loading : Loading proc m)
    (fits : ph.Fits) (low : r.physAddr + ph.size ≤ 2 ^ 32) :
    Overlaid buff proc memory (done ++ [ph]) m' := by
  obtain ⟨free, taken⟩ := loaded.frames
  obtain ⟨inside, outside⟩ := loaded.translate loading fits low
  have contained := loaded.contained
  have written := loaded.written low
  have aligned : r.physAddr % pageSize = 0 := loaded.backed.mapping.aligned
  have whole := ph.size_whole
  have length := contained.length_image
  have inPages := contained.inPages
  -- the frames of the segment
  have own : ∀ j < ph.size, (r.physAddr + j) / pageSize ∈
      blockRange r.physAddr (ph.size / pageSize) := by
    intro j below
    rw [blockRange, mem_Ico]
    simp only [pageSize] at *
    omega
  -- what is written is in them
  have elsewhere : ∀ p, p / pageSize ∉ blockRange r.physAddr (ph.size / pageSize) →
      m'.memory p = m.memory p := by
    intro p outside
    rw [written]
    refine writeAt_outside ?_
    rw [length]
    by_contra within
    have here := own (p - r.physAddr) (by omega)
    rw [Nat.add_sub_cancel' (by omega)] at here
    exact outside here
  refine ⟨fun a small last found => ?_, fun p notTaken => ?_⟩
  · -- in the pages of the new segment it is the last one, and elsewhere nothing has changed
    rw [lastAt_append] at found
    by_cases mapped : ph.maps (a / pageSize) = true
    · rw [if_pos mapped] at found
      obtain rfl := Option.some.inj found
      obtain ⟨j, below, rfl⟩ := KElfProgrHdr32.exists_of_maps fits small mapped
      refine ⟨r.physAddr + j, inside j below, ?_, ?_⟩
      · rw [taken]
        exact .inr (own j below)
      · rw [contained.byteAt_page fits below]
        by_cases bytes : ph.alignExcess ≤ j ∧ j < ph.alignExcess + ph.sizeMem
        · rw [if_pos bytes, ← contained.getElem?_image (by omega),
            List.getElem?_eq_getElem (by omega), Option.getD_some, written]
          have here := @writeAt_inside _ m.memory (r.physAddr + ph.alignExcess)
            (j - ph.alignExcess) (ph.image buff) (by omega)
          rwa [Nat.add_assoc, Nat.add_sub_cancel' bytes.1] at here
        · rw [if_neg bytes, Option.getD_none, written, writeAt_outside (by omega)]
          exact overlaid.fresh _ fun used => disjoint_left.mp free (own j below) used
    · rw [if_neg mapped] at found
      obtain ⟨p, leads, used, holds⟩ := overlaid.shown a small last found
      refine ⟨p, ?_, ?_, ?_⟩
      · rw [outside a small (Bool.eq_false_of_not_eq_true mapped), leads]
      · rw [taken]
        exact .inl used
      · rw [elsewhere p fun own => disjoint_left.mp free own used, holds]
  · rw [taken, mem_union, not_or] at notTaken
    rw [elsewhere p notTaken.2, overlaid.fresh p notTaken.1]

/-- The memory that is written is the segment's own when no region before starts where it does. -/
theorem SegmentLoaded.phys_eq (loaded : SegmentLoaded buff proc m ph r phys addr vmm m')
    (loading : Loading proc m) (fits : ph.Fits)
    (new : ∀ x ∈ m.kernel.regions proc, x.virtAddr ≠ ph.newVaddr) : phys = r.physAddr := by
  have found := loaded.found
  have regions := (segment_backed loaded.backed loading fits loaded.place).1.regions
  -- the region is searched for by its start, from the oldest on
  have older : (m.kernel.vmm.procs proc).regions.find? (fun x => x.virtAddr = ph.newVaddr) = none :=
    List.find?_eq_none.mpr fun x member => by simpa using new x member
  rw [vmmGetRegionPhysAddr, procOfDesc] at found
  dsimp only at found
  rw [regions, List.find?_append, older, Option.none_or,
    List.find?_cons_of_pos (by simpa using (Prod.mk.inj loaded.place).1)] at found
  exact (Except.ok.inj found).symm

end

/-- Allocations of these numbers of blocks, one after the other, end below 4 GB. -/
def FramesBelow : Bitmap 32 → List Nat → Prop
  | _, [] => True
  | kpmm, count :: counts =>
    (∀ area, (kpmmAlloc kpmm count).1 = .ok area → area + count * pageSize ≤ 2 ^ 32) ∧
      FramesBelow (kpmmAlloc kpmm count).2 counts

section

variable {buff : List (BitVec 8)} {proc : Nat} {m m' : Machine} {memory : ByteMem}
  {offsets : List Nat}

/-- After the loop the process shows all segments, the later over the earlier ones. -/
theorem Overlaid.of_run (done : List KElfProgrHdr32)
    (overlaid : Overlaid buff proc memory done m) (loading : Loading proc m)
    (starts : ((m.kernel.regions proc).map KVmmRegion.virtAddr ++
      (segmentsAt buff offsets).map KElfProgrHdr32.newVaddr).Nodup)
    (frames : FramesBelow m.kernel.vmm.kpmm
      ((segmentsAt buff offsets).map fun ph => ph.size / pageSize))
    (run : Run (HeaderLoads buff proc) m offsets m') :
    Overlaid buff proc memory (done ++ segmentsAt buff offsets) m' := by
  revert done overlaid starts frames
  refine loadHeaders_induction run loading ?nil ?skip ?load
  case nil =>
    intro m done overlaid starts frames
    rw [segmentsAt, List.map_nil, List.filter_nil, List.append_nil]
    exact overlaid
  case skip =>
    intro m m' ph offsets readable same rest done overlaid starts frames
    rw [same] at starts frames ⊢
    exact rest done overlaid starts frames
  case load =>
    intro m m₁ m' ph offsets r phys addr vmm readable segments loading loaded rest
      done overlaid starts frames
    rw [segments] at starts frames ⊢
    have fits := KElfProgrHdr32.progrHdr_fits buff ph
    obtain ⟨virt, size⟩ := Prod.mk.inj loaded.place
    -- the search for the new region must not find an older one
    have new : ∀ x ∈ m.kernel.regions proc, x.virtAddr ≠ (progrHdr buff ph).newVaddr := by
      intro x member same
      rw [List.map_cons, List.nodup_append] at starts
      exact starts.2.2 _ (List.mem_map_of_mem member) _ List.mem_cons_self same
    obtain rfl := loaded.phys_eq loading fits new
    have alloc := loaded.backed.alloc
    rw [size, ← loaded.closed.kpmm] at alloc
    have low := frames.1 r.physAddr (congrArg Prod.fst alloc)
    rw [Nat.div_mul_cancel (Nat.dvd_of_mod_eq_zero (KElfProgrHdr32.size_whole _))] at low
    have next := rest _ (overlaid.next loaded loading fits low)
      (by
        rw [loaded.regions loading fits, List.map_append, List.map_singleton, virt,
          List.append_assoc, List.singleton_append]
        exact starts)
      (by
        have left := congrArg Prod.snd alloc
        dsimp only at left
        rw [← left]
        exact frames.2)
    rwa [List.append_assoc, List.singleton_append] at next

end

/-! ## The loader's own memory -/

section

variable {buff : List (BitVec 8)} {proc phys addr : Nat} {m m' : Machine} {ph : KElfProgrHdr32}
  {r : KVmmRegion} {vmm : VmmState} {offsets : List Nat}

theorem SegmentLoaded.gone (loaded : SegmentLoaded buff proc m ph r phys addr vmm m')
    (loading : Loading proc m) (fits : ph.Fits) :
    WindowsGone m.kernel.vmm m.kernel.currentProc [ph.size] m'.kernel.vmm := by
  obtain ⟨-, loaderSpace, -⟩ := segment_backed loaded.backed loading fits loaded.place
  have regions : (vmm.procs m.kernel.currentProc).regions =
      m.kernel.regions m.kernel.currentProc := congrArg AddressSpace.regions loaderSpace
  exact (WindowsGone.of_space loaderSpace).trans
    (loaded.closed.gone (by rw [regions]; exact loaded.search))

theorem windowsGone_of_run (loading : Loading proc m)
    (run : Run (HeaderLoads buff proc) m offsets m') :
    WindowsGone m.kernel.vmm m.kernel.currentProc
      ((segmentsAt buff offsets).map KElfProgrHdr32.size) m'.kernel.vmm := by
  refine loadHeaders_induction run loading (fun m => .of_space rfl) ?skip ?load
  case skip =>
    intro m m' ph offsets readable same later
    rw [same]
    exact later
  case load =>
    intro m m₁ m' ph offsets r phys addr vmm readable segments loading loaded later
    rw [loaded.currentProc] at later
    rw [segments, List.map_cons]
    exact (loaded.gone loading (KElfProgrHdr32.progrHdr_fits buff ph)).trans later

/-- The loop takes the same headers whatever the memory holds. -/
theorem run_memory (loading : Loading proc m) (run : Run (HeaderLoads buff proc) m offsets m')
    (memory : ByteMem) :
    ∃ memory', Run (HeaderLoads buff proc) ⟨m.kernel, memory⟩ offsets ⟨m'.kernel, memory'⟩ := by
  induction run generalizing memory with
  | nil => exact ⟨memory, .nil _⟩
  | @cons m m₁ m' ph offsets taken rest inductionHypothesis =>
    have next : ∃ memory₁, HeaderLoads buff proc ⟨m.kernel, memory⟩ ph ⟨m₁.kernel, memory₁⟩ := by
      obtain ⟨inside, ⟨skipped, rfl⟩ | ⟨isLoad, header, returned⟩⟩ := loadHeader_cases taken
      · exact ⟨memory, loadHeader_skip inside skipped⟩
      · obtain ⟨memory₁, returned₁⟩ := loadSegment_memory loading
          (KElfProgrHdr32.progrHdr_fits buff ph) returned memory
        exact ⟨memory₁, (loadHeader_load header isLoad).trans returned₁⟩
    obtain ⟨memory₁, taken₁⟩ := next
    obtain ⟨memory', rest'⟩ := inductionHypothesis (taken.loading loading) memory₁
    exact ⟨memory', .cons taken₁ rest'⟩

end

/-! ## The image of a process -/

/-- The process has every byte of every segment at its address. -/
def ImagesShown (buff : List (BitVec 8)) (proc : Nat) (m : Machine) : Prop :=
  ∀ ph ∈ loadSegments buff, ∀ k < ph.sizeMem, ∃ phys,
    (m.kernel.vmm.paging proc).translate (u32 (ph.pVaddr + k)) = some phys ∧
      some (m.memory phys) = ph.byte buff k

/-- The current process translates every address as before. -/
def LoaderKept (k k' : KernelState) : Prop :=
  ∀ a, (k'.vmm.paging k.currentProc).translate a = (k.vmm.paging k.currentProc).translate a

/-- Whatever the memory holds, a file that is loaded is there as it should be. -/
def LoadsImages (k : KernelState) (buff : List (BitVec 8)) (proc t : Nat) : Prop :=
  ∀ memory out m', elfLoadFromMemory ⟨k, memory⟩ buff proc t = .ok (.sOk, out, m') →
    ImagesShown buff proc m' ∧ LoaderKept k m'.kernel

/-- The last segment over the page of a byte has that byte, too. -/
def ImagesAgree (buff : List (BitVec 8)) (segments : List KElfProgrHdr32) : Prop :=
  ∀ ph ∈ segments, ∀ k < ph.sizeMem, ∀ last,
    lastAt segments (u32 (ph.pVaddr + k) / pageSize) = some last →
      last.byteAt buff (u32 (ph.pVaddr + k)) = ph.byte buff k

/-- No two regions of the new process start at the same address. -/
def StartsDiffer (segments : List KElfProgrHdr32) : Prop :=
  ([0xBFFFC000, 0xBFFF9000, 0xC0000000] ++ segments.map KElfProgrHdr32.newVaddr).Nodup

/-- The memory of the segments is below 4 GB, as far as it is allocated from here. -/
def FramesLow (k : KernelState) (segments : List KElfProgrHdr32) : Prop :=
  FramesBelow k.vmm.kpmm (segments.map fun ph => ph.size / pageSize)

/-- The loader has nothing mapped where the windows are. -/
def WindowsClear (k : KernelState) (segments : List KElfProgrHdr32) : Prop :=
  ∀ size ∈ [stackSizeKernel] ++ segments.map KElfProgrHdr32.size,
    WindowClear k.vmm k.currentProc size

section

variable {kernel k : KernelState} {buff : List (BitVec 8)} {proc t pid : Nat} {m₁ : Machine}
  {memory : ByteMem} {out : Option Nat} {m' : Machine}

theorem loaderKept_iff (ready : kernel.Ready proc t) (begun : LoadBegun kernel proc pid k)
    (run : Run (HeaderLoads buff proc) ⟨k, memory⟩ (elfHeaderOffsets buff) m₁) :
    LoaderKept kernel m₁.kernel ↔ WindowsClear kernel (loadSegments buff) := by
  have later := windowsGone_of_run (begun.loading ready) run
  change WindowsGone k.vmm k.currentProc _ _ at later
  rw [begun.current.2] at later
  exact (begun.loader.trans later).translate_eq_iff

theorem byte_add_one_ne (byte : BitVec 8) : byte + 1 ≠ byte := by
  decide +revert

theorem exists_lastAt {segments : List KElfProgrHdr32} {ph : KElfProgrHdr32} {n : Nat}
    (member : ph ∈ segments) (mapped : ph.maps n = true) : ∃ last, lastAt segments n = some last :=
  Option.isSome_iff_exists.mp
    (List.find?_isSome.mpr ⟨ph, List.mem_reverse.mpr member, mapped⟩)

theorem segment_fits {ph : KElfProgrHdr32} (member : ph ∈ loadSegments buff) : ph.Fits := by
  obtain ⟨offset, -, rfl⟩ := List.mem_map.mp (List.mem_filter.mp member).1
  exact KElfProgrHdr32.progrHdr_fits buff offset

theorem KElfProgrHdr32.Contained.maps_byte {ph : KElfProgrHdr32} {j : Nat}
    (contained : ph.Contained buff) (fits : ph.Fits) (inside : j < ph.sizeMem) :
    ph.maps (u32 (ph.pVaddr + j) / pageSize) = true := by
  have inPages := contained.inPages
  have there := @maps_page ph (ph.alignExcess + j) fits (by omega)
  rwa [← Nat.add_assoc, ph.newVaddr_add] at there

theorem shown_of_run (ready : kernel.Ready proc t) (begun : LoadBegun kernel proc pid k)
    (frames : FramesLow k (loadSegments buff))
    (starts : StartsDiffer (loadSegments buff))
    (run : Run (HeaderLoads buff proc) ⟨k, memory⟩ (elfHeaderOffsets buff) m₁) :
    Overlaid buff proc memory (loadSegments buff) m₁ := by
  have bases : (k.regions proc).map KVmmRegion.virtAddr = [0xBFFFC000, 0xBFFF9000, 0xC0000000] := by
    have firsts := congrArg (List.map Prod.fst) begun.layout
    rwa [List.map_map] at firsts
  have start := @Overlaid.start buff proc ⟨k, memory⟩
  have overlaid := start.of_run [] (begun.loading ready) (by rw [bases]; exact starts) frames run
  rwa [List.nil_append] at overlaid

/-- A file that is loaded shows its segments and leaves the loader as it was if the last segment
over each byte agrees with it and the loader has nothing where the windows are.  Both are
necessary; the first where the segments start at different addresses and their memory is below
4 GB. -/
theorem elfLoadFromMemory_images_iff (long : elfHeaderSize ≤ buff.length)
    (ready : kernel.Ready proc t)
    (begins : elfLoadBegin kernel proc t = .ok (.ok (pid, proc), k))
    (loads : ∃ memory out m', elfLoadFromMemory ⟨kernel, memory⟩ buff proc t =
      .ok (.sOk, out, m')) :
    (FramesLow k (loadSegments buff) ∧ StartsDiffer (loadSegments buff) ∧
        ImagesAgree buff (loadSegments buff) ∧
        WindowsClear kernel (loadSegments buff) → LoadsImages kernel buff proc t) ∧
      (LoadsImages kernel buff proc t → WindowsClear kernel (loadSegments buff) ∧
        (FramesLow k (loadSegments buff) →
          StartsDiffer (loadSegments buff) → ImagesAgree buff (loadSegments buff))) := by
  obtain ⟨-, begun⟩ := elfLoadBegin_begun ready begins
  have executable : elfType buff = elfTypeExecutable := by
    obtain ⟨memory, out, m', returned⟩ := loads
    exact (elfLoadFromMemory_loaded long returned).1
  -- every successful call has made the loop run from the same state of the kernel
  have ran : ∀ memory out m', elfLoadFromMemory ⟨kernel, memory⟩ buff proc t =
      .ok (.sOk, out, m') → ∃ m₁ sched,
        Run (HeaderLoads buff proc) ⟨k, memory⟩ (elfHeaderOffsets buff) m₁ ∧
        Sched.elfLoadFinish m₁.kernel.sched proc = .ok sched ∧
        m' = { m₁ with kernel := { m₁.kernel with sched } } := by
    intro memory out m' returned
    obtain ⟨-, pid', found, k', m₁, sched, begins', run, finished, -, same⟩ :=
      elfLoadFromMemory_loaded long returned
    obtain ⟨answer, rfl⟩ := eq_of_returned (begins.symm.trans begins')
    obtain ⟨-, rfl⟩ := Prod.mk.inj (Except.ok.inj answer)
    exact ⟨m₁, sched, run, finished, same⟩
  constructor
  · rintro ⟨frames, starts, agree, clear⟩ memory out m' returned
    obtain ⟨m₁, sched, run, -, rfl⟩ := ran memory out m' returned
    refine ⟨fun ph member j inside => ?_, (loaderKept_iff ready begun run).mpr clear⟩
    have contained := (HeadersLoaded.of_run (begun.loading ready) run).segments ph member |>.1
    have mapped := contained.maps_byte (segment_fits member) inside
    obtain ⟨last, isLast⟩ := exists_lastAt member mapped
    obtain ⟨phys, leads, -, holds⟩ :=
      (shown_of_run ready begun frames starts run).shown _ (u32_lt _) last isLast
    obtain ⟨byte, isByte⟩ := contained.exists_byte inside
    rw [agree ph member j inside last isLast, isByte, Option.getD_some] at holds
    exact ⟨phys, leads, by rw [isByte, ← holds]⟩
  · intro images
    obtain ⟨memory, out, m', returned⟩ := loads
    obtain ⟨m₁, sched, run, finished, same⟩ := ran memory out m' returned
    refine ⟨?_, fun frames starts ph member j inside last isLast => ?_⟩
    · have kept := (images memory out m' returned).2
      rw [same] at kept
      exact (loaderKept_iff ready begun run).mp kept
    · have contained := (HeadersLoaded.of_run (begun.loading ready) run).segments ph member |>.1
      obtain ⟨byte, isByte⟩ := contained.exists_byte inside
      -- a memory that is full of another byte
      obtain ⟨memory', other⟩ := run_memory (begun.loading ready) run fun _ => byte + 1
      have loaded : elfLoadFromMemory ⟨kernel, fun _ => byte + 1⟩ buff proc t = .ok _ :=
        elfLoadFromMemory_of_run long executable begins other finished
      obtain ⟨phys, leads, holds⟩ := (images _ _ _ loaded).1 ph member j inside
      obtain ⟨phys', leads', -, holds'⟩ :=
        (shown_of_run ready begun frames starts other).shown _ (u32_lt _) last isLast
      obtain rfl := Option.some.inj (leads.symm.trans leads')
      change memory' phys = _ at holds'
      change some (memory' phys) = _ at holds
      rw [isByte, Option.some.injEq, holds'] at holds
      rw [isByte]
      cases shown : last.byteAt buff (u32 (ph.pVaddr + j)) with
      | none =>
        rw [shown] at holds
        exact absurd holds (byte_add_one_ne byte)
      | some byte' =>
        rw [shown] at holds
        exact congrArg some holds

end

/-! ## A segment inside another -/

/-- A page and a byte of zeros, and one byte of the file in the middle of its pages. -/
def nested : List KElfProgrHdr32 := [⟨1, 0, 0x400FFF, 0, 0x1001, 2⟩, ⟨1, 0, 0x401000, 1, 1, 2⟩]

/-- Two segments in pages of their own. -/
theorem elfLoadFromMemory_images_neighbours :
    ∃ k, elfLoadBegin Machine.booted.kernel 2 48 = .ok (.ok (101, 2), k) ∧
      (FramesLow k (loadSegments (elfFile (neighbours 0x400FFE))) ∧
          StartsDiffer (loadSegments (elfFile (neighbours 0x400FFE))) ∧
          ImagesAgree (elfFile (neighbours 0x400FFE))
            (loadSegments (elfFile (neighbours 0x400FFE))) ∧
          WindowsClear Machine.booted.kernel (loadSegments (elfFile (neighbours 0x400FFE))) →
        LoadsImages Machine.booted.kernel (elfFile (neighbours 0x400FFE)) 2 48) ∧
      (LoadsImages Machine.booted.kernel (elfFile (neighbours 0x400FFE)) 2 48 →
        WindowsClear Machine.booted.kernel (loadSegments (elfFile (neighbours 0x400FFE))) ∧
          (FramesLow k (loadSegments (elfFile (neighbours 0x400FFE))) →
            StartsDiffer (loadSegments (elfFile (neighbours 0x400FFE))) →
            ImagesAgree (elfFile (neighbours 0x400FFE))
              (loadSegments (elfFile (neighbours 0x400FFE))))) := by
  obtain ⟨k, begins, -, -⟩ := booted_enough 0x400FFE
  obtain ⟨⟨out, m'⟩, returned⟩ := @exists_of_value _ _
    (elfLoadFromMemory .booted (elfFile (neighbours 0x400FFE)) 2 48) .sOk (by decide +kernel)
  exact ⟨k, begins, elfLoadFromMemory_images_iff (by decide) booted_ready begins
    ⟨fun _ => 0, out, m', returned⟩⟩

/-- The byte in the middle is loaded over a zero of the first segment. -/
theorem elfLoadFromMemory_nested :
    (∃ out m', elfLoadFromMemory .booted (elfFile nested) 2 48 = .ok (.sOk, out, m') ∧
      ((m'.kernel.vmm.paging 2).translate 0x401000).map m'.memory = some 0x7F) ∧
      ¬LoadsImages Machine.booted.kernel (elfFile nested) 2 48 := by
  have known : (elfLoadFromMemory .booted (elfFile nested) 2 48).toOption.map (fun r =>
      (r.1, ((r.2.2.kernel.vmm.paging 2).translate 0x401000).map r.2.2.memory)) =
      some (.sOk, some 0x7F) := by
    decide +kernel
  obtain ⟨⟨hr, out, m'⟩, returned, result⟩ := exists_of_known known
  obtain ⟨isOk, shown⟩ := Prod.mk.inj result
  dsimp only at isOk shown
  rw [isOk] at returned
  refine ⟨⟨out, m', returned, shown⟩, fun images => ?_⟩
  have segments : loadSegments (elfFile nested) = nested := by decide +kernel
  obtain ⟨phys, leads, holds⟩ := (images (fun _ => 0) out m' returned).1
    ⟨1, 0, 0x400FFF, 0, 0x1001, 2⟩ (by rw [segments]; exact List.mem_cons_self) 1 (by decide)
  have zero : KElfProgrHdr32.byte ⟨1, 0, 0x400FFF, 0, 0x1001, 2⟩ (elfFile nested) 1 = some 0 := rfl
  have there : u32 (0x400FFF + 1) = 0x401000 := by decide
  rw [there] at leads
  rw [leads, Option.map_some, holds, zero] at shown
  exact absurd shown (by decide)

end Antonix.Elf
