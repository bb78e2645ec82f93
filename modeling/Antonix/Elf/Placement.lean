import Antonix.Elf.Robustness
import Mathlib.Order.Interval.Set.Basic

/-! # Where segments are mapped

A segment whose last byte is the last one of a page is mapped over one page more
than it has.  Where no segment of a well-formed executable ends so, and nothing
else is wrong with the file, each is mapped over its own pages, in any order. -/

namespace Antonix.Elf

open Function Set Buffer Streams Threads Transition

/-! ## The pages of a segment -/

namespace KElfProgrHdr32

/-- The pages that the bytes of the segment are in. -/
def pages (ph : KElfProgrHdr32) : Set Nat :=
  Icc (ph.pVaddr / pageSize) ((ph.pVaddr + ph.sizeMem - 1) / pageSize)

def pageCount (ph : KElfProgrHdr32) : Nat :=
  (ph.pVaddr + ph.sizeMem - 1) / pageSize - ph.pVaddr / pageSize + 1

/-- Where the pages of the segment are. -/
def pagePlace (ph : KElfProgrHdr32) : Nat × Nat := (ph.newVaddr, ph.pageCount * pageSize)

/-- The bytes of the segment are below the stacks. -/
structure BelowStacks (ph : KElfProgrHdr32) : Prop where
  positive : 0 < ph.sizeMem
  inside : ph.pVaddr + ph.sizeMem ≤ 0xBFFF9000

variable {ph other : KElfProgrHdr32}

theorem BelowStacks.size_eq (below : ph.BelowStacks) :
    ph.size = (ph.alignExcess + ph.sizeMem) / pageSize * pageSize + pageSize := by
  obtain ⟨positive, inside⟩ := below
  simp only [size, newVaddr, alignExcess, u32, pageSize]
  omega

/-- The rounded size is right unless the segment ends at the end of a page. -/
theorem BelowStacks.size_eq_iff (below : ph.BelowStacks) :
    ph.size = ph.pageCount * pageSize ↔ (ph.pVaddr + ph.sizeMem) % pageSize ≠ 0 := by
  rw [below.size_eq]
  obtain ⟨positive, inside⟩ := below
  simp only [pageCount, alignExcess, pageSize]
  omega

theorem BelowStacks.place_le (below : ph.BelowStacks) :
    ph.newVaddr + ph.pageCount * pageSize ≤ 0xBFFF9000 := by
  obtain ⟨positive, inside⟩ := below
  simp only [newVaddr, pageCount, alignExcess, pageSize]
  omega

theorem pageCount_pos (ph : KElfProgrHdr32) : 0 < ph.pageCount := Nat.succ_pos _

theorem count_eq (size : ph.size = ph.pageCount * pageSize) :
    ph.size / pageSize = ph.pageCount := by
  rw [size]
  exact Nat.mul_div_cancel _ (by decide)

end KElfProgrHdr32

/-- One range ends where the other begins, or before. -/
def Apart (a b : Nat × Nat) : Prop := a.1 + a.2 ≤ b.1 ∨ b.1 + b.2 ≤ a.1

section

variable {ph other : KElfProgrHdr32} {x : KVmmRegion} {start size : Nat}

theorem apart_of_disjoint (below : ph.BelowStacks) (otherBelow : other.BelowStacks)
    (disjoint : Disjoint ph.pages other.pages) : Apart ph.pagePlace other.pagePlace := by
  rw [Set.disjoint_left] at disjoint
  have first := @disjoint (ph.pVaddr / pageSize)
  have second := @disjoint (other.pVaddr / pageSize)
  obtain ⟨positive, -⟩ := below
  obtain ⟨otherPositive, -⟩ := otherBelow
  simp only [KElfProgrHdr32.pages, mem_Icc, pageSize] at first second
  simp only [Apart, KElfProgrHdr32.pagePlace, KElfProgrHdr32.newVaddr, KElfProgrHdr32.pageCount,
    KElfProgrHdr32.alignExcess, pageSize]
  omega

theorem overlaps_of_apart (apart : Apart (place x) (start, size)) (nonempty : 0 < x.regionSize)
    (regionFits : x.virtAddr + x.regionSize < 2 ^ 32) (fits : start + size < 2 ^ 32) :
    x.overlaps start (u32 (start + size)) = false := by
  rw [Apart, place] at apart
  have ends : x.endAddr = x.virtAddr + x.regionSize := u32_of_lt regionFits
  rw [KVmmRegion.overlaps, ends, u32_of_lt fits, Bool.or_eq_false_iff, Bool.and_eq_false_iff,
    Bool.and_eq_false_iff]
  simp only [decide_eq_false_iff_not]
  omega

end

/-! ## What a run of the loop leaves -/

/-- The segments that the program headers at these offsets announce. -/
def segmentsAt (buff : List (BitVec 8)) (offsets : List Nat) : List KElfProgrHdr32 :=
  (offsets.map (progrHdr buff)).filter fun ph => ph.segType = elfPtLoad

/-- A program header in the buffer, of a type that the loader knows. -/
def HeaderReadable (buff : List (BitVec 8)) (ph : Nat) : Prop :=
  ph + 4 ≤ buff.length ∧
    ((progrHdr buff ph).segType = elfPtNull ∨ (progrHdr buff ph).segType = elfPtPhdr ∨
      ((progrHdr buff ph).segType = elfPtLoad ∧ ph + 28 ≤ buff.length))

/-- The headers at these offsets were loaded, each segment behind those before it. -/
structure HeadersLoaded (buff : List (BitVec 8)) (proc : Nat) (m : Machine) (offsets : List Nat)
    (m' : Machine) : Prop where
  layout : (m'.kernel.regions proc).map place = (m.kernel.regions proc).map place ++
    (segmentsAt buff offsets).map fun ph => (ph.newVaddr, ph.size)
  present : m.kernel.vmm.RegionsPresent proc → m'.kernel.vmm.RegionsPresent proc
  currentProc : m'.kernel.currentProc = m.kernel.currentProc
  loader : m'.kernel.regions m.kernel.currentProc = m.kernel.regions m.kernel.currentProc
  headers : ∀ ph ∈ offsets, HeaderReadable buff ph
  segments : ∀ ph ∈ segmentsAt buff offsets, ph.Contained buff ∧
    ∃ addr, vmmTempLoop (m.kernel.regions m.kernel.currentProc) ph.size (2 ^ 20) kernelTempStart =
      .ok (some addr)

section

variable {buff : List (BitVec 8)} {proc ph : Nat} {m m' m'' : Machine} {offsets : List Nat}

theorem segmentsAt_cons_load (isLoad : (progrHdr buff ph).segType = elfPtLoad) :
    segmentsAt buff (ph :: offsets) = progrHdr buff ph :: segmentsAt buff offsets := by
  rw [segmentsAt, List.map_cons, List.filter_cons_of_pos (by simpa using isLoad)]
  rfl

theorem segmentsAt_cons_skip (skipped : (progrHdr buff ph).segType ≠ elfPtLoad) :
    segmentsAt buff (ph :: offsets) = segmentsAt buff offsets := by
  rw [segmentsAt, List.map_cons, List.filter_cons_of_neg (by simpa using skipped)]
  rfl

theorem skipped_ne_load (skipped : (progrHdr buff ph).segType = elfPtNull ∨
    (progrHdr buff ph).segType = elfPtPhdr) : (progrHdr buff ph).segType ≠ elfPtLoad := by
  rcases skipped with isNull | isPhdr
  · rw [isNull]
    decide
  · rw [isPhdr]
    decide

theorem headerReadable_skip (inside : ph + 4 ≤ buff.length)
    (skipped : (progrHdr buff ph).segType = elfPtNull ∨ (progrHdr buff ph).segType = elfPtPhdr) :
    HeaderReadable buff ph := ⟨inside, skipped.imp_right .inl⟩

/-- Induction over a run of the loop: a header that is skipped changes nothing, and one that is
loaded finds the invariant and leaves a new segment in front of the others. -/
@[elab_as_elim]
theorem loadHeaders_induction {motive : Machine → List Nat → Machine → Prop}
    (run : Run (HeaderLoads buff proc) m offsets m') (loading : Loading proc m)
    (nil : ∀ m, motive m [] m)
    (skip : ∀ {m m' : Machine} {ph : Nat} {offsets : List Nat}, HeaderReadable buff ph →
      segmentsAt buff (ph :: offsets) = segmentsAt buff offsets →
      motive m offsets m' → motive m (ph :: offsets) m')
    (load : ∀ {m m₁ m' : Machine} {ph : Nat} {offsets : List Nat} {r phys addr vmm},
      HeaderReadable buff ph →
      segmentsAt buff (ph :: offsets) = progrHdr buff ph :: segmentsAt buff offsets →
      Loading proc m → SegmentLoaded buff proc m (progrHdr buff ph) r phys addr vmm m₁ →
      motive m₁ offsets m' → motive m (ph :: offsets) m') :
    motive m offsets m' := by
  induction run with
  | nil => exact nil _
  | @cons m m₁ m' ph offsets taken _ inductionHypothesis =>
    have rest := inductionHypothesis (taken.loading loading)
    obtain ⟨inside, ⟨skipped, rfl⟩ | ⟨isLoad, header, returned⟩⟩ := loadHeader_cases taken
    · exact skip (headerReadable_skip inside skipped)
        (segmentsAt_cons_skip (skipped_ne_load skipped)) rest
    · obtain ⟨r, phys, addr, vmm, loaded⟩ :=
        loadSegment_loaded loading (KElfProgrHdr32.progrHdr_fits buff ph) returned
      exact load ⟨inside, .inr (.inr ⟨isLoad, header⟩)⟩ (segmentsAt_cons_load isLoad) loading
        loaded rest

theorem HeadersLoaded.nil : HeadersLoaded buff proc m [] m where
  layout := by simp [segmentsAt]
  present := id
  currentProc := rfl
  loader := rfl
  headers := by simp
  segments := by simp [segmentsAt]

theorem HeadersLoaded.cons {r : KVmmRegion} {phys addr : Nat} {vmm : VmmState}
    (rest : HeadersLoaded buff proc m' offsets m'') (loading : Loading proc m)
    (readable : HeaderReadable buff ph)
    (segments : segmentsAt buff (ph :: offsets) = progrHdr buff ph :: segmentsAt buff offsets)
    (loaded : SegmentLoaded buff proc m (progrHdr buff ph) r phys addr vmm m') :
    HeadersLoaded buff proc m (ph :: offsets) m'' := by
  have fits := KElfProgrHdr32.progrHdr_fits buff ph
  obtain ⟨built, -, -⟩ := segment_backed loaded.backed loading fits loaded.place
  have cur := loaded.currentProc
  have loader := loaded.loader_regions loading fits
  -- the loader has the same regions for the windows of the later segments
  have later := rest.segments
  rw [cur, loader] at later
  have here : (progrHdr buff ph).Contained buff ∧
      ∃ addr, vmmTempLoop (m.kernel.regions m.kernel.currentProc) (progrHdr buff ph).size (2 ^ 20)
        kernelTempStart = .ok (some addr) := ⟨loaded.contained, addr, loaded.search⟩
  exact
    { layout := by
        rw [rest.layout, loaded.regions loading fits, segments, List.map_append,
          List.map_singleton, loaded.place, List.append_assoc, List.singleton_append,
          List.map_cons]
      present := fun present => rest.present
        ((built.present present).others loaded.closed.others loading.apart.symm)
      currentProc := rest.currentProc.trans cur
      loader := by rw [← cur, rest.loader, cur, loader]
      headers := List.forall_mem_cons.mpr ⟨readable, rest.headers⟩
      segments := by
        rw [segments]
        exact List.forall_mem_cons.mpr ⟨here, later⟩ }

theorem HeadersLoaded.of_run (loading : Loading proc m)
    (run : Run (HeaderLoads buff proc) m offsets m') : HeadersLoaded buff proc m offsets m' := by
  refine loadHeaders_induction run loading (fun m => .nil) ?skip ?load
  case skip =>
    intro m m' ph offsets readable same rest
    exact
      { layout := by rw [same, rest.layout]
        present := rest.present
        currentProc := rest.currentProc
        loader := rest.loader
        headers := List.forall_mem_cons.mpr ⟨readable, rest.headers⟩
        segments := by rw [same]; exact rest.segments }
  case load =>
    intro m m₁ m' ph offsets r phys addr vmm readable segments loading loaded rest
    exact rest.cons loading readable segments loaded

end

/-! ## Enough for every segment -/

/-- Blocks of these numbers can be allocated, one after the other. -/
def BlocksFor : Bitmap 32 → List Nat → Prop
  | _, [] => True
  | kpmm, count :: counts =>
    (∃ area, (kpmmAlloc kpmm count).1 = .ok area) ∧ BlocksFor (kpmmAlloc kpmm count).2 counts

instance decidableBlocksFor : (kpmm : Bitmap 32) → (counts : List Nat) →
    Decidable (BlocksFor kpmm counts)
  | _, [] => inferInstanceAs (Decidable True)
  | kpmm, count :: counts =>
    match found : (kpmmAlloc kpmm count).1, decidableBlocksFor (kpmmAlloc kpmm count).2 counts with
    | .ok area, .isTrue rest => .isTrue ⟨⟨area, found⟩, rest⟩
    | .ok _, .isFalse missing => .isFalse fun both => missing both.2
    | .error _, _ => .isFalse fun both => by
      obtain ⟨area, same⟩ := both.1
      rw [found] at same
      cases same

/-- There are blocks, regions and page tables for the pages of the segments, and a region for a
window. -/
structure Enough (k : KernelState) (proc : Nat) (segments : List KElfProgrHdr32) : Prop where
  blocks : BlocksFor k.vmm.kpmm (segments.map KElfProgrHdr32.pageCount)
  regions : (k.regions proc).length + segments.length ≤ maxVmRegions
  loader : (k.regions k.currentProc).length < maxVmRegions
  tables : (segments.map fun ph => 2 * (ph.pageCount / 1024 + 2)).sum ≤ k.vmm.pool.length

/-- What a segment has to meet besides, when the regions of the loader are these. -/
structure SegmentAccepted (buff : List (BitVec 8)) (regions : List KVmmRegion)
    (ph : KElfProgrHdr32) : Prop where
  inFile : ph.sizeInFile ≤ (ph.fileBytes buff).length
  notLonger : ph.sizeInFile ≤ ph.sizeMem
  notWhole : (ph.pVaddr + ph.sizeMem) % pageSize ≠ 0
  window : ∃ addr, vmmTempLoop regions ph.size (2 ^ 20) kernelTempStart = .ok (some addr)

section

variable {buff : List (BitVec 8)} {proc phys addr : Nat} {m m' : Machine} {ph : KElfProgrHdr32}
  {r : KVmmRegion} {vmm : VmmState} {segments : List KElfProgrHdr32} {regions : List KVmmRegion}

theorem SegmentAccepted.contained (accepted : SegmentAccepted buff regions ph)
    (below : ph.BelowStacks) : ph.Contained buff := by
  refine ⟨accepted.inFile, accepted.notLonger, ?_⟩
  rw [below.size_eq]
  simp only [pageSize]
  omega

/-- The page tables that a segment and its window miss. -/
theorem missing_le (below : ph.BelowStacks) (size : ph.size = ph.pageCount * pageSize)
    (found : vmmTempLoop regions ph.size (2 ^ 20) kernelTempStart = .ok (some addr))
    (paging loader : Paging) :
    (paging.missing ph.newVaddr (ph.size / pageSize)).card +
      (loader.missing addr (ph.size / pageSize)).card ≤ 2 * (ph.pageCount / 1024 + 2) := by
  have place := below.place_le
  have fits := vmmTempLoop_below found
  rw [KElfProgrHdr32.count_eq size]
  rw [size] at fits
  have own := @Paging.card_missing_le ph.newVaddr ph.pageCount paging (by omega)
  have window := @Paging.card_missing_le addr ph.pageCount loader (by omega)
  omega

theorem Enough.next (enough : Enough m.kernel proc (ph :: segments)) (below : ph.BelowStacks)
    (size : ph.size = ph.pageCount * pageSize)
    (loaded : SegmentLoaded buff proc m ph r phys addr vmm m') (loading : Loading proc m)
    (fits : ph.Fits) : Enough m'.kernel proc segments := by
  obtain ⟨blocks, few, fewLoader, tables⟩ := enough
  obtain ⟨-, loaderSpace, pool⟩ := segment_backed loaded.backed loading fits loaded.place
  have missing := missing_le below size loaded.search (m.kernel.vmm.paging proc)
    (vmm.paging m.kernel.currentProc)
  have poolAfter := loaded.closed.pool
  have alloc := loaded.backed.alloc
  rw [(Prod.mk.inj loaded.place).2, KElfProgrHdr32.count_eq size] at alloc
  rw [List.map_cons, List.sum_cons] at tables
  rw [List.length_cons] at few
  refine ⟨?_, ?_, ?_, by omega⟩
  · have left : (kpmmAlloc m.kernel.vmm.kpmm ph.pageCount).2 = m'.kernel.vmm.kpmm :=
      (congrArg Prod.snd alloc).trans loaded.closed.kpmm.symm
    rw [← left]
    exact blocks.2
  · rw [loaded.regions loading fits, List.length_append, List.length_singleton]
    omega
  · rw [loaded.currentProc, loaded.loader_regions loading fits]
    exact fewLoader

theorem SegmentAccepted.safe
    (accepted : SegmentAccepted buff (m.kernel.regions m.kernel.currentProc) ph)
    (below : ph.BelowStacks) (running : m.kernel.sched.current ≠ none)
    (enough : Enough m.kernel proc (ph :: segments))
    (apart : ∀ x ∈ m.kernel.regions proc, Apart (place x) ph.pagePlace)
    (fits : ∀ x ∈ m.kernel.regions proc, 0 < x.regionSize ∧ x.virtAddr + x.regionSize < 2 ^ 32) :
    SegmentSafe buff proc m ph := by
  obtain ⟨blocks, few, fewLoader, tables⟩ := enough
  have size := below.size_eq_iff.mpr accepted.notWhole
  obtain ⟨addr, found⟩ := accepted.window
  have missing := missing_le below size found (m.kernel.vmm.paging proc)
    (m.kernel.vmm.paging m.kernel.currentProc)
  have place := below.place_le
  rw [List.map_cons, List.sum_cons] at tables
  rw [List.length_cons] at few
  exact
    { positive := below.positive
      contained := accepted.contained below
      running := running
      room :=
        { few := by change (m.kernel.regions proc).length ≠ _; omega
          blocks := by rw [KElfProgrHdr32.count_eq size]; exact blocks.1
          free := fun x member => by
            rw [size]
            exact overlaps_of_apart (apart x member) (fits x member).1 (fits x member).2
              (by omega) }
      window :=
        { few := Nat.ne_of_lt fewLoader
          search := ⟨addr, found, by omega⟩ } }

/-- What is known before the headers at these offsets: their segments fit in with the regions
of the process, in a layout that does not change any more. -/
structure LoadsOn (buff : List (BitVec 8)) (proc : Nat) (total : List (Nat × Nat)) (m : Machine)
    (offsets : List Nat) : Prop where
  loading : Loading proc m
  running : m.kernel.sched.current ≠ none
  enough : Enough m.kernel proc (segmentsAt buff offsets)
  layout : (m.kernel.regions proc).map place ++
    (segmentsAt buff offsets).map KElfProgrHdr32.pagePlace = total
  headers : ∀ ph ∈ offsets, HeaderReadable buff ph
  below : ∀ ph ∈ segmentsAt buff offsets, ph.BelowStacks
  accepted : ∀ ph ∈ segmentsAt buff offsets,
    SegmentAccepted buff (m.kernel.regions m.kernel.currentProc) ph

section

variable {total : List (Nat × Nat)} {offsets : List Nat} {header : Nat}

theorem LoadsOn.skip (loadsOn : LoadsOn buff proc total m (header :: offsets))
    (notLoad : (progrHdr buff header).segType ≠ elfPtLoad) :
    HeaderLoads buff proc m header m ∧ LoadsOn buff proc total m offsets := by
  obtain ⟨loading, running, enough, layout, headers, below, accepted⟩ := loadsOn
  obtain ⟨⟨inside, readable⟩, headers⟩ := List.forall_mem_cons.mp headers
  rw [segmentsAt_cons_skip notLoad] at enough layout below accepted
  have skipped : (progrHdr buff header).segType = elfPtNull ∨
      (progrHdr buff header).segType = elfPtPhdr :=
    readable.imp_right fun other => other.resolve_right fun load => notLoad load.1
  exact ⟨loadHeader_skip inside skipped,
    ⟨loading, running, enough, layout, headers, below, accepted⟩⟩

theorem LoadsOn.load (apart : total.Pairwise Apart)
    (fits : ∀ a ∈ total, 0 < a.2 ∧ a.1 + a.2 < 2 ^ 32)
    (loadsOn : LoadsOn buff proc total m (header :: offsets))
    (isLoad : (progrHdr buff header).segType = elfPtLoad) :
    ∃ m', HeaderLoads buff proc m header m' ∧ LoadsOn buff proc total m' offsets := by
  obtain ⟨loading, running, enough, layout, headers, below, accepted⟩ := loadsOn
  obtain ⟨⟨-, readable⟩, headers⟩ := List.forall_mem_cons.mp headers
  have inside : header + 28 ≤ buff.length := by
    rcases readable with isNull | isPhdr | load
    · exact absurd isLoad (skipped_ne_load (.inl isNull))
    · exact absurd isLoad (skipped_ne_load (.inr isPhdr))
    · exact load.2
  rw [segmentsAt_cons_load isLoad] at enough layout below accepted
  obtain ⟨below, belowRest⟩ := List.forall_mem_cons.mp below
  obtain ⟨accepted, acceptedRest⟩ := List.forall_mem_cons.mp accepted
  have segmentFits := KElfProgrHdr32.progrHdr_fits buff header
  have size := below.size_eq_iff.mpr accepted.notWhole
  -- the segment's place is one of the layout, apart from those of the regions
  have regionsApart : ∀ x ∈ m.kernel.regions proc,
      Apart (place x) (progrHdr buff header).pagePlace := by
    rw [← layout, List.pairwise_append] at apart
    exact fun x member => apart.2.2 _ (List.mem_map_of_mem member) _ List.mem_cons_self
  have regionsFit : ∀ x ∈ m.kernel.regions proc,
      0 < x.regionSize ∧ x.virtAddr + x.regionSize < 2 ^ 32 := fun x member =>
    fits (place x) (by rw [← layout]; exact List.mem_append_left _ (List.mem_map_of_mem member))
  have safe := accepted.safe below running enough regionsApart regionsFit
  obtain ⟨m', returned⟩ := loadSegment_returns loading segmentFits safe
  obtain ⟨r, phys, addr, vmm, loaded⟩ := loadSegment_loaded loading segmentFits returned
  refine ⟨m', (loadHeader_load inside isLoad).trans returned,
    { loading := loaded.loading loading segmentFits
      running := by rw [loaded.kernel]; exact running
      enough := enough.next below size loaded loading segmentFits
      layout := ?_
      headers := headers
      below := belowRest
      accepted := ?_ }⟩
  · rw [loaded.regions loading segmentFits, List.map_append, List.map_singleton, loaded.place,
      size, List.append_assoc, List.singleton_append]
    exact layout
  · rw [loaded.currentProc, loaded.loader_regions loading segmentFits]
    exact acceptedRest

/-- The loop takes well-placed segments in any order. -/
theorem LoadsOn.exists_run (apart : total.Pairwise Apart)
    (fits : ∀ a ∈ total, 0 < a.2 ∧ a.1 + a.2 < 2 ^ 32)
    (loadsOn : LoadsOn buff proc total m offsets) :
    ∃ m', Run (HeaderLoads buff proc) m offsets m' := by
  induction offsets generalizing m with
  | nil => exact ⟨m, .nil m⟩
  | cons header offsets inductionHypothesis =>
    have step : ∃ m₁, HeaderLoads buff proc m header m₁ ∧ LoadsOn buff proc total m₁ offsets := by
      by_cases isLoad : (progrHdr buff header).segType = elfPtLoad
      · exact loadsOn.load apart fits isLoad
      · exact ⟨m, loadsOn.skip isLoad⟩
    obtain ⟨m₁, taken, next⟩ := step
    obtain ⟨m', rest⟩ := inductionHypothesis next
    exact ⟨m', .cons taken rest⟩

end

end

/-! ## Well-formed executables -/

/-- The segments of a file. -/
def loadSegments (buff : List (BitVec 8)) : List KElfProgrHdr32 :=
  segmentsAt buff (elfHeaderOffsets buff)

/-- Segments with bytes, below the stacks, that have no page in common. -/
structure WellFormed (segments : List KElfProgrHdr32) : Prop where
  below : ∀ ph ∈ segments, ph.BelowStacks
  disjoint : segments.Pairwise fun ph other => Disjoint ph.pages other.pages

/-- The stacks, the kernel and the pages of every segment are mapped, and no other page is. -/
structure SegmentsPlaced (buff : List (BitVec 8)) (proc : Nat) (k : KernelState) : Prop where
  layout : (k.regions proc).map place =
    [(0xBFFFC000, 0x2000), (0xBFFF9000, 0x2000), (0xC0000000, kernelSize)] ++
      (loadSegments buff).map KElfProgrHdr32.pagePlace
  present : k.vmm.RegionsPresent proc

/-- The loader returns a process with every segment over its pages. -/
def PlacesSegments (m : Machine) (buff : List (BitVec 8)) (proc t : Nat) : Prop :=
  ∃ pid m', elfLoadFromMemory m buff proc t = .ok (.sOk, some pid, m') ∧
    SegmentsPlaced buff proc m'.kernel

/-- The program headers can be read and every segment is accepted. -/
structure FileAccepted (buff : List (BitVec 8)) (regions : List KVmmRegion) : Prop where
  headers : ∀ ph ∈ elfHeaderOffsets buff, HeaderReadable buff ph
  segments : ∀ ph ∈ loadSegments buff, SegmentAccepted buff regions ph

section

variable {m : Machine} {buff : List (BitVec 8)} {proc t pid : Nat} {k : KernelState}
  {segments : List KElfProgrHdr32}

theorem WellFormed.apart (wellFormed : WellFormed segments) :
    ([(0xBFFFC000, 0x2000), (0xBFFF9000, 0x2000), (0xC0000000, kernelSize)] ++
      segments.map KElfProgrHdr32.pagePlace).Pairwise Apart := by
  rw [List.pairwise_append, List.pairwise_map]
  refine ⟨by simp [Apart], ?_, ?_⟩
  · refine wellFormed.disjoint.imp_of_mem fun member other disjoint => ?_
    exact apart_of_disjoint (wellFormed.below _ member) (wellFormed.below _ other) disjoint
  · intro a fixed b segment
    obtain ⟨ph, member, rfl⟩ := List.mem_map.mp segment
    have place := (wellFormed.below ph member).place_le
    have high : ∀ a ∈ [((0xBFFFC000 : Nat), (0x2000 : Nat)), (0xBFFF9000, 0x2000),
        (0xC0000000, kernelSize)], 0xBFFF9000 ≤ a.1 := by decide
    exact .inr (Nat.le_trans place (high a fixed))

theorem WellFormed.fits (wellFormed : WellFormed segments) :
    ∀ a ∈ [(0xBFFFC000, 0x2000), (0xBFFF9000, 0x2000), (0xC0000000, kernelSize)] ++
      segments.map KElfProgrHdr32.pagePlace, 0 < a.2 ∧ a.1 + a.2 < 2 ^ 32 := by
  refine List.forall_mem_append.mpr ⟨by decide, fun a segment => ?_⟩
  obtain ⟨ph, member, rfl⟩ := List.mem_map.mp segment
  have place := (wellFormed.below ph member).place_le
  exact ⟨Nat.mul_pos ph.pageCount_pos (by decide), Nat.lt_of_le_of_lt place (by decide)⟩

theorem running_of_current {k k' : KernelState} (running : k.sched.current ≠ none)
    (same : schedGetCurrentProc k' = schedGetCurrentProc k) : k'.sched.current ≠ none := by
  rw [schedGetCurrentProc_running running] at same
  exact (running_of_schedGetCurrentProc same).1

/-- The segments of a well-formed executable are mapped over their pages if and only if the file
is accepted. -/
theorem elfLoadFromMemory_places_iff (long : elfHeaderSize ≤ buff.length)
    (executable : elfType buff = elfTypeExecutable) (ready : m.kernel.Ready proc t)
    (running : m.kernel.sched.current ≠ none)
    (begins : elfLoadBegin m.kernel proc t = .ok (.ok (pid, proc), k))
    (finishes : ∃ sched, Sched.elfLoadFinish k.sched proc = .ok sched)
    (wellFormed : WellFormed (loadSegments buff)) (enough : Enough k proc (loadSegments buff)) :
    PlacesSegments m buff proc t ↔
      FileAccepted buff (m.kernel.regions m.kernel.currentProc) := by
  obtain ⟨-, begun⟩ := elfLoadBegin_begun ready begins
  have loading := @LoadBegun.loading m.kernel k m.memory proc t pid begun ready
  have loader : k.regions k.currentProc = m.kernel.regions m.kernel.currentProc := by
    rw [begun.current.2]
    exact begun.regions _ ready.notCurrent
  constructor
  · rintro ⟨pid', m', returned, placed⟩
    obtain ⟨-, pid'', found, k', m₁, sched, begins', run, -, -, rfl⟩ :=
      elfLoadFromMemory_loaded long returned
    obtain ⟨answer, rfl⟩ := eq_of_returned (begins.symm.trans begins')
    obtain ⟨-, rfl⟩ := Prod.mk.inj (Except.ok.inj answer)
    have loaded := HeadersLoaded.of_run loading run
    have layout := loaded.layout.symm.trans placed.layout
    rw [begun.layout] at layout
    -- the rounded sizes are what the layout of a good load says
    have sizes := List.map_inj_left.mp (List.append_cancel_left layout)
    refine ⟨loaded.headers, fun ph member => ?_⟩
    obtain ⟨contained, window⟩ := loaded.segments ph member
    have size := (Prod.mk.inj (sizes ph member)).2
    rw [loader] at window
    exact ⟨contained.inFile, contained.notLonger,
      (wellFormed.below ph member).size_eq_iff.mp size, window⟩
  · intro accepted
    obtain ⟨m₁, run⟩ := @LoadsOn.exists_run buff proc ⟨k, m.memory⟩ _ (elfHeaderOffsets buff)
      wellFormed.apart wellFormed.fits
      { loading := loading
        running := running_of_current running begun.current.1
        enough := enough
        layout := by rw [begun.layout]; rfl
        headers := accepted.headers
        below := wellFormed.below
        accepted := by rw [loader]; exact accepted.segments }
    obtain ⟨sched, finished⟩ := finishes
    obtain ⟨-, same⟩ := loadHeaders_keeps loading run
    have loaded := HeadersLoaded.of_run loading run
    refine ⟨pid, ⟨{ m₁.kernel with sched }, m₁.memory⟩,
      elfLoadFromMemory_of_run long executable begins run (by rw [same]; exact finished), ?_,
      loaded.present begun.present⟩
    change (m₁.kernel.regions proc).map place = _
    rw [loaded.layout, begun.layout]
    refine congrArg _ (List.map_inj_left.mpr fun ph member => ?_)
    have size := (wellFormed.below ph member).size_eq_iff.mpr (accepted.segments ph member).notWhole
    rw [size]
    rfl

end

/-! ## Two neighbours -/

/-- One byte before the end of page `0x400`, or at its end, and one byte in the next page. -/
def neighbours (pVaddr : Nat) : List KElfProgrHdr32 :=
  [⟨1, 0, pVaddr, 1, 1, 2⟩, ⟨1, 0, 0x401000, 1, 1, 2⟩]

theorem neighbours_wellFormed {pVaddr : Nat} (page : pVaddr / pageSize = 0x400) :
    WellFormed (neighbours pVaddr) := by
  have range : 0x400000 ≤ pVaddr ∧ pVaddr < 0x401000 := by
    simp only [pageSize] at page
    omega
  refine ⟨?_, ?_⟩
  · simp only [neighbours, List.forall_mem_cons, List.not_mem_nil, false_implies, implies_true,
      and_true]
    exact ⟨⟨Nat.one_pos, by dsimp only; omega⟩, ⟨Nat.one_pos, by decide⟩⟩
  · simp only [neighbours, List.pairwise_cons, List.mem_singleton, forall_eq, List.not_mem_nil,
      false_implies, implies_true, List.Pairwise.nil, and_true]
    refine Set.disjoint_left.mpr fun n first second => ?_
    simp only [KElfProgrHdr32.pages, mem_Icc, pageSize] at first second
    omega

/-- A file with them gets its process on a machine that has just booted, and there is enough for
the segments. -/
theorem booted_enough (pVaddr : Nat) :
    ∃ k, elfLoadBegin Machine.booted.kernel 2 48 = .ok (.ok (101, 2), k) ∧
      (∃ sched, Sched.elfLoadFinish k.sched 2 = .ok sched) ∧ Enough k 2 (neighbours pVaddr) := by
  have known : (elfLoadBegin Machine.booted.kernel 2 48).toOption.map (fun r =>
      (r.1.toOption, (Sched.elfLoadFinish r.2.sched 2).toOption.isSome,
        decide (BlocksFor r.2.vmm.kpmm [1, 1] ∧ (r.2.regions 2).length = 3 ∧
          (r.2.regions r.2.currentProc).length < maxVmRegions ∧ 8 ≤ r.2.vmm.pool.length))) =
      some (some (101, 2), true, true) := by
    decide +kernel
  obtain ⟨⟨answer, k⟩, begins, result⟩ := exists_of_known known
  obtain ⟨created, rest⟩ := Prod.mk.inj result
  obtain ⟨finished, enough⟩ := Prod.mk.inj rest
  obtain ⟨blocks, regions, loader, pool⟩ := of_decide_eq_true enough
  have first : KElfProgrHdr32.pageCount ⟨1, 0, pVaddr, 1, 1, 2⟩ = 1 := by
    rw [KElfProgrHdr32.pageCount, Nat.add_sub_cancel, Nat.sub_self]
  -- wherever the first one is, both have one page
  have counts : (neighbours pVaddr).map KElfProgrHdr32.pageCount = [1, 1] := by
    rw [neighbours, List.map_cons, first]
    rfl
  have tables : ((neighbours pVaddr).map fun ph => 2 * (ph.pageCount / 1024 + 2)).sum = 8 := by
    rw [← Function.comp_def (fun count => 2 * (count / 1024 + 2)) KElfProgrHdr32.pageCount,
      ← List.map_map, counts]
    rfl
  obtain ⟨sched, finishes⟩ : ∃ sched, Sched.elfLoadFinish k.sched 2 = .ok sched := by
    cases finish : Sched.elfLoadFinish k.sched 2 with
    | error halt =>
      rw [finish] at finished
      cases finished
    | ok sched => exact ⟨sched, rfl⟩
  cases answer with
  | error hr => cases created
  | ok created' =>
    obtain rfl := Option.some.inj created
    refine ⟨k, begins, ⟨sched, finishes⟩, by rw [counts]; exact blocks, ?_, loader, ?_⟩
    · rw [regions]
      exact (by decide : 3 + 2 ≤ maxVmRegions)
    · rw [tables]
      exact pool

/-- When the first segment ends a byte earlier, both are mapped. -/
theorem elfLoadFromMemory_places_neighbours :
    PlacesSegments .booted (elfFile (neighbours 0x400FFE)) 2 48 ↔
      FileAccepted (elfFile (neighbours 0x400FFE))
        (Machine.booted.kernel.regions Machine.booted.kernel.currentProc) := by
  have segments : loadSegments (elfFile (neighbours 0x400FFE)) = neighbours 0x400FFE := by
    decide +kernel
  obtain ⟨k, begins, finishes, enough⟩ := booted_enough 0x400FFE
  exact elfLoadFromMemory_places_iff (by decide) (by decide) booted_ready (by decide) begins
    finishes (by rw [segments]; exact neighbours_wellFormed (by decide))
    (by rw [segments]; exact enough)

/-- When it ends with its page, the loader panics at the second one. -/
theorem elfLoadFromMemory_whole_page :
    WellFormed (loadSegments (elfFile (neighbours 0x400FFF))) ∧
      (∃ k, elfLoadBegin Machine.booted.kernel 2 48 = .ok (.ok (101, 2), k) ∧
        Enough k 2 (loadSegments (elfFile (neighbours 0x400FFF)))) ∧
      elfLoadFromMemory .booted (elfFile (neighbours 0x400FFF)) 2 48 =
        .error (.panic "Failed to allocate and map ELF segment.") ∧
      ¬PlacesSegments .booted (elfFile (neighbours 0x400FFF)) 2 48 := by
  have segments : loadSegments (elfFile (neighbours 0x400FFF)) = neighbours 0x400FFF := by
    decide +kernel
  have panics : elfLoadFromMemory .booted (elfFile (neighbours 0x400FFF)) 2 48 =
      .error (.panic "Failed to allocate and map ELF segment.") :=
    eq_error_of_haltOf (by decide +kernel)
  obtain ⟨k, begins, -, enough⟩ := booted_enough 0x400FFF
  rw [segments]
  refine ⟨neighbours_wellFormed (by decide), ⟨k, begins, enough⟩, panics, ?_⟩
  rintro ⟨pid, m', returned, -⟩
  rw [panics] at returned
  cases returned

end Antonix.Elf
