import Antonix.MmVirt.PageTables
import Antonix.MmVirt.TempMap

/-! # Windows

A kernel routine that writes to memory of another process maps it temporarily in
the current one, and takes the window back afterwards.  The window translates to
the memory in between; what the current process had mapped at its addresses is
lost. -/

namespace Antonix

open Set Function

section

variable {regions : List KVmmRegion} {state state₁ state₂ : VmmState}
  {proc phys size addr : Nat} {hr : HResult}

/-- The search ends at an aligned address that no region overlaps. -/
theorem vmmTempLoop_found {fuel start : Nat} (aligned : start % pageSize = 0)
    (searched : vmmTempLoop regions size fuel start = .ok (some addr)) :
    addr % pageSize = 0 ∧ ∀ x ∈ regions, x.overlaps addr (u32 (addr + size)) = false := by
  induction fuel generalizing start with
  | zero => cases searched
  | succ fuel inductionHypothesis =>
    rw [vmmTempLoop] at searched
    split at searched
    · cases search : regions.find? (·.overlaps start (u32 (start + size))) with
      | none =>
        rw [search] at searched
        obtain rfl := Option.some.inj (Except.ok.inj searched)
        refine ⟨aligned, fun x member => ?_⟩
        simpa using List.find?_eq_none.mp search x member
      | some r =>
        rw [search] at searched
        dsimp only at searched
        split at searched
        · cases searched
        · next whole => exact inductionHypothesis (not_not.mp whole) searched
    · cases searched

theorem vmmTempMapRegion_maps (apart : state.TablesApart)
    (search : vmmTempLoop (state.procs proc).regions size (2 ^ 20) kernelTempStart =
      .ok (some addr))
    (few : (state.procs proc).regions.length ≠ maxVmRegions) (whole : size % pageSize = 0)
    (aligned : phys % pageSize = 0)
    (tables : ((state.paging proc).missing addr (size / pageSize)).card ≤ state.pool.length) :
    ∃ state₁, vmmTempMapRegion state (some proc) phys size = .ok (.sOk, some addr, state₁) ∧
      WindowMapped state proc phys size addr state₁ := by
  have below := vmmTempLoop_below search
  have free := (vmmTempLoop_found (by decide) search).2
  obtain ⟨state₁, mapped, mapping⟩ := @vmmMapRegion_maps state proc
    ⟨phys, addr, size, usageTemp, accessReadWrite⟩ apart (by dsimp only; omega) few whole aligned
    free tables
  refine ⟨state₁, ?_, search, mapping, vmmMapRegion_kpmm mapped⟩
  rw [vmmTempMapRegion, search]
  dsimp only [bind, Except.bind]
  rw [mapped]
  rfl

/-- The window is gone: nothing is mapped there any more, and all else is as it was. -/
structure WindowClosed (state : VmmState) (proc size addr : Nat) (state₂ : VmmState) : Prop where
  tables : state₂.TablesApart
  others : OthersUnchanged state proc state₂
  regions : ∀ p, (state₂.procs p).regions = (state.procs p).regions
  kpmm : state₂.kpmm = state.kpmm
  inside : ∀ a ∈ Ico addr (addr + size), (state₂.paging proc).translate a = none
  outside : ∀ a ∉ Ico addr (addr + size),
    (state₂.paging proc).translate a = (state.paging proc).translate a
  pool : state₂.pool.length + ((state.paging proc).missing addr (size / pageSize)).card =
    state.pool.length

theorem OthersUnchanged.trans (first : OthersUnchanged state proc state₁)
    (second : OthersUnchanged state₁ proc state₂) : OthersUnchanged state proc state₂ :=
  fun other differ => (second other differ).trans (first other differ)

namespace WindowMapped

variable (window : WindowMapped state proc phys size addr state₁)
include window

theorem fits : addr + size < 2 ^ 32 := vmmTempLoop_below window.search

theorem aligned : addr % pageSize = 0 := (vmmTempLoop_found (by decide) window.search).1

theorem translate_isSome (apart : state.TablesApart) {k : Nat} (inside : k < size) :
    ((state₁.paging proc).translate (addr + k)).isSome = true := by
  obtain ⟨-, -, -, pages⟩ := window.mapping.pagesMapped apart window.fits
  have page : (addr + k) / pageSize ∈
      (⟨phys, addr, size, usageTemp, accessReadWrite⟩ : KVmmRegion).pages :=
    (KVmmRegion.mem_pages_iff window.aligned window.mapping.whole).mpr
      ⟨Nat.le_add_right _ _, Nat.add_lt_add_left inside _⟩
  rw [Paging.translate, pages.inside _ page]
  rfl

theorem translate_eq (apart : state.TablesApart) (physFits : phys + size ≤ 2 ^ 32) {k : Nat}
    (inside : k < size) : (state₁.paging proc).translate (addr + k) = some (phys + k) := by
  have fits := window.fits
  obtain ⟨-, -, -, pages⟩ := window.mapping.setsPages apart (by dsimp only; omega)
    (by dsimp only; omega) (by dsimp only; omega)
  have here := pages.translate_pageSet (by dsimp only; omega) window.aligned window.mapping.aligned
    window.mapping.whole physFits inside (by dsimp only; omega)
  rwa [u32_of_lt (by dsimp only; omega)] at here

theorem closed (apart : state.TablesApart) (positive : 0 < size) :
    ∃ state₂, vmmUnmapRegion state₁ (some proc) addr = .ok (.sOk, state₂) ∧
      WindowClosed state proc size addr state₂ := by
  have fits := window.fits
  have whole : size % pageSize = 0 := window.mapping.whole
  have taken := window.mapping.pool apart (by dsimp only; omega)
  obtain ⟨apart₁, others₁, regions₁, pages⟩ := window.mapping.pagesMapped apart fits
  have nonempty : 0 < size / pageSize :=
    Nat.div_pos (Nat.le_of_dvd positive (Nat.dvd_of_mod_eq_zero whole)) (by decide)
  have ends : addr + size / pageSize * pageSize = u32 (addr + size) := by
    rw [u32_of_lt fits, Nat.div_mul_cancel (Nat.dvd_of_mod_eq_zero whole)]
  -- every page of the window has a table now
  obtain ⟨hr, paging, unmapped, cleared, ok⟩ := vmmUnmapPages_spec (u32_lt _) (apart₁ proc) ends
    (Nat.lt_succ_self _)
  obtain rfl : hr = .sOk := ok pages.tables
  have untranslated := @PagesCleared.translate (state₁.paging proc)
    ⟨phys, addr, size, usageTemp, accessReadWrite⟩ _ paging cleared window.aligned whole
  -- it is the last region, and the only one at its address
  have found : (state₁.procs proc).regions[(state.procs proc).regions.length]? =
      some ⟨phys, addr, size, usageTemp, accessReadWrite⟩ := by
    rw [regions₁, List.getElem?_concat_length]
  have only : ∀ x ∈ (state.procs proc).regions, x.virtAddr ≠ addr := by
    intro x member same
    have missed := window.mapping.apart x member
    rw [KVmmRegion.overlaps, same, u32_of_lt fits] at missed
    simp only [Bool.or_eq_false_iff, Bool.and_eq_false_iff, decide_eq_false_iff_not] at missed
    omega
  have temporary : usageTemp &&& usageAutofree = 0 := rfl
  have desc : procOfDesc state₁ (some proc) = .ok proc := rfl
  obtain ⟨hr, kpmm, answered, status⟩ := vmmUnmapRegion_found desc found
    (by rwa [regions₁, List.take_left]) nonempty whole unmapped
  obtain rfl : hr = .sOk := status.mpr (.inl temporary)
  obtain ⟨restored, others₂, released⟩ := vmmUnmapRegion_first regions₁ only answered
  rw [FramesReleased, if_neg (not_not.mpr temporary)] at released
  have kpmmApart : VmmState.TablesApart { state₁ with kpmm } := apart₁
  refine ⟨_, answered,
    { tables := kpmmApart.setProc cleared.sound
      others := others₁.trans (.setProc kpmmApart cleared.foreign)
      regions := fun p => ?_
      kpmm := released.trans window.kpmm
      inside := fun a member => ?_
      outside := fun a outside => ?_
      pool := ?_ }⟩
  · by_cases here : p = proc
    · rw [here, restored, List.append_nil]
    · rw [others₂ p here]
      exact congrArg AddressSpace.regions (others₁ p here)
  · rw [VmmState.setProc_paging_self]
    obtain ⟨k, rfl⟩ := Nat.exists_eq_add_of_le member.1
    exact untranslated.1 k (Nat.lt_of_add_lt_add_left member.2)
  · rw [VmmState.setProc_paging_self, untranslated.2 a outside]
    refine Paging.translate_congr (pages.outside _ fun inside => outside ?_)
    exact (KVmmRegion.mem_pages_iff window.aligned whole).mp inside
  · have same : paging.pool.length = state₁.pool.length := by rw [cleared.pool]; rfl
    rw [← taken, ← same]
    rfl

end WindowMapped

end

/-! ## Many windows -/

/-- A window at addresses where nothing is mapped. -/
def WindowClear (state : VmmState) (proc size : Nat) : Prop :=
  ∀ addr, vmmTempLoop (state.procs proc).regions size (2 ^ 20) kernelTempStart =
      .ok (some addr) →
    ∀ a ∈ Ico addr (addr + size), (state.paging proc).translate a = none

/-- The address is in the window for one of these sizes. -/
def InWindow (regions : List KVmmRegion) (sizes : List Nat) (a : Nat) : Prop :=
  ∃ size ∈ sizes, ∃ addr, vmmTempLoop regions size (2 ^ 20) kernelTempStart = .ok (some addr) ∧
    a ∈ Ico addr (addr + size)

/-- Windows of these sizes were opened and closed, and nothing else was done to the process. -/
structure WindowsGone (state : VmmState) (proc : Nat) (sizes : List Nat) (state' : VmmState) :
    Prop where
  regions : (state'.procs proc).regions = (state.procs proc).regions
  inside : ∀ a, InWindow (state.procs proc).regions sizes a →
    (state'.paging proc).translate a = none
  outside : ∀ a, ¬InWindow (state.procs proc).regions sizes a →
    (state'.paging proc).translate a = (state.paging proc).translate a

section

variable {state state' state'' : VmmState} {proc size addr : Nat} {sizes later : List Nat}

theorem translate_of_space {p : Nat} (same : state'.space p = state.space p) (a : Nat) :
    (state'.paging p).translate a = (state.paging p).translate a :=
  Paging.translate_congr (congrFun (congrArg AddressSpace.entry same) _)

theorem missing_of_space {p : Nat} (same : state'.space p = state.space p)
    (virt pageCnt : Nat) :
    (state'.paging p).missing virt pageCnt = (state.paging p).missing virt pageCnt := by
  have dir : (state'.paging p).dir = (state.paging p).dir := congrArg AddressSpace.dir same
  rw [Paging.missing, Paging.missing, dir]

theorem WindowsGone.of_space (same : state'.space proc = state.space proc) :
    WindowsGone state proc [] state' where
  regions := congrArg AddressSpace.regions same
  inside a within := by
    obtain ⟨size, member, -⟩ := within
    cases member
  outside a _ := translate_of_space same a

theorem WindowClosed.gone (closed : WindowClosed state proc size addr state')
    (search : vmmTempLoop (state.procs proc).regions size (2 ^ 20) kernelTempStart =
      .ok (some addr)) : WindowsGone state proc [size] state' where
  regions := closed.regions proc
  inside a within := by
    obtain ⟨size', member, addr', search', inside⟩ := within
    obtain rfl := List.mem_singleton.mp member
    obtain rfl := Option.some.inj (Except.ok.inj (search.symm.trans search'))
    exact closed.inside a inside
  outside a notWithin := closed.outside a fun inside =>
    notWithin ⟨size, List.mem_singleton_self _, addr, search, inside⟩

theorem WindowsGone.trans (first : WindowsGone state proc sizes state')
    (second : WindowsGone state' proc later state'') :
    WindowsGone state proc (sizes ++ later) state'' := by
  have split : ∀ a, InWindow (state.procs proc).regions (sizes ++ later) a ↔
      InWindow (state.procs proc).regions sizes a ∨
        InWindow (state'.procs proc).regions later a := by
    intro a
    rw [first.regions]
    simp only [InWindow, List.mem_append, or_and_right, exists_or]
  refine ⟨second.regions.trans first.regions, fun a within => ?_, fun a notWithin => ?_⟩
  · by_cases inside : InWindow (state'.procs proc).regions later a
    · exact second.inside a inside
    · rw [second.outside a inside]
      exact first.inside a (((split a).mp within).resolve_right inside)
  · rw [split, not_or] at notWithin
    rw [second.outside a notWithin.2, first.outside a notWithin.1]

/-- They leave no trace exactly when nothing was mapped where they were. -/
theorem WindowsGone.translate_eq_iff (gone : WindowsGone state proc sizes state') :
    (∀ a, (state'.paging proc).translate a = (state.paging proc).translate a) ↔
      ∀ size ∈ sizes, WindowClear state proc size := by
  constructor
  · intro same size member addr search a inside
    rw [← same a]
    exact gone.inside a ⟨size, member, addr, search, inside⟩
  · intro clear a
    by_cases within : InWindow (state.procs proc).regions sizes a
    · rw [gone.inside a within]
      obtain ⟨size, member, addr, search, inside⟩ := within
      exact (clear size member addr search a inside).symm
    · exact gone.outside a within

end

/-! ## Regions with memory of their own -/

section

variable {state state' : VmmState} {proc virtAddr size usage access : Nat}

theorem kpmmAlloc_address {kpmm kpmm' : Bitmap 32} {numBlocks area : Nat}
    (taken : kpmmAlloc kpmm numBlocks = (.ok area, kpmm')) :
    area < 2 ^ 32 ∧ area % pageSize = 0 := by
  rw [kpmmAlloc] at taken
  cases found : kpmmFindFreeRegion kpmm numBlocks with
  | error hr =>
    rw [found] at taken
    cases (Prod.mk.inj taken).1
  | ok area' =>
    rw [found] at taken
    have same : area' = area := by
      dsimp only at taken
      split at taken
      · exact Except.ok.inj (Prod.mk.inj taken).1
      · cases (Prod.mk.inj taken).1
    rw [kpmmFindFreeRegion] at found
    split at found
    · next iStart _ =>
      rw [← same, ← Except.ok.inj found]
      refine ⟨u32_lt _, ?_⟩
      simp only [u32, pageSize]
      omega
    · cases found

/-- The region was given blocks that were free, and mapped. -/
structure RegionBacked (state : VmmState) (proc : Nat) (r : KVmmRegion) (state' : VmmState) :
    Prop where
  physSmall : r.physAddr < 2 ^ 32
  alloc : kpmmAlloc state.kpmm (r.regionSize / pageSize) = (.ok r.physAddr, state'.kpmm)
  mapping : RegionMapped state proc r state'

theorem vmmAllocAndMap_backed
    (returned : vmmAllocAndMap state (some proc) virtAddr size usage access =
      .ok (.sOk, state')) :
    ∃ physAddr, RegionBacked state proc
      ⟨physAddr, virtAddr, size, usage ||| usageAutofree, access⟩ state' := by
  rw [vmmAllocAndMap] at returned
  split at returned
  · next failed =>
    obtain ⟨rfl, -⟩ := eq_of_returned returned
    exact absurd rfl (kpmmAlloc_error failed)
  · next physAddr kpmm taken =>
    have kept := vmmMapRegion_kpmm returned
    obtain ⟨-, proc', desc, mapping⟩ := (vmmMapRegion_cases returned).resolve_left (by simp)
    obtain rfl : proc = proc' := Except.ok.inj desc
    exact ⟨physAddr, (kpmmAlloc_address taken).1, by rw [kept]; exact taken, mapping.of_kpmm⟩

/-- Blocks are allocated and mapped when there are enough, and the region can be mapped. -/
theorem vmmAllocAndMap_maps (apart : state.TablesApart) (virtSmall : virtAddr < 2 ^ 32)
    (few : (state.procs proc).regions.length ≠ maxVmRegions) (whole : size % pageSize = 0)
    (blocks : ∃ area, (kpmmAlloc state.kpmm (size / pageSize)).1 = .ok area)
    (free : ∀ x ∈ (state.procs proc).regions,
      x.overlaps virtAddr (u32 (virtAddr + size)) = false)
    (tables : ((state.paging proc).missing virtAddr (size / pageSize)).card ≤
      state.pool.length) :
    ∃ state', vmmAllocAndMap state (some proc) virtAddr size usage access =
      .ok (.sOk, state') := by
  obtain ⟨area, found⟩ := blocks
  rw [vmmAllocAndMap]
  cases taken : kpmmAlloc state.kpmm (size / pageSize) with
  | mk answer kpmm =>
    rw [taken] at found
    obtain rfl : answer = .ok area := found
    have apart' : VmmState.TablesApart { state with kpmm } := apart
    obtain ⟨state', mapped, -⟩ := @vmmMapRegion_maps { state with kpmm } proc
      ⟨area, virtAddr, size, usage ||| usageAutofree, access⟩ apart' virtSmall few whole
      (kpmmAlloc_address taken).2 free tables
    exact ⟨state', mapped⟩

end

end Antonix
