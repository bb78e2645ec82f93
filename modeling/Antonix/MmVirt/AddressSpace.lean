import Antonix.Lib.Transition
import Antonix.MmVirt.Regions
import Mathlib.Data.List.Pairwise
import Mathlib.Order.CompletePartialOrder

/-! # Address spaces

An `AddressSpace` is what a process can observe of the memory manager: the flags
of its directory, the entry that the MMU finds for each page, and its regions.

The page tables of all processes lie in one memory, so a call made for one
process could disturb the others.  `VmmState.TablesApart` is the invariant that
rules this out: every page table belongs to one slot of one directory.  Under it
every call refines one of three steps on address spaces: nothing, adding a region
to one of them, or removing one. -/

namespace Antonix

open Set Function Transition

/-- The frames that hold page tables of the other processes. -/
def VmmState.foreign (state : VmmState) (proc : Nat) : Set Nat :=
  {table | table ≠ 0 ∧ ∃ other ≠ proc, ∃ id, ((state.procs other).pageDir id).pageTableAddr = table}

/-- No two slots of any directories share a page table. -/
def VmmState.TablesApart (state : VmmState) : Prop :=
  ∀ proc, (state.paging proc).Sound (state.foreign proc)

/-- What a process has mapped. -/
structure AddressSpace where
  dir : KVmmPageDir
  entry : Nat → KVmmPageEntry
  regions : List KVmmRegion

def VmmState.space (state : VmmState) (proc : Nat) : AddressSpace :=
  ⟨(state.procs proc).pageDir, (state.paging proc).entry, (state.procs proc).regions⟩

/-- The region is added at the end of the table and its pages are mapped.  The tables that they
need are created where there are none, and get the flags of the region. -/
structure AddressSpace.Added (r : KVmmRegion) (space space' : AddressSpace) : Prop where
  blank : ∀ m, (space.dir (m / 1024)).pageTableAddr = 0 → space.entry m = .zero
  regions : space'.regions = space.regions ++ [r]
  inside : ∀ m ∈ r.pages, space'.entry m = ⟨true, r.fRw, r.fUs, r.frame m⟩
  outside : ∀ m ∉ r.pages, space'.entry m = space.entry m
  tables : ∀ m ∈ r.pages, (space'.dir (m / 1024)).pageTableAddr ≠ 0
  kept : ∀ id, (space.dir id).pageTableAddr ≠ 0 → space'.dir id = space.dir id
  created : ∀ id, (space.dir id).pageTableAddr = 0 → space'.dir id = space.dir id ∨
    ((space'.dir id).fReadwrite = r.fRw ∧ (space'.dir id).fAllowUserRead = r.fUs ∧
      (space'.dir id).pageTableAddr ≠ 0)

/-- Pages of the region are marked as not present, and it leaves the table only when all of them
are. -/
structure AddressSpace.Removed (r : KVmmRegion) (space space' : AddressSpace) : Prop where
  dir : space'.dir = space.dir
  entry : ∀ m, space'.entry m = space.entry m ∨
    (m ∈ r.pages ∧ space'.entry m = { space.entry m with fPresent := false })
  regions : space'.regions = space.regions ∨ ∃ id, space.regions[id]? = some r ∧
    space'.regions = space.regions.eraseIdx id ∧ ∀ m ∈ r.pages, (space'.entry m).fPresent = false

/-- The address spaces of the processes other than `proc` are as before. -/
def OthersUnchanged (state : VmmState) (proc : Nat) (state' : VmmState) : Prop :=
  ∀ other, other ≠ proc → state'.space other = state.space other

section

variable {state state' : VmmState} {proc : Nat} {paging : Paging} {regions : List KVmmRegion}

/-! ## Storing a process -/

theorem VmmState.foreign_of_ne {other id : Nat} (differ : other ≠ proc)
    (table : ((state.procs other).pageDir id).pageTableAddr ≠ 0) :
    ((state.procs other).pageDir id).pageTableAddr ∈ state.foreign proc :=
  ⟨table, other, differ, id, rfl⟩

theorem VmmState.TablesApart.setProc (apart : state.TablesApart)
    (sound : paging.Sound (state.foreign proc)) :
    (state.setProc proc paging regions).TablesApart := by
  have there : ∀ {other}, other ≠ proc →
      ((state.setProc proc paging regions).procs other).pageDir = (state.procs other).pageDir :=
    fun differ => by rw [setProc_procs_of_ne _ _ _ differ]
  have here : ((state.setProc proc paging regions).procs proc).pageDir = paging.dir := by
    simp [VmmState.setProc]
  intro current
  by_cases self : current = proc
  · -- the other directories are the ones there were
    subst self
    have same : (state.setProc current paging regions).foreign current = state.foreign current := by
      ext table
      constructor
      · rintro ⟨nonzero, other, differ, id, found⟩
        rw [there differ] at found
        exact ⟨nonzero, other, differ, id, found⟩
      · rintro ⟨nonzero, other, differ, id, found⟩
        rw [← there differ] at found
        exact ⟨nonzero, other, differ, id, found⟩
    rw [setProc_paging_self, same]
    exact sound
  · have before := apart current
    have dir : ((state.setProc proc paging regions).paging current).dir =
        (state.paging current).dir := there self
    refine ⟨?_, ?_, ?_, sound.poolNodup, ?_⟩
    · rw [dir]
      exact before.present
    · rw [dir]
      exact before.apart
    · intro id table isForeign
      rw [dir] at table isForeign
      obtain ⟨nonzero, other, differ, id', found⟩ := isForeign
      by_cases stored : other = proc
      · subst stored
        rw [here] at found
        refine sound.own id' (by rwa [found]) ?_
        rw [found]
        exact foreign_of_ne self table
      · rw [there stored] at found
        exact before.own id table ⟨nonzero, other, differ, id', found⟩
    · intro table allocatable
      obtain ⟨nonzero, notForeign, fresh⟩ := sound.poolFresh table allocatable
      refine ⟨nonzero, ?_, ?_⟩
      · rintro ⟨-, other, differ, id, found⟩
        by_cases stored : other = proc
        · subst stored
          rw [here] at found
          exact fresh id found
        · rw [there stored] at found
          exact notForeign ⟨nonzero, other, stored, id, found⟩
      · intro id found
        rw [dir] at found
        exact notForeign ⟨nonzero, current, self, id, found⟩

theorem OthersUnchanged.setProc (apart : state.TablesApart)
    (kept : EqOn paging.tables state.tables (state.foreign proc)) :
    OthersUnchanged state proc (state.setProc proc paging regions) := by
  intro other differ
  have stored : (state.setProc proc paging regions).procs other = state.procs other :=
    VmmState.setProc_procs_of_ne _ _ _ differ
  have entry : ((state.setProc proc paging regions).paging other).entry =
      (state.paging other).entry := by
    funext m
    have dir : ((state.setProc proc paging regions).paging other).dir =
        (state.paging other).dir := by
      simp only [VmmState.paging, stored]
    rw [Paging.entry, Paging.entry, dir]
    split
    · rename_i present
      have table := ((apart other).present _).mp present
      exact congrFun (kept (VmmState.foreign_of_ne differ table)) _
    · rfl
  rw [VmmState.space, VmmState.space, stored, entry]

/-! ## Mapping and unmapping -/

/-- A region has been mapped: its pages lead to its frames, with its flags. -/
theorem RegionMapped.pagesMapped {r : KVmmRegion} (mapping : RegionMapped state proc r state')
    (apart : state.TablesApart) (fits : r.Fits) :
    state'.TablesApart ∧ OthersUnchanged state proc state' ∧
      (state'.procs proc).regions = (state.procs proc).regions ++ [r] ∧
      PagesMapped (state.foreign proc) r.fRw r.fUs r.frame r.pages (state.paging proc)
        (state'.paging proc) := by
  obtain ⟨kpmm, paging, mapped, rfl⟩ := mapping.mapped
  have inSpace : r.virtAddr + r.regionSize / pageSize * pageSize ≤ 2 ^ 32 := by
    have := Nat.div_mul_le_self r.regionSize pageSize
    have : r.virtAddr + r.regionSize < 2 ^ 32 := fits
    omega
  have frames : ∀ i < r.regionSize / pageSize, r.frame (r.virtAddr / pageSize + i) =
      (if i = 0 then r.physAddr else u32 (r.physAddr + i * pageSize)) / pageSize := by
    intro i _
    simp [KVmmRegion.frame]
  have pages := vmmMapPages_spec (apart proc) inSpace frames mapped
  have kpmmApart : VmmState.TablesApart { state with kpmm } := apart
  refine ⟨kpmmApart.setProc pages.sound, .setProc kpmmApart pages.foreign, by simp, ?_⟩
  rw [VmmState.setProc_paging_self]
  exact pages

/-- The pages of a region have been marked as not present, all of them where the region has left
the table. -/
theorem RegionUnmapped.pagesCleared {r : KVmmRegion} {hr : HResult}
    (unmapping : RegionUnmapped state proc r hr state') (apart : state.TablesApart)
    (fits : r.Fits) (whole : r.regionSize % pageSize = 0) :
    state'.TablesApart ∧ OthersUnchanged state proc state' ∧
      ∃ id, (state.procs proc).regions[id]? = some r ∧
        (state'.procs proc).regions =
          (if hr = HResult.sOk then (state.procs proc).regions.eraseIdx id
            else (state.procs proc).regions) ∧
        ∃ hr', (hr = .sOk → hr' = .sOk) ∧ PagesCleared (state.foreign proc) r.pages hr'
          (state.paging proc) (state'.paging proc) := by
  obtain ⟨id, kpmm, hr', paging, found, -, unmapped, status, rfl⟩ := unmapping.unmapped
  have ends :
      r.virtAddr + r.regionSize / pageSize * pageSize = u32 (r.virtAddr + r.regionSize) := by
    rw [u32_of_lt fits, Nat.div_mul_cancel (Nat.dvd_of_mod_eq_zero whole)]
  obtain ⟨hr₂, paging₂, again, cleared, -⟩ := vmmUnmapPages_spec (u32_lt _) (apart proc) ends
    (Nat.lt_succ_self _)
  obtain ⟨rfl, rfl⟩ : hr₂ = hr' ∧ paging₂ = paging := by simpa [again] using unmapped
  have kpmmApart : VmmState.TablesApart { state with kpmm } := apart
  refine ⟨kpmmApart.setProc cleared.sound, .setProc kpmmApart cleared.foreign, id, found, by simp,
    hr₂, status, ?_⟩
  rw [VmmState.setProc_paging_self]
  exact cleared

theorem RegionMapped.added {r : KVmmRegion} (mapping : RegionMapped state proc r state')
    (apart : state.TablesApart) (fits : r.Fits) :
    (state.space proc).Added r (state'.space proc) := by
  obtain ⟨-, -, regions, pages⟩ := mapping.pagesMapped apart fits
  exact
    { blank := fun m noTable => Paging.entry_of_absent (apart proc) noTable
      regions := regions
      inside := pages.inside
      outside := pages.outside
      tables := pages.tables
      kept := pages.kept
      created := pages.created }

theorem AddressSpace.Added.mem_regions {space space' : AddressSpace} {r x : KVmmRegion}
    (add : space.Added r space') : x ∈ space'.regions ↔ x ∈ space.regions ∨ x = r := by
  rw [add.regions, List.mem_append, List.mem_singleton]

theorem AddressSpace.Removed.mem_of_mem {space space' : AddressSpace} {r x : KVmmRegion}
    (remove : space.Removed r space') (member : x ∈ space'.regions) : x ∈ space.regions := by
  rcases remove.regions with same | ⟨id, -, erased, -⟩
  · exact same ▸ member
  · rw [erased] at member
    exact List.mem_of_mem_eraseIdx member

theorem RegionUnmapped.removed {r : KVmmRegion} {hr : HResult}
    (unmapping : RegionUnmapped state proc r hr state') (apart : state.TablesApart)
    (fits : r.Fits) (whole : r.regionSize % pageSize = 0) :
    (state.space proc).Removed r (state'.space proc) := by
  obtain ⟨-, -, id, found, regions, hr', status, cleared⟩ :=
    unmapping.pagesCleared apart fits whole
  refine { dir := cleared.dir, entry := cleared.entry, regions := ?_ }
  split at regions
  · rename_i succeeded
    exact .inr ⟨id, found, regions, cleared.cleared (status succeeded)⟩
  · exact .inl regions

/-! ## Calls -/

/-- The invariant of the memory manager: tables are not shared, and regions consist of whole
pages and do not wrap. -/
structure VmmState.Sound (state : VmmState) : Prop where
  tables : state.TablesApart
  fits : ∀ proc, ∀ r ∈ (state.procs proc).regions, r.Fits
  whole : ∀ proc, ∀ r ∈ (state.procs proc).regions, r.regionSize % pageSize = 0

/-- The range asked for does not wrap. -/
def VmmCall.fits (state : VmmState) : VmmCall → Prop
  | .mapRegion _ _ virtAddr size _ _ | .allocAndMap _ virtAddr size _ _ =>
    virtAddr + size < 2 ^ 32
  | .createHeap _ size _ => ∀ virtAddr, vmmGetAddressSpaceEndKs state = .ok virtAddr →
      virtAddr + size < 2 ^ 32
  | .unmapRegion _ _ | .tempMapRegion _ _ _ => True

theorem vmmTempLoop_fits {regions : List KVmmRegion} {size : Nat} :
    ∀ {fuel addr found : Nat}, vmmTempLoop regions size fuel addr = .ok (some found) →
      found + size < 2 ^ 32
  | 0, addr, found, searched => by simp [vmmTempLoop] at searched
  | fuel + 1, addr, found, searched => by
    rw [vmmTempLoop] at searched
    split at searched
    · split at searched
      · simp only [Except.ok.injEq, Option.some.injEq] at searched
        omega
      · split at searched
        · contradiction
        · exact vmmTempLoop_fits searched
    · simp at searched

variable {call : VmmCall}

theorem VmmCall.Requests.fits {r : KVmmRegion} (request : call.Requests state proc r)
    (fits : call.fits state) : r.Fits := by
  cases request with
  | mapRegion desc => exact fits
  | allocAndMap desc => exact fits
  | createHeap found endKs => exact fits _ endKs
  | tempMapRegion searched => exact vmmTempLoop_fits searched

theorem VmmState.Sound.of_regions (sound : state.Sound) (tables : state'.TablesApart)
    (others : OthersUnchanged state proc state')
    (here : ∀ r ∈ (state'.procs proc).regions,
      r ∈ (state.procs proc).regions ∨ (r.Fits ∧ r.regionSize % pageSize = 0)) :
    state'.Sound := by
  have all : ∀ current, ∀ r ∈ (state'.procs current).regions,
      r ∈ (state.procs current).regions ∨ (r.Fits ∧ r.regionSize % pageSize = 0) := by
    intro current r member
    by_cases self : current = proc
    · subst self
      exact here r member
    · have same : (state'.procs current).regions = (state.procs current).regions :=
        congrArg AddressSpace.regions (others current self)
      exact .inl (same ▸ member)
  refine ⟨tables, fun current r member => ?_, fun current r member => ?_⟩
  · cases all current r member with
    | inl older => exact sound.fits current r older
    | inr fresh => exact fresh.1
  · cases all current r member with
    | inl older => exact sound.whole current r older
    | inr fresh => exact fresh.2

/-- Every call refines a step on the address spaces. -/
theorem VmmStep.refines (step : VmmStep state call state') (sound : state.Sound)
    (fits : call.fits state) :
    state'.Sound ∧ ((∀ proc, state'.space proc = state.space proc) ∨
      ∃ proc, OthersUnchanged state proc state' ∧
        ((∃ r, call.Requests state proc r ∧ (state.space proc).Added r (state'.space proc)) ∨
          ∃ r, (state.space proc).Removed r (state'.space proc))) := by
  obtain ⟨hr, returned⟩ := step
  cases VmmCall.outcome returned with
  | refused kpmm failed => exact ⟨⟨sound.tables, sound.fits, sound.whole⟩, .inl fun _ => rfl⟩
  | @mapped proc r _ request mapping =>
    obtain ⟨tables, others, regions, -⟩ := mapping.pagesMapped sound.tables (request.fits fits)
    refine ⟨sound.of_regions tables others ?_, .inr ⟨proc, others, .inl ⟨r, request,
      mapping.added sound.tables (request.fits fits)⟩⟩⟩
    intro x member
    rw [regions, List.mem_append, List.mem_singleton] at member
    cases member with
    | inl older => exact .inl older
    | inr newest => exact .inr (newest ▸ ⟨request.fits fits, mapping.whole⟩)
  | @unmapped _ _ proc r _ _ isUnmap unmapping =>
    -- the region was in the table, so it is whole and fits
    obtain ⟨id, -, -, -, found, -⟩ := unmapping.unmapped
    have member : r ∈ (state.procs proc).regions := List.mem_of_getElem? found
    have rFits := sound.fits proc r member
    have whole := sound.whole proc r member
    obtain ⟨tables, others, id, -, regions, -⟩ := unmapping.pagesCleared sound.tables rFits whole
    refine ⟨sound.of_regions tables others ?_, .inr ⟨proc, others, .inr ⟨r,
      unmapping.removed sound.tables rFits whole⟩⟩⟩
    intro x left
    rw [regions] at left
    split at left
    · exact .inl (List.mem_of_mem_eraseIdx left)
    · exact .inl left

end

/-! ## Runs -/

/-- Nothing is mapped, and the page tables to be allocated are distinct. -/
structure VmmState.Fresh (state : VmmState) : Prop where
  regions : ∀ proc, (state.procs proc).regions = []
  pageDir : ∀ proc id, (state.procs proc).pageDir id = .zero
  poolNodup : state.pool.Nodup
  poolNonzero : ∀ table ∈ state.pool, table ≠ 0

theorem VmmState.Fresh.tablesApart {state : VmmState} (fresh : state.Fresh) :
    state.TablesApart := by
  intro proc
  have empty : ∀ id, (state.paging proc).dir id = .zero := fresh.pageDir proc
  refine ⟨?_, ?_, ?_, fresh.poolNodup, ?_⟩
  · simp [empty, KVmmPageDirEntry.zero]
  · simp [empty, KVmmPageDirEntry.zero]
  · simp [empty, KVmmPageDirEntry.zero]
  · intro table allocatable
    have nonzero := fresh.poolNonzero table allocatable
    refine ⟨nonzero, ?_, ?_⟩
    · rintro ⟨-, other, -, id, found⟩
      rw [fresh.pageDir] at found
      exact nonzero found.symm
    · intro id found
      rw [empty] at found
      exact nonzero found.symm

theorem VmmState.oneProcess_fresh : oneProcess.Fresh :=
  ⟨fun _ => rfl, fun _ _ => rfl, by decide, by decide⟩

theorem VmmState.Fresh.sound {state : VmmState} (fresh : state.Fresh) : state.Sound where
  tables := fresh.tablesApart
  fits proc := by simp [fresh.regions proc]
  whole proc := by simp [fresh.regions proc]

/-- A property of address spaces that adding a region preserves where `guard` allows the call, and
that removing one preserves, holds of every process at the end of every run. -/
theorem VmmState.Fresh.spaces_of_run {start state : VmmState} {calls : List VmmCall}
    {guard : VmmState → VmmCall → Prop} (P : AddressSpace → Prop) (fresh : start.Fresh)
    (initial : P ⟨fun _ => .zero, fun _ => .zero, []⟩)
    (added : ∀ {state call proc r space'}, call.fits state → guard state call →
      call.Requests state proc r → (state.space proc).Added r space' → P (state.space proc) →
      P space')
    (removed : ∀ {r space space'}, AddressSpace.Removed r space space' → P space → P space')
    (run : Run (Guarded (fun state call => call.fits state ∧ guard state call) VmmStep)
      start calls state) :
    state.Sound ∧ ∀ proc, P (state.space proc) := by
  refine run.invariant (fun state => state.Sound ∧ ∀ proc, P (state.space proc)) ?_ ?_
  · intro state call state' ⟨sound, holds⟩ ⟨⟨fits, allowed⟩, step⟩
    obtain ⟨sound', effect⟩ := step.refines sound fits
    refine ⟨sound', fun current => ?_⟩
    rcases effect with same | ⟨proc, others, effect⟩
    · rw [same]
      exact holds current
    · by_cases self : current = proc
      · subst self
        rcases effect with ⟨r, request, add⟩ | ⟨r, remove⟩
        · exact added fits allowed request add (holds current)
        · exact removed remove (holds current)
      · rw [others current self]
        exact holds current
  · refine ⟨fresh.sound, fun proc => ?_⟩
    have entry : (start.paging proc).entry = fun _ => .zero := by
      funext m
      apply Paging.entry_of_absent (fresh.tablesApart proc)
      exact congrArg KVmmPageDirEntry.pageTableAddr (fresh.pageDir proc _)
    have dir : (start.procs proc).pageDir = fun _ => .zero := funext (fresh.pageDir proc)
    rw [VmmState.space, dir, entry, fresh.regions]
    exact initial

end Antonix
