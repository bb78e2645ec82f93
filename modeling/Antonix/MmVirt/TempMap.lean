import Antonix.MmVirt.Disjointness
import Antonix.MmVirt.Frames

/-! # Temporary mappings

`vmm_temp_map_region` tries the start of the temporary area and then the ends of
the regions in its way, in the order of the table.  A window that is free cannot
lie between the address tried and the end of a region in its way, so the search
ends at the lowest free window, or at the bound of the loop when there is none. -/

namespace Antonix

open Set

/-- Regions of whole pages, of which none reaches across `KERNEL_TEMP_START`. -/
structure RegionsPaged (regions : List KVmmRegion) : Prop extends RegionsApart regions where
  aligned : ∀ r ∈ regions, r.virtAddr % pageSize = 0 ∧ r.regionSize % pageSize = 0
  notAcross : ∀ r ∈ regions,
    ¬(r.virtAddr < kernelTempStart ∧ kernelTempStart < r.virtAddr + r.regionSize)

/-- A window for `size` bytes in the temporary area, within the bound of the loop. -/
structure FreeWindow (regions : List KVmmRegion) (size addr : Nat) : Prop where
  above : kernelTempStart ≤ addr
  below : addr + size < 0xFFFFFFFF
  free : ∀ r ∈ regions, Disjoint r.range (Ico addr (addr + size))

/-- The gap between a region and the next one has room for `size` bytes. -/
structure LargeGap (regions : List KVmmRegion) (size : Nat) (r next : KVmmRegion) : Prop where
  member : r ∈ regions
  above : kernelTempStart ≤ r.virtAddr + r.regionSize
  below : r.virtAddr + r.regionSize + size < 0xFFFFFFFF
  room : r.virtAddr + r.regionSize + size ≤ next.virtAddr
  between : ∀ x ∈ regions, x.virtAddr ≤ r.virtAddr ∨ next.virtAddr ≤ x.virtAddr

section

variable {regions : List KVmmRegion} {r next : KVmmRegion} {size addr : Nat}

theorem RegionsPaged.endAddr_aligned (paged : RegionsPaged regions) (member : r ∈ regions) :
    r.endAddr % pageSize = 0 := by
  obtain ⟨start, whole⟩ := paged.aligned r member
  rw [(paged.fits r member).endAddr_eq]
  simp only [pageSize] at *
  omega

/-- The window behind a region is free when the gap there is large enough. -/
theorem LargeGap.window (gap : LargeGap regions size r next) (paged : RegionsPaged regions) :
    FreeWindow regions size (r.virtAddr + r.regionSize) where
  above := gap.above
  below := gap.below
  free x other := by
    have nonempty := paged.nonempty x other
    cases gap.between x other with
    | inl before =>
      by_cases same : r = x
      · rw [← same, disjoint_left]
        exact fun k inside later => absurd inside.2 (Nat.not_lt_of_le later.1)
      · have apart := paged.disjoint_of_ne gap.member other same
        rw [KVmmRegion.range, KVmmRegion.range, Ico_disjoint_Ico] at apart
        have := paged.nonempty r gap.member
        rw [KVmmRegion.range, Ico_disjoint_Ico]
        omega
    | inr after =>
      have room := gap.room
      rw [KVmmRegion.range, Ico_disjoint_Ico]
      omega

/-- No free window starts between an address and the end of a region in its way. -/
theorem FreeWindow.behind {found : Nat} (window : FreeWindow regions size found)
    (paged : RegionsPaged regions) (positive : 0 < size) (member : r ∈ regions)
    (overlaps : r.overlaps addr (u32 (addr + size)) = true) (below : addr + size < 2 ^ 32)
    (later : addr ≤ found) : r.endAddr ≤ found := by
  have nonempty := paged.nonempty r member
  have fits := paged.fits r member
  have free := window.free r member
  rw [KVmmRegion.range, Ico_disjoint_Ico] at free
  rw [KVmmRegion.overlaps, fits.endAddr_eq, u32_of_lt below] at overlaps
  simp only [Bool.or_eq_true, Bool.and_eq_true, decide_eq_true_eq] at overlaps
  rw [fits.endAddr_eq]
  omega

/-- Every address tried is a page further than the one before and not beyond a free window. -/
theorem vmmTempLoop_isLeast (paged : RegionsPaged regions) (positive : 0 < size) :
    ∀ {fuel addr : Nat}, addr % pageSize = 0 → 2 ^ 32 < addr + fuel * pageSize →
      kernelTempStart ≤ addr → addr < 2 ^ 32 → (∀ x ∈ regions, ¬x.Encloses addr size) →
      (∀ found, FreeWindow regions size found → addr ≤ found) →
      (vmmTempLoop regions size fuel addr = .ok none ∧ ∀ found, ¬FreeWindow regions size found) ∨
      ∃ found, vmmTempLoop regions size fuel addr = .ok (some found) ∧
        IsLeast {found | FreeWindow regions size found} found
  | 0, addr, _, enough, _, small, _, _ => by omega
  | fuel + 1, addr, aligned, enough, above, small, notInside, least => by
    rw [vmmTempLoop]
    by_cases below : addr < 0xFFFFFFFF - size
    · have inSpace : addr + size < 2 ^ 32 := by omega
      rw [if_pos below]
      cases search : regions.find? (·.overlaps addr (u32 (addr + size))) with
      | none =>
        -- no region is in the way, and none encloses the window
        refine .inr ⟨addr, rfl, ⟨above, by omega, fun x member => ?_⟩, least⟩
        by_contra intersects
        have overlaps := (KVmmRegion.overlaps_iff (paged.nonempty x member) (paged.fits x member)
          positive inSpace).mpr ⟨intersects, notInside x member⟩
        exact List.find?_eq_none.mp search x member overlaps
      | some r =>
        have member := List.mem_of_find?_eq_some search
        have overlaps := List.find?_some search
        have endAligned := paged.endAddr_aligned member
        have later := KVmmRegion.end_later (paged.nonempty r member) (paged.fits r member)
          overlaps aligned endAligned
        simp only [if_neg (not_not.mpr endAligned)]
        refine vmmTempLoop_isLeast paged positive endAligned ?_ (by omega) (u32_lt _)
          (paged.end_not_enclosed member positive) fun found window =>
            window.behind paged positive member overlaps inSpace (least found window)
        simp only [pageSize] at enough later ⊢
        omega
    · rw [if_neg below]
      refine .inl ⟨rfl, fun found window => ?_⟩
      have := least found window
      have := window.below
      omega

/-- A window that is free is not refused by `vmm_map_region`. -/
theorem FreeWindow.mapped {state state' : VmmState} {proc physAddr usage access : Nat}
    {hr : HResult} (window : FreeWindow (state.procs proc).regions size addr)
    (paged : RegionsPaged (state.procs proc).regions) (positive : 0 < size)
    (returned : vmmMapRegion state (some proc) physAddr addr size usage access =
      .ok (hr, state')) : hr = .sOk := by
  cases vmmMapRegion_cases returned with
  | inl refused =>
    obtain ⟨-, -, overlap⟩ := refused
    obtain ⟨-, -, -, r, member, overlaps⟩ := overlap proc rfl
    have below := window.below
    have tested := (KVmmRegion.overlaps_iff (paged.nonempty r member) (paged.fits r member) positive
      (by omega)).mp overlaps
    exact absurd (window.free r member) tested.1
  | inr accepted => exact accepted.1

end

/-- The search ends.  What it finds is the lowest free window, and it finds one whenever there is
one, in particular when the gap between two consecutive regions is large enough;
`vmm_temp_map_region` succeeds with that window, and fails only if there is none. -/
theorem vmm_temp_map_region_finds_window {state : VmmState} {proc size : Nat}
    (paged : RegionsPaged (state.procs proc).regions) (positive : 0 < size) :
    ∃ place, vmmTempLoop (state.procs proc).regions size (2 ^ 20) kernelTempStart = .ok place ∧
      (∀ addr, place = some addr →
        IsLeast {addr | FreeWindow (state.procs proc).regions size addr} addr) ∧
      ((∃ addr, FreeWindow (state.procs proc).regions size addr) → place ≠ none) ∧
      (∀ r next, LargeGap (state.procs proc).regions size r next → place ≠ none) ∧
      ∀ physAddr hr out state',
        vmmTempMapRegion state (some proc) physAddr size = .ok (hr, out, state') →
          out = place ∧ (hr = .sOk ↔ place ≠ none) := by
  have notInside : ∀ x ∈ (state.procs proc).regions, ¬x.Encloses kernelTempStart size := by
    rintro x member ⟨low, high⟩
    exact paged.notAcross x member ⟨low, by omega⟩
  cases vmmTempLoop_isLeast paged positive (by decide) (by decide : 2 ^ 32 < _ + 2 ^ 20 * pageSize)
      le_rfl (by decide) notInside (fun found window => window.above) with
  | inl ended =>
    obtain ⟨searched, nothing⟩ := ended
    refine ⟨none, searched, by simp, fun window => absurd window.choose_spec (nothing _),
      fun r next gap => absurd (gap.window paged) (nothing _), ?_⟩
    intro physAddr hr out state' returned
    obtain ⟨place, searched', placed⟩ := exists_of_bind returned
    obtain rfl := Except.ok.inj (searched.symm.trans searched')
    obtain ⟨rfl, rfl, -⟩ := eq_of_answered placed
    simp
  | inr found =>
    obtain ⟨addr, searched, least⟩ := found
    refine ⟨some addr, searched, ?_, by simp, by simp, ?_⟩
    · intro addr' same
      rwa [← Option.some.inj same]
    · intro physAddr hr out state' returned
      obtain ⟨place, searched', placed⟩ := exists_of_bind returned
      obtain rfl := Except.ok.inj (searched.symm.trans searched')
      obtain ⟨⟨hr', state''⟩, mapped, answered⟩ := exists_of_bind placed
      obtain ⟨rfl, rfl, -⟩ := eq_of_answered answered
      obtain rfl := least.1.mapped paged positive mapped
      simp [HResult.failed, HResult.succeeded]

/-- Three regions, not in order and a page apart: two pages are found behind the last. -/
theorem vmm_temp_map_region_finds_window_unsorted : ∃ state : VmmState,
    (state.procs 0).regions = [⟨0x500000, 0xFE004000, 0x1000, usageTemp, accessReadWrite⟩,
      ⟨0x501000, 0xFE000000, 0x1000, usageTemp, accessReadWrite⟩,
      ⟨0x502000, 0xFE002000, 0x1000, usageTemp, accessReadWrite⟩] ∧
    IsLeast {addr | FreeWindow (state.procs 0).regions 0x2000 addr} 0xFE005000 := by
  let regions : List KVmmRegion := [⟨0x500000, 0xFE004000, 0x1000, usageTemp, accessReadWrite⟩,
    ⟨0x501000, 0xFE000000, 0x1000, usageTemp, accessReadWrite⟩,
    ⟨0x502000, 0xFE002000, 0x1000, usageTemp, accessReadWrite⟩]
  let state : VmmState :=
    { VmmState.oneProcess with procs := fun _ => ⟨0, regions, fun _ => .zero⟩ }
  have disjoint : regions.Pairwise fun r r' => Disjoint r.range r'.range := by
    simp [regions, KVmmRegion.range, Ico_disjoint_Ico]
  have paged : RegionsPaged regions :=
    ⟨⟨by decide, by unfold KVmmRegion.Fits; decide, disjoint⟩, by decide, by decide⟩
  obtain ⟨place, searched, least, -⟩ :=
    @vmm_temp_map_region_finds_window state 0 0x2000 paged (by decide)
  have found : vmmTempLoop regions 0x2000 (2 ^ 20) kernelTempStart = .ok (some 0xFE005000) := by
    decide +kernel
  obtain rfl := Except.ok.inj (found.symm.trans searched)
  exact ⟨state, rfl, least _ rfl⟩

/-! ## Taking the mapping back -/

section

variable {state state₁ state₂ : VmmState} {proc physAddr size addr : Nat} {hr hr' : HResult}

theorem vmmTempLoop_below {regions : List KVmmRegion} {fuel start found : Nat}
    (searched : vmmTempLoop regions size fuel start = .ok (some found)) :
    found + size < 2 ^ 32 := by
  induction fuel generalizing start with
  | zero => cases searched
  | succ fuel inductionHypothesis =>
    rw [vmmTempLoop] at searched
    split at searched
    · next below =>
      split at searched
      · obtain rfl := Option.some.inj (Except.ok.inj searched)
        omega
      · split at searched
        · cases searched
        · exact inductionHypothesis searched
    · cases searched

theorem vmmTempMapRegion_none
    (returned : vmmTempMapRegion state (some proc) physAddr size = .ok (hr, none, state₁)) :
    hr.failed = true := by
  obtain ⟨place, -, placed⟩ := exists_of_bind returned
  cases place with
  | none =>
    obtain ⟨rfl, -⟩ := eq_of_answered placed
    rfl
  | some addr =>
    obtain ⟨⟨hr', state'⟩, -, answered⟩ := exists_of_bind placed
    obtain ⟨rfl, out, -⟩ := eq_of_answered answered
    by_contra succeeded
    rw [if_neg succeeded] at out
    cases out

/-- The window at `addr` that the search settles for is mapped to the memory at `phys`. -/
structure WindowMapped (state : VmmState) (proc phys size addr : Nat) (state₁ : VmmState) :
    Prop where
  search : vmmTempLoop (state.procs proc).regions size (2 ^ 20) kernelTempStart = .ok (some addr)
  mapping : RegionMapped state proc ⟨phys, addr, size, usageTemp, accessReadWrite⟩ state₁
  kpmm : state₁.kpmm = state.kpmm

theorem vmmTempMapRegion_mapped
    (returned : vmmTempMapRegion state (some proc) physAddr size = .ok (hr, some addr, state₁)) :
    hr = .sOk ∧ WindowMapped state proc physAddr size addr state₁ := by
  obtain ⟨place, searched, placed⟩ := exists_of_bind returned
  cases place with
  | none => cases (eq_of_answered placed).2.1
  | some found =>
    obtain ⟨⟨hr', state'⟩, mapped, answered⟩ := exists_of_bind placed
    obtain ⟨rfl, out, rfl⟩ := eq_of_answered answered
    have succeeded : ¬ hr'.failed = true := by
      intro failed
      rw [if_pos failed] at out
      cases out
    rw [if_neg succeeded, Option.some.injEq] at out
    subst out
    obtain rfl := HResult.eq_sOk (vmmMapRegion_ne_sFalse mapped) succeeded
    obtain ⟨-, proc', desc, mapping⟩ := (vmmMapRegion_cases mapped).resolve_left (by simp)
    obtain rfl : proc = proc' := Except.ok.inj desc
    exact ⟨rfl, searched, mapping, vmmMapRegion_kpmm mapped⟩

/-- A temporary mapping is the last region of the process, and there is no other at its
address. -/
theorem vmmTempMapRegion_some (positive : 0 < size)
    (returned : vmmTempMapRegion state (some proc) physAddr size = .ok (hr, some addr, state₁)) :
    ∃ r, r.virtAddr = addr ∧ (state₁.procs proc).regions = (state.procs proc).regions ++ [r] ∧
      (∀ p, p ≠ proc → state₁.procs p = state.procs p) ∧
      (∀ x ∈ (state.procs proc).regions, x.virtAddr ≠ addr) ∧ r.usage = usageTemp ∧
      state₁.kpmm = state.kpmm := by
  obtain ⟨-, searched, mapping, kept⟩ := vmmTempMapRegion_mapped returned
  obtain ⟨kpmm, paging, -, rfl⟩ := mapping.mapped
  refine ⟨_, rfl, VmmState.setProc_regions_self _ _ _, ?_, ?_, rfl, kept⟩
  · exact fun p other => VmmState.setProc_procs_of_ne _ _ _ other
  · intro x member same
    have below := vmmTempLoop_below searched
    have missed := mapping.apart x member
    rw [KVmmRegion.overlaps, same, u32_of_lt below] at missed
    simp only [Bool.or_eq_false_iff, Bool.and_eq_false_iff, decide_eq_false_iff_not] at missed
    omega

/-- What was mapped temporarily and unmapped again leaves all regions and the bitmap as they
were. -/
theorem vmmTempMapRegion_undone (positive : 0 < size)
    (mapped : vmmTempMapRegion state (some proc) physAddr size = .ok (hr, some addr, state₁))
    (unmapped : vmmUnmapRegion state₁ (some proc) addr = .ok (.sOk, state₂)) :
    (∀ p, (state₂.procs p).regions = (state.procs p).regions) ∧ state₂.kpmm = state.kpmm := by
  obtain ⟨r, rfl, regions, others, only, temporary, kept⟩ := vmmTempMapRegion_some positive mapped
  obtain ⟨restored, others', released⟩ := vmmUnmapRegion_first regions only unmapped
  rw [List.append_nil] at restored
  rw [FramesReleased, temporary, if_neg (by decide)] at released
  refine ⟨fun p => ?_, released.trans kept⟩
  by_cases here : p = proc
  · rw [here, restored]
  · rw [others' p here, others p here]

end

end Antonix
