import Antonix.Lib.Transition
import Antonix.MmVirt.Regions
import Mathlib.Data.List.Pairwise
import Mathlib.Order.CompletePartialOrder
import Mathlib.Order.Interval.Set.Disjoint

/-! # When the regions of a process are disjoint

The overlap test looks at where the two ends of a recorded region fall, so it
misses a request that lies strictly inside one.  Every other intersection is
found, and as long as no request is of the missed kind the regions of every
process stay disjoint. -/

namespace Antonix

open Set Transition

/-- The range lies inside the region and reaches neither of its ends. -/
def KVmmRegion.Encloses (r : KVmmRegion) (start size : Nat) : Prop :=
  r.virtAddr < start ∧ start + size < r.virtAddr + r.regionSize

/-- The regions are not empty, do not wrap and have no address in common. -/
structure RegionsApart (regions : List KVmmRegion) : Prop where
  nonempty : ∀ r ∈ regions, 0 < r.regionSize
  fits : ∀ r ∈ regions, r.Fits
  disjoint : regions.Pairwise fun r r' => Disjoint r.range r'.range

section

variable {regions : List KVmmRegion} {r r' : KVmmRegion} {start size : Nat}

theorem KVmmRegion.Fits.endAddr_eq (fits : r.Fits) : r.endAddr = r.virtAddr + r.regionSize :=
  u32_of_lt fits

/-- The test finds every intersection but one kind. -/
theorem KVmmRegion.overlaps_iff (nonempty : 0 < r.regionSize) (fits : r.Fits) (positive : 0 < size)
    (small : start + size < 2 ^ 32) :
    r.overlaps start (u32 (start + size)) = true ↔
      ¬Disjoint r.range (Ico start (start + size)) ∧ ¬r.Encloses start size := by
  rw [overlaps, fits.endAddr_eq, u32_of_lt small, range, Ico_disjoint_Ico, Encloses]
  simp only [Bool.or_eq_true, Bool.and_eq_true, decide_eq_true_eq]
  omega

theorem RegionsApart.disjoint_of_ne (apart : RegionsApart regions) (left : r ∈ regions)
    (right : r' ∈ regions) (differ : r ≠ r') : Disjoint r.range r'.range := by
  refine List.Pairwise.forall_of_forall_of_flip
    (R := fun r r' => r ≠ r' → Disjoint r.range r'.range) ?_ ?_ ?_ left right differ
  · exact fun _ _ same => absurd rfl same
  · exact apart.disjoint.imp fun {a b} disjoint (_ : a ≠ b) => disjoint
  · exact apart.disjoint.imp fun {a b} disjoint (_ : b ≠ a) => disjoint.symm

theorem RegionsApart.append (apart : RegionsApart regions) (nonempty : 0 < r.regionSize)
    (fits : r.Fits)
    (found : ∀ x ∈ regions, x.overlaps r.virtAddr (u32 (r.virtAddr + r.regionSize)) = false)
    (notInside : ∀ x ∈ regions, ¬x.Encloses r.virtAddr r.regionSize) :
    RegionsApart (regions ++ [r]) where
  nonempty x member := by
    cases List.mem_append.mp member with
    | inl older => exact apart.nonempty x older
    | inr newest => rwa [List.mem_singleton.mp newest]
  fits x member := by
    cases List.mem_append.mp member with
    | inl older => exact apart.fits x older
    | inr newest => rwa [List.mem_singleton.mp newest]
  disjoint := by
    refine List.pairwise_append.mpr ⟨apart.disjoint, List.pairwise_singleton _ _, ?_⟩
    intro x older y newest
    rw [List.mem_singleton.mp newest]
    by_contra intersects
    have tested := (KVmmRegion.overlaps_iff (apart.nonempty x older) (apart.fits x older) nonempty
      fits).mpr ⟨intersects, notInside x older⟩
    rw [found x older] at tested
    contradiction

theorem RegionsApart.sublist {fewer : List KVmmRegion} (apart : RegionsApart regions)
    (sub : fewer.Sublist regions) : RegionsApart fewer where
  nonempty x member := apart.nonempty x (sub.subset member)
  fits x member := apart.fits x (sub.subset member)
  disjoint := apart.disjoint.sublist sub

/-- The addresses that `vmm_temp_map_region` tries after the first are ends of regions, and
no region reaches across the end of another. -/
theorem RegionsApart.end_not_enclosed (apart : RegionsApart regions) (member : r ∈ regions)
    (positive : 0 < size) : ∀ x ∈ regions, ¬x.Encloses r.endAddr size := by
  intro x other encloses
  have nonempty := apart.nonempty r member
  rw [(apart.fits r member).endAddr_eq, KVmmRegion.Encloses] at encloses
  have differ : r ≠ x := by
    rintro rfl
    omega
  -- the last address of `r` would lie in `x`
  have inR : r.virtAddr + r.regionSize - 1 ∈ r.range := ⟨by omega, by omega⟩
  have inX : r.virtAddr + r.regionSize - 1 ∈ x.range := ⟨by omega, by omega⟩
  exact disjoint_left.mp (apart.disjoint_of_ne member other differ) inR inX

/-- The end of a region that overlaps the range tried is a later page. -/
theorem KVmmRegion.end_later {stop : Nat} (nonempty : 0 < r.regionSize) (fits : r.Fits)
    (overlaps : r.overlaps start stop = true) (aligned : start % pageSize = 0)
    (endAligned : r.endAddr % pageSize = 0) : start + pageSize ≤ r.endAddr := by
  rw [fits.endAddr_eq] at endAligned ⊢
  rw [KVmmRegion.overlaps, fits.endAddr_eq] at overlaps
  simp only [Bool.or_eq_true, Bool.and_eq_true, decide_eq_true_eq] at overlaps
  simp only [pageSize] at aligned endAligned ⊢
  omega

theorem vmmTempLoop_spec (apart : RegionsApart regions) (positive : 0 < size) :
    ∀ {fuel addr found : Nat}, (∀ x ∈ regions, ¬x.Encloses addr size) →
      vmmTempLoop regions size fuel addr = .ok (some found) →
      found + size < 2 ^ 32 ∧ ∀ x ∈ regions, ¬x.Encloses found size
  | 0, addr, found, _, searched => by simp [vmmTempLoop] at searched
  | fuel + 1, addr, found, notInside, searched => by
    rw [vmmTempLoop] at searched
    split at searched
    · rename_i below
      split at searched
      · simp only [Except.ok.injEq, Option.some.injEq] at searched
        subst searched
        exact ⟨by omega, notInside⟩
      · rename_i r taken
        have member := List.mem_of_find?_eq_some taken
        split at searched
        · contradiction
        · exact vmmTempLoop_spec apart positive (apart.end_not_enclosed member positive) searched
    · simp at searched

end

/-! ## Calls -/

/-- Addresses are page aligned, sizes are not 0 and ranges do not wrap. -/
def VmmCall.wellFormed (state : VmmState) : VmmCall → Prop
  | .mapRegion _ _ virtAddr size _ _ | .allocAndMap _ virtAddr size _ _ =>
    virtAddr % pageSize = 0 ∧ 0 < size ∧ virtAddr + size < 2 ^ 32
  | .unmapRegion _ virtAddr => virtAddr % pageSize = 0
  | .createHeap _ size _ => 0 < size ∧ ∀ virtAddr, vmmGetAddressSpaceEndKs state = .ok virtAddr →
      virtAddr % pageSize = 0 ∧ virtAddr + size < 2 ^ 32
  | .tempMapRegion _ _ regionSize => 0 < regionSize

/-- No region of the process encloses the range asked for; for `tempMapRegion`, which looks
for an address, the range at the first address tried. -/
def VmmCall.notEnclosed (state : VmmState) : VmmCall → Prop
  | .mapRegion procDesc _ virtAddr size _ _ | .allocAndMap procDesc virtAddr size _ _ =>
    ∀ proc, procOfDesc state procDesc = .ok proc →
      ∀ r ∈ (state.procs proc).regions, ¬r.Encloses virtAddr size
  | .unmapRegion _ _ => True
  | .createHeap pid size _ => ∀ proc virtAddr, schedFindProcess state pid = .ok proc →
      vmmGetAddressSpaceEndKs state = .ok virtAddr →
      ∀ r ∈ (state.procs proc).regions, ¬r.Encloses virtAddr size
  | .tempMapRegion procDesc _ regionSize => ∀ proc, procDesc = some proc →
      ∀ r ∈ (state.procs proc).regions, ¬r.Encloses kernelTempStart regionSize

section

variable {state state' : VmmState} {call : VmmCall} {proc : Nat} {r : KVmmRegion}

theorem VmmCall.Requests.notEnclosed (request : call.Requests state proc r)
    (wellFormed : call.wellFormed state) (notEnclosed : call.notEnclosed state)
    (apart : RegionsApart (state.procs proc).regions) :
    0 < r.regionSize ∧ r.Fits ∧
      ∀ x ∈ (state.procs proc).regions, ¬x.Encloses r.virtAddr r.regionSize := by
  cases request with
  | mapRegion desc => exact ⟨wellFormed.2.1, wellFormed.2.2, notEnclosed _ desc⟩
  | allocAndMap desc => exact ⟨wellFormed.2.1, wellFormed.2.2, notEnclosed _ desc⟩
  | createHeap found endKs =>
    exact ⟨wellFormed.1, (wellFormed.2 _ endKs).2, notEnclosed _ _ found endKs⟩
  | tempMapRegion searched =>
    exact ⟨wellFormed, vmmTempLoop_spec apart wellFormed (notEnclosed _ rfl) searched⟩

theorem VmmStep.regionsApart (step : VmmStep state call state')
    (wellFormed : call.wellFormed state) (notEnclosed : call.notEnclosed state)
    (apart : ∀ proc, RegionsApart (state.procs proc).regions) (other : Nat) :
    RegionsApart (state'.procs other).regions := by
  obtain ⟨hr, returned⟩ := step
  cases VmmCall.outcome returned with
  | refused kpmm failed => exact apart other
  | @mapped proc r _ request mapping =>
    obtain ⟨nonempty, fits, notInside⟩ := request.notEnclosed wellFormed notEnclosed (apart proc)
    obtain ⟨kpmm, paging, -, rfl⟩ := mapping.mapped
    by_cases here : other = proc
    · subst here
      rw [VmmState.setProc_regions_self]
      exact (apart other).append nonempty fits mapping.apart notInside
    · rw [VmmState.setProc_procs_of_ne _ _ _ here]
      exact apart other
  | @unmapped _ _ proc r _ _ isUnmap unmapping =>
    -- the regions that are left were apart before
    obtain ⟨id, kpmm, hr', paging, -, -, -, -, rfl⟩ := unmapping.unmapped
    by_cases here : other = proc
    · subst here
      rw [VmmState.setProc_regions_self]
      refine (apart other).sublist ?_
      split
      · exact List.eraseIdx_sublist _ _
      · exact List.Sublist.refl _
    · rw [VmmState.setProc_procs_of_ne _ _ _ here]
      exact apart other

end

/-- As long as no request lies strictly inside a region, the regions of every process are
disjoint.  In the states so reached, the requests that intersect a region are rejected exactly
when they are not of that kind. -/
theorem vmm_regions_disjoint {start state : VmmState} {calls : List VmmCall}
    (fresh : ∀ proc, (start.procs proc).regions = [])
    (run : Run (Guarded (fun state call => call.wellFormed state ∧ call.notEnclosed state) VmmStep)
      start calls state) :
    (∀ proc, (state.procs proc).regions.Pairwise fun r r' => Disjoint r.range r'.range)
    ∧ ∀ procDesc proc physAddr virtAddr size usage access hr state',
        procOfDesc state procDesc = .ok proc → virtAddr % pageSize = 0 → 0 < size →
        virtAddr + size < 2 ^ 32 →
        vmmMapRegion state procDesc physAddr virtAddr size usage access = .ok (hr, state') →
        (((∃ r ∈ (state.procs proc).regions, ¬Disjoint r.range (Ico virtAddr (virtAddr + size))) →
            hr = .eFail) ↔
          ∀ r ∈ (state.procs proc).regions, ¬r.Encloses virtAddr size) := by
  have apart : ∀ proc, RegionsApart (state.procs proc).regions := by
    refine run.invariant (fun state => ∀ proc, RegionsApart (state.procs proc).regions) ?_ ?_
    · intro state call state' apart ⟨⟨wellFormed, notEnclosed⟩, step⟩
      exact step.regionsApart wellFormed notEnclosed apart
    · intro proc
      rw [fresh proc]
      exact ⟨by simp, by simp, .nil⟩
  refine ⟨fun proc => (apart proc).disjoint, ?_⟩
  intro procDesc proc physAddr virtAddr size usage access hr state' desc _ positive small returned
  have tested : ∀ r ∈ (state.procs proc).regions,
      (r.overlaps virtAddr (u32 (virtAddr + size)) = true ↔
        ¬Disjoint r.range (Ico virtAddr (virtAddr + size)) ∧ ¬r.Encloses virtAddr size) :=
    fun r member => KVmmRegion.overlaps_iff ((apart proc).nonempty r member)
      ((apart proc).fits r member) positive small
  cases vmmMapRegion_cases returned with
  | inl refused =>
    -- a refused request has failed the test for some region
    obtain ⟨-, -, overlap⟩ := refused
    obtain ⟨rejected, -, -, r, member, overlaps⟩ := overlap proc desc
    obtain ⟨intersects, notInside⟩ := (tested r member).mp overlaps
    refine iff_of_true (fun _ => rejected) fun x other encloses => intersects ?_
    have differ : r ≠ x := fun same => notInside (same ▸ encloses)
    refine (apart proc).disjoint_of_ne member other differ |>.mono_right ?_
    exact Ico_subset_Ico encloses.1.le encloses.2.le
  | inr accepted =>
    obtain ⟨rfl, proc', desc', mapping⟩ := accepted
    obtain rfl : proc = proc' := by simpa [desc] using desc'
    constructor
    · intro rejected r member encloses
      have intersects : ¬Disjoint r.range (Ico virtAddr (virtAddr + size)) := by
        rw [KVmmRegion.range, Ico_disjoint_Ico]
        obtain ⟨low, high⟩ := encloses
        omega
      simpa using rejected ⟨r, member, intersects⟩
    · rintro notInside ⟨r, member, intersects⟩
      have found := (tested r member).mpr ⟨intersects, notInside r member⟩
      rw [mapping.apart r member] at found
      contradiction

/-- Two regions side by side, and the first of them unmapped. -/
theorem vmm_regions_disjoint_map_unmap :
    ∃ state : VmmState,
      (state.procs 0).regions = [⟨0x501000, 0x102000, 0x1000, usageUser, accessRead⟩] ∧
      (state.procs 0).regions.Pairwise fun r r' => Disjoint r.range r'.range := by
  have steps : ∃ state₁ state₂ state₃,
      vmmMapRegion .oneProcess (some 0) 0x500000 0x100000 0x2000 usageUser accessReadWrite =
        .ok (.sOk, state₁) ∧
      vmmMapRegion state₁ (some 0) 0x501000 0x102000 0x1000 usageUser accessRead =
        .ok (.sOk, state₂) ∧
      vmmUnmapRegion state₂ (some 0) 0x100000 = .ok (.sOk, state₃) ∧
      (state₁.procs 0).regions = [⟨0x500000, 0x100000, 0x2000, usageUser, accessReadWrite⟩] ∧
      (state₃.procs 0).regions = [⟨0x501000, 0x102000, 0x1000, usageUser, accessRead⟩] :=
    ⟨_, _, _, by rfl, by rfl, by rfl, by rfl, by rfl⟩
  obtain ⟨state₁, state₂, state₃, first, second, third, regions₁, regions₃⟩ := steps
  have notEnclosed₂ : VmmCall.notEnclosed state₁
      (.mapRegion (some 0) 0x501000 0x102000 0x1000 usageUser accessRead) := by
    intro proc desc
    obtain rfl : 0 = proc := by simpa [procOfDesc] using desc
    rw [regions₁]
    simp [KVmmRegion.Encloses]
  have run : Run
      (Guarded (fun state call => call.wellFormed state ∧ call.notEnclosed state) VmmStep)
      .oneProcess
      [.mapRegion (some 0) 0x500000 0x100000 0x2000 usageUser accessReadWrite,
        .mapRegion (some 0) 0x501000 0x102000 0x1000 usageUser accessRead,
        .unmapRegion (some 0) 0x100000] state₃ :=
    .cons ⟨⟨⟨by decide, by decide, by decide⟩, by simp [VmmCall.notEnclosed, VmmState.oneProcess]⟩,
        .sOk, first⟩
      (.cons ⟨⟨⟨by decide, by decide, by decide⟩, notEnclosed₂⟩, .sOk, second⟩
        (.single ⟨⟨show 0x100000 % pageSize = 0 by decide, trivial⟩, .sOk, third⟩))
  exact ⟨state₃, regions₃, (vmm_regions_disjoint (fun _ => rfl) run).1 0⟩

/-- A request strictly inside a region is accepted. -/
theorem vmm_regions_not_disjoint :
    ∃ state : VmmState,
      Run (Guarded (fun state call => call.wellFormed state) VmmStep) .oneProcess
        [.mapRegion none 0x500000 0x100000 0x4000 usageUser accessReadWrite,
          .mapRegion none 0x600000 0x101000 0x1000 usageUser accessReadWrite] state ∧
      ¬(state.procs 0).regions.Pairwise fun r r' => Disjoint r.range r'.range := by
  have steps : ∃ state state',
      vmmMapRegion .oneProcess none 0x500000 0x100000 0x4000 usageUser accessReadWrite =
        .ok (.sOk, state) ∧
      vmmMapRegion state none 0x600000 0x101000 0x1000 usageUser accessReadWrite =
        .ok (.sOk, state') ∧
      (state'.procs 0).regions = [⟨0x500000, 0x100000, 0x4000, usageUser, accessReadWrite⟩,
        ⟨0x600000, 0x101000, 0x1000, usageUser, accessReadWrite⟩] := ⟨_, _, by rfl, by rfl, by rfl⟩
  obtain ⟨state, state', first, second, regions⟩ := steps
  refine ⟨state', .cons ⟨⟨by decide, by decide, by decide⟩, .sOk, first⟩
    (.single ⟨⟨by decide, by decide, by decide⟩, .sOk, second⟩), fun disjoint => ?_⟩
  rw [regions] at disjoint
  have shared := (List.pairwise_cons.mp disjoint).1 _ (List.mem_singleton_self _)
  have inner : 0x101000 ∈ KVmmRegion.range
      ⟨0x600000, 0x101000, 0x1000, usageUser, accessReadWrite⟩ := ⟨by decide, by decide⟩
  exact disjoint_left.mp shared ⟨by decide, by decide⟩ inner

end Antonix
