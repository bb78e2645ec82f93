import Antonix.MmVirt.AddressSpace

/-! # Address translation across a call

Mapping a region and unmapping it again, described by what the directory of the
process translates before and after. -/

namespace Antonix

open Set Function

section

variable {state : VmmState} {proc : Nat} {paging : Paging}

theorem Paging.translate_congr {paging paging' : Paging} {addr : Nat}
    (same : paging'.entry (addr / pageSize) = paging.entry (addr / pageSize)) :
    paging'.translate addr = paging.translate addr := by
  rw [translate, translate, same]

theorem KVmmRegion.mem_pages_iff {r : KVmmRegion} (aligned : r.virtAddr % pageSize = 0)
    (whole : r.regionSize % pageSize = 0) {addr : Nat} :
    addr / pageSize ∈ r.pages ↔ addr ∈ r.range := by
  simp only [pages, range, mem_Ico, pageSize] at *
  omega

/-- The page of an address inside of the region. -/
theorem KVmmRegion.page_mem {r : KVmmRegion} (aligned : r.virtAddr % pageSize = 0)
    (whole : r.regionSize % pageSize = 0) {k : Nat} (inside : k < r.regionSize) :
    (r.virtAddr + k) / pageSize ∈ r.pages :=
  (KVmmRegion.mem_pages_iff aligned whole).mpr ⟨by omega, by omega⟩

/-- The frame of a page of the region is the one at the same offset. -/
theorem KVmmRegion.frame_eq {r : KVmmRegion} (virtAligned : r.virtAddr % pageSize = 0)
    (physAligned : r.physAddr % pageSize = 0) (physFits : r.physAddr + r.regionSize < 2 ^ 32)
    {k : Nat} (inside : k < r.regionSize) :
    r.frame ((r.virtAddr + k) / pageSize) * pageSize + (r.virtAddr + k) % pageSize =
      r.physAddr + k := by
  simp only [frame, u32, pageSize] at *
  split <;> omega

theorem PagesMapped.translate {r : KVmmRegion} {foreign : Set Nat} {paging' : Paging}
    (mapped : PagesMapped foreign r.fRw r.fUs r.frame r.pages paging paging')
    (virtAligned : r.virtAddr % pageSize = 0) (physAligned : r.physAddr % pageSize = 0)
    (whole : r.regionSize % pageSize = 0) (physFits : r.physAddr + r.regionSize < 2 ^ 32) :
    (∀ k < r.regionSize, paging'.translate (r.virtAddr + k) = some (r.physAddr + k)) ∧
      ∀ addr ∉ r.range, paging'.translate addr = paging.translate addr := by
  constructor
  · intro k inside
    have page := KVmmRegion.page_mem virtAligned whole inside
    rw [Paging.translate, mapped.inside _ page]
    simp only [if_true, KVmmRegion.frame_eq virtAligned physAligned physFits inside]
  · intro addr outside
    apply Paging.translate_congr
    apply mapped.outside
    rwa [KVmmRegion.mem_pages_iff virtAligned whole]

theorem PagesCleared.translate {r : KVmmRegion} {foreign : Set Nat} {paging' : Paging}
    (cleared : PagesCleared foreign r.pages .sOk paging paging')
    (virtAligned : r.virtAddr % pageSize = 0) (whole : r.regionSize % pageSize = 0) :
    (∀ k < r.regionSize, paging'.translate (r.virtAddr + k) = none) ∧
      ∀ addr ∉ r.range, paging'.translate addr = paging.translate addr := by
  constructor
  · intro k inside
    have page := KVmmRegion.page_mem virtAligned whole inside
    rw [Paging.translate]
    simp [cleared.cleared rfl _ page]
  · intro addr outside
    apply Paging.translate_congr
    apply cleared.outside
    rwa [KVmmRegion.mem_pages_iff virtAligned whole]

/-- Unmapping the first region with its address when all its pages have tables. -/
theorem vmmUnmapRegion_found {procDesc : Option Nat} {r : KVmmRegion} {id : Nat}
    (desc : procOfDesc state procDesc = .ok proc)
    (found : (state.procs proc).regions[id]? = some r)
    (first : ∀ x ∈ (state.procs proc).regions.take id, x.virtAddr ≠ r.virtAddr)
    (nonempty : 0 < r.regionSize / pageSize) (whole : r.regionSize % pageSize = 0)
    (unmapped : vmmUnmapPages (u32 (r.virtAddr + r.regionSize)) (r.regionSize / pageSize + 1)
      r.virtAddr (state.paging proc) = .ok (.sOk, paging)) :
    ∃ hr kpmm, vmmUnmapRegion state procDesc r.virtAddr =
        .ok (hr, { state with kpmm }.setProc proc paging
          (if hr = HResult.sOk then (state.procs proc).regions.eraseIdx id
            else (state.procs proc).regions)) ∧
      (hr = .sOk ↔ r.usage &&& usageAutofree = 0 ∨
        (kpmmUnmarkBlocks state.kpmm r.physAddr (r.regionSize / pageSize)).1 = .sOk) := by
  have inside : id < (state.procs proc).regions.length := by
    by_contra beyond
    rw [List.getElem?_eq_none (not_lt.mp beyond)] at found
    contradiction
  have here : (state.procs proc).regions[id] = r := by
    rw [List.getElem?_eq_getElem inside] at found
    exact Option.some.inj found
  have search :
      (state.procs proc).regions.findIdx? (fun x => x.virtAddr = r.virtAddr) = some id := by
    rw [List.findIdx?_eq_some_iff_getElem]
    refine ⟨inside, by simp [here], fun j below => ?_⟩
    have differ := first _ (List.mem_take_iff_getElem.mpr ⟨j, by omega, rfl⟩)
    simpa using differ
  rw [vmmUnmapRegion]
  simp only [desc, search, List.getD_eq_getElem?_getD, found, Option.getD_some]
  rw [if_neg nonempty.ne', unmapped]
  simp only [bind, Except.bind, whole, ne_eq, not_true_eq_false, if_false]
  by_cases autofree : r.usage &&& usageAutofree = 0
  · exact ⟨.sOk, state.kpmm, by simp [autofree], by simp [autofree]⟩
  · simp only [autofree, not_false_eq_true, if_true, false_or]
    cases outcome : kpmmUnmarkBlocks state.kpmm r.physAddr (r.regionSize / pageSize) with
    | mk hr kpmm =>
      refine ⟨hr, kpmm, ?_, by rfl⟩
      cases hr <;> simp

end

end Antonix
