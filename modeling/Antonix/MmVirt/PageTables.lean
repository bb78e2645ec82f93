import Antonix.MmVirt.Mapping
import Mathlib.Data.Finset.Card
import Mathlib.Data.Finset.Image
import Mathlib.Order.Interval.Finset.Nat

/-! # Page tables for a mapping

Mapping pages takes one page table from the allocator for each slot of the
directory that has none.  Pages are counted in 32 bits, so that a region may run
around the end of the address space. -/

namespace Antonix

open Set Function

/-- The directory slots of `pageCnt` pages from an address on. -/
def tableSlots (virt pageCnt : Nat) : Finset Nat :=
  (Finset.range pageCnt).image fun i => pageAt virt i / 1024

/-- Those of them that have no page table yet. -/
def Paging.missing (paging : Paging) (virt pageCnt : Nat) : Finset Nat :=
  (tableSlots virt pageCnt).filter fun id => (paging.dir id).pageTableAddr = 0

section

variable {paging paging' : Paging} {virt pageCnt phys : Nat} {fRw fUs : Bool}

theorem mem_tableSlots {id : Nat} :
    id ∈ tableSlots virt pageCnt ↔ ∃ m ∈ pagesFrom virt pageCnt, m / 1024 = id := by
  simp only [tableSlots, Finset.mem_image, Finset.mem_range, pagesFrom, mem_ofPred_eq]
  constructor
  · rintro ⟨i, below, rfl⟩
    exact ⟨_, ⟨i, below, rfl⟩, rfl⟩
  · rintro ⟨m, ⟨i, below, rfl⟩, rfl⟩
    exact ⟨i, below, rfl⟩

theorem tableSlots_succ (small : virt < 2 ^ 32) (pageCnt : Nat) :
    tableSlots virt (pageCnt + 1) =
      insert (virt / pageSize / 1024) (tableSlots (u32 (virt + pageSize)) pageCnt) := by
  ext id
  rw [Finset.mem_insert, mem_tableSlots, mem_tableSlots, pagesFrom_succ small]
  simp only [singleton_union, mem_insert_iff, exists_eq_or_imp, eq_comm]

/-- Once the slot of the first page has its table, only those of the other pages are missing. -/
theorem Paging.card_missing_succ (small : virt < 2 ^ 32)
    (here : (paging'.dir (virt / pageSize / 1024)).pageTableAddr ≠ 0)
    (others : ∀ other, other ≠ virt / pageSize / 1024 → paging'.dir other = paging.dir other) :
    (paging.missing virt (pageCnt + 1)).card =
      (paging'.missing (u32 (virt + pageSize)) pageCnt).card +
        if (paging.dir (virt / pageSize / 1024)).pageTableAddr = 0 then 1 else 0 := by
  have later : paging'.missing (u32 (virt + pageSize)) pageCnt =
      (paging.missing (u32 (virt + pageSize)) pageCnt).erase (virt / pageSize / 1024) := by
    ext id
    rw [missing, missing, Finset.mem_erase, Finset.mem_filter, Finset.mem_filter]
    by_cases slot : id = virt / pageSize / 1024
    · simp [slot, here]
    · simp [slot, others id slot]
  rw [later]
  by_cases absent : (paging.dir (virt / pageSize / 1024)).pageTableAddr = 0
  · rw [if_pos absent, missing, tableSlots_succ small, Finset.filter_insert, if_pos absent,
      ← Finset.erase_insert_eq_erase]
    exact (Finset.card_erase_add_one (Finset.mem_insert_self _ _)).symm
  · rw [if_neg absent, missing, tableSlots_succ small, Finset.filter_insert, if_neg absent,
      Finset.erase_eq_of_notMem, Nat.add_zero, missing]
    simp [missing, absent]

/-- The mapping loop ends if and only if there is a page table for every slot that misses one, and
takes as many. -/
theorem vmmMapPages_outcome (fRw fUs : Bool) (small : virt < 2 ^ 32)
    (nonzero : ∀ table ∈ paging.pool, table ≠ 0) :
    if (paging.missing virt pageCnt).card ≤ paging.pool.length then
      ∃ paging', vmmMapPages fRw fUs pageCnt phys virt paging = .ok paging' ∧
        paging'.pool.length + (paging.missing virt pageCnt).card = paging.pool.length
    else ∃ halt, vmmMapPages fRw fUs pageCnt phys virt paging = .error halt := by
  induction pageCnt generalizing virt phys paging with
  | zero =>
    rw [if_pos (by simp [Paging.missing, tableSlots])]
    exact ⟨paging, rfl, by simp [Paging.missing, tableSlots]⟩
  | succ pageCnt inductionHypothesis =>
    by_cases stuck : (paging.dir (virt / pageSize / 1024)).pageTableAddr = 0 ∧ paging.pool = []
    · -- no table is left for the first page
      have member : virt / pageSize / 1024 ∈ paging.missing virt (pageCnt + 1) := by
        rw [Paging.missing, Finset.mem_filter, tableSlots_succ small]
        exact ⟨Finset.mem_insert_self _ _, stuck.1⟩
      have positive := Finset.card_pos.mpr ⟨_, member⟩
      rw [stuck.2, List.length_nil, if_neg (by omega), vmmMapPages]
      exact ⟨.stuck, by simp [fetchPageTable, stuck, bind, Except.bind]⟩
    · obtain ⟨table, paging₁, fetched, suffix, here, others, length⟩ :=
        @fetchPageTable_autoCreate paging fRw fUs (virt / pageSize / 1024) nonzero
          fun absent empty => stuck ⟨absent, empty⟩
      have nonzero₁ : ∀ table ∈ paging₁.pool, table ≠ 0 := fun table member =>
        nonzero table (suffix.subset member)
      rw [Paging.card_missing_succ small here others, length, vmmMapPages, fetched]
      simp only [bind, Except.bind]
      have rest := @inductionHypothesis
        (paging₁.setEntry table (virt / 0x1000 % 1024) ⟨true, fRw, fUs, phys / 0x1000⟩)
        (u32 (virt + pageSize)) (u32 (phys + pageSize)) (u32_lt _) nonzero₁
      have same : (paging₁.setEntry table (virt / 0x1000 % 1024)
          ⟨true, fRw, fUs, phys / 0x1000⟩).missing (u32 (virt + pageSize)) pageCnt =
          paging₁.missing (u32 (virt + pageSize)) pageCnt := rfl
      rw [same] at rest
      have pool : (paging₁.setEntry table (virt / 0x1000 % 1024)
          ⟨true, fRw, fUs, phys / 0x1000⟩).pool = paging₁.pool := rfl
      rw [pool] at rest
      by_cases enough : (paging₁.missing (u32 (virt + pageSize)) pageCnt).card ≤ paging₁.pool.length
      · rw [if_pos enough] at rest
        obtain ⟨paging₂, mapped, taken⟩ := rest
        rw [if_pos (by omega)]
        exact ⟨paging₂, mapped, by omega⟩
      · rw [if_neg enough] at rest
        rw [if_neg (by omega)]
        exact rest

/-- Pages that do not run around the end need few tables. -/
theorem Paging.card_missing_le (paging : Paging) (fits : virt + pageCnt * pageSize ≤ 2 ^ 32) :
    (paging.missing virt pageCnt).card ≤ pageCnt / 1024 + 2 := by
  have inside : paging.missing virt pageCnt ⊆
      Finset.Ico (virt / pageSize / 1024) (virt / pageSize / 1024 + (pageCnt / 1024 + 2)) := by
    intro id member
    rw [missing, Finset.mem_filter, mem_tableSlots, pagesFrom_of_fits fits] at member
    obtain ⟨⟨m, inside, rfl⟩, -⟩ := member
    rw [mem_Ico] at inside
    rw [Finset.mem_Ico]
    omega
  calc (paging.missing virt pageCnt).card
      ≤ (Finset.Ico (virt / pageSize / 1024)
          (virt / pageSize / 1024 + (pageCnt / 1024 + 2))).card := Finset.card_le_card inside
    _ = pageCnt / 1024 + 2 := by rw [Nat.card_Ico]; omega

end

/-! ## Regions that run around the end -/

namespace KVmmRegion

/-- The pages that mapping the region sets. -/
def pageSet (r : KVmmRegion) : Set Nat := pagesFrom r.virtAddr (r.regionSize / pageSize)

/-- The frame that a page of it is mapped to. -/
def pageFrame (r : KVmmRegion) (m : Nat) : Nat :=
  pageAt r.physAddr ((m + 2 ^ 20 - r.virtAddr / pageSize) % 2 ^ 20)

variable {r : KVmmRegion}

theorem pageFrame_pageAt {i : Nat} (virtSmall : r.virtAddr < 2 ^ 32) (small : i < 2 ^ 20) :
    r.pageFrame (pageAt r.virtAddr i) = pageAt r.physAddr i := by
  have offset : (pageAt r.virtAddr i + 2 ^ 20 - r.virtAddr / pageSize) % 2 ^ 20 = i := by
    simp only [pageAt, u32, pageSize]
    omega
  rw [pageFrame, offset]

/-- The page of an address of the region, which may have wrapped. -/
theorem page_eq {k : Nat} (aligned : r.virtAddr % pageSize = 0) :
    u32 (r.virtAddr + k) / pageSize = pageAt r.virtAddr (k / pageSize) := by
  simp only [pageAt, u32, pageSize] at *
  omega

theorem page_mem_pageSet {k : Nat} (aligned : r.virtAddr % pageSize = 0)
    (whole : r.regionSize % pageSize = 0) (inside : k < r.regionSize) :
    u32 (r.virtAddr + k) / pageSize ∈ r.pageSet := by
  refine ⟨k / pageSize, ?_, page_eq aligned⟩
  simp only [pageSize] at *
  omega

end KVmmRegion

section

variable {state state' : VmmState} {proc : Nat} {r : KVmmRegion}

/-- A region has been mapped, wherever it is. -/
theorem RegionMapped.setsPages (mapping : RegionMapped state proc r state')
    (apart : state.TablesApart) (virtSmall : r.virtAddr < 2 ^ 32) (physSmall : r.physAddr < 2 ^ 32)
    (sizeSmall : r.regionSize < 2 ^ 32) :
    state'.TablesApart ∧ OthersUnchanged state proc state' ∧
      (state'.procs proc).regions = (state.procs proc).regions ++ [r] ∧
      PagesMapped (state.foreign proc) r.fRw r.fUs r.pageFrame r.pageSet (state.paging proc)
        (state'.paging proc) := by
  obtain ⟨kpmm, paging, mapped, rfl⟩ := mapping.mapped
  have frames : ∀ i < r.regionSize / pageSize, r.pageFrame (pageAt r.virtAddr i) =
      (if i = 0 then r.physAddr else u32 (r.physAddr + i * pageSize)) / pageSize := by
    intro i below
    have small : i < 2 ^ 20 := by
      simp only [pageSize] at below
      omega
    rw [KVmmRegion.pageFrame_pageAt virtSmall small]
    by_cases first : i = 0
    · rw [if_pos first, first, pageAt_zero physSmall]
    · rw [if_neg first, pageAt]
  have pages := vmmMapPages_pages (apart proc) virtSmall frames mapped
  have kpmmApart : VmmState.TablesApart { state with kpmm } := apart
  refine ⟨kpmmApart.setProc pages.sound, .setProc kpmmApart pages.foreign, by simp, ?_⟩
  rw [VmmState.setProc_paging_self]
  exact pages

theorem PagesMapped.translate_pageSet {foreign : Set Nat} {paging paging' : Paging}
    (mapped : PagesMapped foreign r.fRw r.fUs r.pageFrame r.pageSet paging paging')
    (virtSmall : r.virtAddr < 2 ^ 32) (virtAligned : r.virtAddr % pageSize = 0)
    (physAligned : r.physAddr % pageSize = 0) (whole : r.regionSize % pageSize = 0)
    (physFits : r.physAddr + r.regionSize ≤ 2 ^ 32) {k : Nat} (inside : k < r.regionSize)
    (sizeSmall : r.regionSize < 2 ^ 32) :
    paging'.translate (u32 (r.virtAddr + k)) = some (r.physAddr + k) := by
  have small : k / pageSize < 2 ^ 20 := by
    simp only [pageSize]
    omega
  have frame : r.pageFrame (u32 (r.virtAddr + k) / pageSize) = (r.physAddr + k) / pageSize := by
    rw [KVmmRegion.page_eq virtAligned, KVmmRegion.pageFrame_pageAt virtSmall small]
    simp only [pageAt, u32, pageSize] at *
    omega
  have offset : (r.physAddr + k) / pageSize * pageSize + u32 (r.virtAddr + k) % pageSize =
      r.physAddr + k := by
    simp only [u32, pageSize] at *
    omega
  rw [Paging.translate, mapped.inside _ (KVmmRegion.page_mem_pageSet virtAligned whole inside),
    frame]
  simp only [if_true, offset]

/-- Mapping a region takes the page tables that are missing. -/
theorem RegionMapped.pool (mapping : RegionMapped state proc r state')
    (apart : state.TablesApart) (virtSmall : r.virtAddr < 2 ^ 32) :
    state'.pool.length +
        ((state.paging proc).missing r.virtAddr (r.regionSize / pageSize)).card =
      state.pool.length := by
  obtain ⟨kpmm, paging, mapped, rfl⟩ := mapping.mapped
  have nonzero : ∀ table ∈ (state.paging proc).pool, table ≠ 0 := fun table member =>
    ((apart proc).poolFresh table member).1
  have outcome := @vmmMapPages_outcome (state.paging proc) r.virtAddr (r.regionSize / pageSize)
    r.physAddr r.fRw r.fUs virtSmall nonzero
  split at outcome
  · obtain ⟨paging', mapped', taken⟩ := outcome
    obtain rfl := Except.ok.inj (mapped.symm.trans mapped')
    exact taken
  · obtain ⟨halt, stuck⟩ := outcome
    cases mapped.symm.trans stuck

/-- A region is mapped when the table has room for it, it overlaps no other, and there are page
tables enough. -/
theorem vmmMapRegion_maps (apart : state.TablesApart) (virtSmall : r.virtAddr < 2 ^ 32)
    (few : (state.procs proc).regions.length ≠ maxVmRegions) (whole : r.regionSize % pageSize = 0)
    (aligned : r.physAddr % pageSize = 0)
    (free : ∀ x ∈ (state.procs proc).regions,
      x.overlaps r.virtAddr (u32 (r.virtAddr + r.regionSize)) = false)
    (tables : ((state.paging proc).missing r.virtAddr (r.regionSize / pageSize)).card ≤
      state.pool.length) :
    ∃ state', vmmMapRegion state (some proc) r.physAddr r.virtAddr r.regionSize r.usage r.access =
        .ok (.sOk, state') ∧ RegionMapped state proc r state' := by
  have nonzero : ∀ table ∈ (state.paging proc).pool, table ≠ 0 := fun table member =>
    ((apart proc).poolFresh table member).1
  have outcome := @vmmMapPages_outcome (state.paging proc) r.virtAddr (r.regionSize / pageSize)
    r.physAddr r.fRw r.fUs virtSmall nonzero
  rw [if_pos (show _ ≤ (state.paging proc).pool.length from tables)] at outcome
  obtain ⟨paging, mapped, -⟩ := outcome
  have desc : procOfDesc state (some proc) = .ok proc := rfl
  have returned := vmmMapRegion_ok desc few whole aligned free mapped
  exact ⟨_, returned, few, whole, aligned, free, state.kpmm, paging, mapped, rfl⟩

/-- The pages that are present are those of the regions. -/
def VmmState.RegionsPresent (state : VmmState) (proc : Nat) : Prop :=
  ∀ m, ((state.paging proc).entry m).fPresent = true ↔
    ∃ x ∈ (state.procs proc).regions, m ∈ x.pageSet

theorem VmmState.RegionsPresent.mapped {foreign : Set Nat} (present : state.RegionsPresent proc)
    (regions : (state'.procs proc).regions = (state.procs proc).regions ++ [r])
    (pages : PagesMapped foreign r.fRw r.fUs r.pageFrame r.pageSet (state.paging proc)
      (state'.paging proc)) : state'.RegionsPresent proc := by
  intro m
  rw [regions]
  simp only [List.mem_append, List.mem_singleton, or_and_right, exists_or, exists_eq_left]
  by_cases inside : m ∈ r.pageSet
  · rw [pages.inside m inside]
    exact iff_of_true rfl (.inr inside)
  · rw [pages.outside m inside, present m]
    exact (or_iff_left inside).symm

theorem VmmState.RegionsPresent.others {other : Nat} (present : state.RegionsPresent other)
    (unchanged : OthersUnchanged state proc state') (differ : other ≠ proc) :
    state'.RegionsPresent other := by
  have same := unchanged other differ
  intro m
  have entry : (state'.paging other).entry = (state.paging other).entry :=
    congrArg AddressSpace.entry same
  have regions : (state'.procs other).regions = (state.procs other).regions :=
    congrArg AddressSpace.regions same
  rw [entry, regions]
  exact present m

end

end Antonix
