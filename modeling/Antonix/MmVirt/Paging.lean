import Antonix.MmVirt.Basic
import Mathlib.Data.Set.Function
import Mathlib.Order.Interval.Set.Basic

/-! # What the page loops do

`Paging.entry n` is the entry that the MMU finds for page `n`, and `Paging.Sound`
says that no two slots of the directory share a page table.  The two loops are
described by what they do to these entries: `PagesMapped` and `PagesCleared`. -/

namespace Antonix

open Set Function

/-- The entry for page `n`: that of its page table, or zero where there is no table. -/
def Paging.entry (paging : Paging) (n : Nat) : KVmmPageEntry :=
  if (paging.dir (n / 1024)).fPresent then
    paging.tables (paging.dir (n / 1024)).pageTableAddr (n % 1024)
  else .zero

/-- The physical address that an address translates to. -/
def Paging.translate (paging : Paging) (addr : Nat) : Option Nat :=
  let entry := paging.entry (addr / pageSize)
  if entry.fPresent then some (entry.frameAddr * pageSize + addr % pageSize) else none

/-- Every slot has a page table of its own, apart from the frames in `foreign` and from
those that are still to be allocated. -/
structure Paging.Sound (foreign : Set Nat) (paging : Paging) : Prop where
  present : ∀ id, (paging.dir id).fPresent = true ↔ (paging.dir id).pageTableAddr ≠ 0
  apart : ∀ i j, (paging.dir i).pageTableAddr = (paging.dir j).pageTableAddr →
    (paging.dir i).pageTableAddr ≠ 0 → i = j
  own : ∀ id, (paging.dir id).pageTableAddr ≠ 0 → (paging.dir id).pageTableAddr ∉ foreign
  poolNodup : paging.pool.Nodup
  poolFresh : ∀ table ∈ paging.pool, table ≠ 0 ∧ table ∉ foreign ∧
    ∀ id, (paging.dir id).pageTableAddr ≠ table

section

variable {foreign : Set Nat} {paging paging' paging'' : Paging} {n : Nat}

theorem Paging.entry_of_present (sound : paging.Sound foreign)
    (table : (paging.dir (n / 1024)).pageTableAddr ≠ 0) :
    paging.entry n = paging.tables (paging.dir (n / 1024)).pageTableAddr (n % 1024) := by
  rw [entry, if_pos ((sound.present _).mpr table)]

theorem Paging.entry_of_absent (sound : paging.Sound foreign)
    (noTable : (paging.dir (n / 1024)).pageTableAddr = 0) : paging.entry n = .zero := by
  rw [entry, if_neg]
  rw [sound.present]
  exact not_not.mpr noTable

/-! ## Setting one entry -/

theorem Paging.Sound.setEntry (sound : paging.Sound foreign) (table pageId : Nat)
    (entry : KVmmPageEntry) : (paging.setEntry table pageId entry).Sound foreign :=
  ⟨sound.present, sound.apart, sound.own, sound.poolNodup, sound.poolFresh⟩

/-- Setting the entry of a page changes that entry only. -/
theorem Paging.entry_setEntry (sound : paging.Sound foreign)
    (table : (paging.dir (n / 1024)).pageTableAddr ≠ 0) (entry : KVmmPageEntry) (m : Nat) :
    (paging.setEntry (paging.dir (n / 1024)).pageTableAddr (n % 1024) entry).entry m =
      if m = n then entry else paging.entry m := by
  by_cases slot : m / 1024 = n / 1024
  · rw [entry_of_present (sound.setEntry _ _ _) (by simpa only [setEntry, slot] using table),
      entry_of_present sound (by rwa [slot])]
    simp only [setEntry, slot, update_self]
    by_cases same : m = n
    · rw [if_pos same, same, update_self]
    · rw [if_neg same, update_of_ne (by omega)]
  · rw [if_neg (by rintro rfl; exact slot rfl)]
    by_cases otherTable : (paging.dir (m / 1024)).pageTableAddr = 0
    · rw [entry_of_absent sound otherTable, entry_of_absent (sound.setEntry _ _ _) otherTable]
    · rw [entry_of_present sound otherTable, entry_of_present (sound.setEntry _ _ _) otherTable]
      have differ : (paging.dir (m / 1024)).pageTableAddr ≠
          (paging.dir (n / 1024)).pageTableAddr := fun clash =>
        slot (sound.apart _ _ clash otherTable)
      simp only [setEntry, update_of_ne differ]

/-! ## Mapping -/

/-- The pages are mapped with the flags and to the frames given, and nothing else changes:
other entries stay, and tables are created only in empty slots, with the flags given. -/
structure PagesMapped (foreign : Set Nat) (fRw fUs : Bool) (frame : Nat → Nat) (pages : Set Nat)
    (paging paging' : Paging) : Prop where
  sound : paging'.Sound foreign
  inside : ∀ m ∈ pages, paging'.entry m = ⟨true, fRw, fUs, frame m⟩
  outside : ∀ m ∉ pages, paging'.entry m = paging.entry m
  tables : ∀ m ∈ pages, (paging'.dir (m / 1024)).pageTableAddr ≠ 0
  kept : ∀ id, (paging.dir id).pageTableAddr ≠ 0 → paging'.dir id = paging.dir id
  created : ∀ id, (paging.dir id).pageTableAddr = 0 → paging'.dir id = paging.dir id ∨
    ((paging'.dir id).fReadwrite = fRw ∧ (paging'.dir id).fAllowUserRead = fUs ∧
      (paging'.dir id).pageTableAddr ≠ 0)
  foreign : EqOn paging'.tables paging.tables foreign
  pool : paging'.pool <:+ paging.pool

variable {fRw fUs : Bool} {frame : Nat → Nat} {pages pages' : Set Nat}

theorem PagesMapped.refl (sound : paging.Sound foreign) :
    PagesMapped foreign fRw fUs frame ∅ paging paging where
  sound := sound
  inside := by simp
  outside := fun _ _ => rfl
  tables := by simp
  kept := fun _ _ => rfl
  created := fun _ _ => .inl rfl
  foreign := eqOn_refl _ _
  pool := List.suffix_refl _

theorem PagesMapped.trans (first : PagesMapped foreign fRw fUs frame pages paging paging')
    (second : PagesMapped foreign fRw fUs frame pages' paging' paging'') :
    PagesMapped foreign fRw fUs frame (pages ∪ pages') paging paging'' where
  sound := second.sound
  inside m member := by
    by_cases later : m ∈ pages'
    · exact second.inside m later
    · rw [second.outside m later]
      exact first.inside m (member.resolve_right later)
  outside m member := by
    rw [mem_union, not_or] at member
    rw [second.outside m member.2, first.outside m member.1]
  tables m member := by
    by_cases later : m ∈ pages'
    · exact second.tables m later
    · have table := first.tables m (member.resolve_right later)
      rwa [second.kept _ table]
  kept id table := by
    have same := first.kept id table
    rw [second.kept id (by rwa [same]), same]
  created id empty := by
    cases first.created id empty with
    | inl same =>
      rw [← same]
      exact second.created id (by rwa [same])
    | inr made =>
      rw [second.kept id made.2.2]
      exact .inr made
  foreign := second.foreign.trans first.foreign
  pool := second.pool.trans first.pool

/-- Setting an entry of a table that exists maps one page. -/
theorem PagesMapped.set (sound : paging.Sound foreign)
    (table : (paging.dir (n / 1024)).pageTableAddr ≠ 0) :
    PagesMapped foreign fRw fUs frame {n} paging
      (paging.setEntry (paging.dir (n / 1024)).pageTableAddr (n % 1024)
        ⟨true, fRw, fUs, frame n⟩) where
  sound := sound.setEntry _ _ _
  inside m here := by
    rw [mem_singleton_iff] at here
    rw [Paging.entry_setEntry sound table, if_pos here, here]
  outside m other := by
    rw [mem_singleton_iff] at other
    rw [Paging.entry_setEntry sound table, if_neg other]
  tables m here := by
    rw [mem_singleton_iff] at here
    rwa [here]
  kept _ _ := rfl
  created _ _ := .inl rfl
  foreign f isForeign := by
    have differ : f ≠ (paging.dir (n / 1024)).pageTableAddr :=
      ne_of_mem_of_not_mem isForeign (sound.own _ table)
    simp only [Paging.setEntry, update_of_ne differ]
  pool := List.suffix_refl _

/-- Creating a page table in an empty slot maps no page: its entries are zero, as they read
before. -/
theorem PagesMapped.create {id table : Nat} {pool : List Nat} (sound : paging.Sound foreign)
    (absent : (paging.dir id).pageTableAddr = 0) (allocated : paging.pool = table :: pool) :
    PagesMapped foreign fRw fUs frame ∅ paging (paging.createTable id fRw fUs table pool) := by
  obtain ⟨nonzero, notForeign, fresh⟩ := sound.poolFresh table (by simp [allocated])
  have poolNodup := sound.poolNodup
  rw [allocated, List.nodup_cons] at poolNodup
  have here : (paging.createTable id fRw fUs table pool).dir id = ⟨true, fRw, fUs, table⟩ :=
    update_self _ _ _
  have other : ∀ i, i ≠ id → (paging.createTable id fRw fUs table pool).dir i = paging.dir i :=
    fun i differ => update_of_ne differ _ _
  -- the new table belongs to no other slot, because it was still to be allocated
  have createdSound : (paging.createTable id fRw fUs table pool).Sound foreign := by
    refine ⟨fun i => ?_, fun i j same notZero => ?_, fun i notZero => ?_, poolNodup.2,
      fun later member => ?_⟩
    · by_cases slot : i = id
      · simp [slot, here, nonzero]
      · rw [other i slot, sound.present]
    · by_cases slotI : i = id <;> by_cases slotJ : j = id
      · rw [slotI, slotJ]
      · rw [slotI, here, other j slotJ] at same
        exact absurd same.symm (fresh j)
      · rw [slotJ, here, other i slotI] at same
        exact absurd same (fresh i)
      · rw [other i slotI, other j slotJ] at same
        rw [other i slotI] at notZero
        exact sound.apart i j same notZero
    · by_cases slot : i = id
      · rwa [slot, here]
      · rw [other i slot] at notZero ⊢
        exact sound.own i notZero
    · obtain ⟨laterNonzero, laterNotForeign, laterFresh⟩ :=
        sound.poolFresh later (by rw [allocated]; exact List.mem_cons_of_mem _ member)
      refine ⟨laterNonzero, laterNotForeign, fun i => ?_⟩
      by_cases slot : i = id
      · rw [slot, here]
        rintro rfl
        exact poolNodup.1 member
      · rw [other i slot]
        exact laterFresh i
  refine
    { sound := createdSound
      inside := by simp
      outside := fun m _ => ?_
      tables := by simp
      kept := fun i notEmpty => other i fun slot => notEmpty (slot ▸ absent)
      created := fun i _ => ?_
      foreign := fun f isForeign => update_of_ne (ne_of_mem_of_not_mem isForeign notForeign) _ _
      pool := by rw [allocated]; exact List.suffix_cons _ _ }
  · by_cases slot : m / 1024 = id
    · subst slot
      rw [Paging.entry_of_absent sound absent, Paging.entry, here]
      simp [Paging.createTable]
    · rw [Paging.entry, Paging.entry, other _ slot]
      simp only [Paging.createTable, update_of_ne (fresh _)]
  · by_cases slot : i = id
    · exact .inr (by rw [slot, here]; exact ⟨rfl, rfl, nonzero⟩)
    · exact .inl (other i slot)

/-- One pass of the mapping loop. -/
theorem PagesMapped.page {table : Nat} (sound : paging.Sound foreign)
    (fetched : fetchPageTable paging (n / 1024) true fRw fUs = .ok (.ok table, paging')) :
    PagesMapped foreign fRw fUs frame {n} paging
      (paging'.setEntry table (n % 1024) ⟨true, fRw, fUs, frame n⟩) := by
  unfold fetchPageTable at fetched
  split at fetched
  · rename_i present
    obtain ⟨table', rfl⟩ := eq_of_returned fetched
    obtain rfl := Except.ok.inj table'
    exact .set sound present
  · rename_i absent
    rw [ne_eq, not_not] at absent
    simp only [if_true] at fetched
    split at fetched
    · contradiction
    · rename_i first pool allocated
      obtain ⟨table', rfl⟩ := eq_of_returned fetched
      obtain rfl := Except.ok.inj table'
      have made : PagesMapped foreign fRw fUs frame ∅ paging _ := .create sound absent allocated
      have here : ((paging.createTable (n / 1024) fRw fUs first pool).dir (n / 1024)).pageTableAddr
          = first := by simp [Paging.createTable]
      have set : PagesMapped foreign fRw fUs frame {n} _ _ :=
        .set made.sound (by rw [here]; exact (sound.poolFresh first (by simp [allocated])).1)
      rw [here] at set
      simpa using made.trans set

/-- The page `i` pages behind an address, in 32 bits. -/
def pageAt (virt i : Nat) : Nat := u32 (virt + i * pageSize) / pageSize

theorem pageAt_zero {virt : Nat} (small : virt < 2 ^ 32) : pageAt virt 0 = virt / pageSize := by
  rw [pageAt, Nat.zero_mul, Nat.add_zero, u32_of_lt small]

theorem pageAt_succ (virt i : Nat) : pageAt virt (i + 1) = pageAt (u32 (virt + pageSize)) i := by
  rw [pageAt, pageAt, u32_add_left, Nat.succ_mul, Nat.add_comm (i * pageSize), Nat.add_assoc]

theorem pageAt_of_fits {virt pageCnt i : Nat} (fits : virt + pageCnt * pageSize ≤ 2 ^ 32)
    (below : i < pageCnt) : pageAt virt i = virt / pageSize + i := by
  have noWrap : u32 (virt + i * pageSize) = virt + i * pageSize := by
    apply u32_of_lt
    simp only [pageSize] at *
    omega
  rw [pageAt, noWrap, Nat.add_mul_div_right virt i (by decide)]

/-- The address of the next page does not wrap while a page is left. -/
theorem nextPage_eq {virt pageCnt : Nat} (fits : virt + (pageCnt + 1) * pageSize ≤ 2 ^ 32)
    (more : pageCnt ≠ 0) :
    u32 (virt + pageSize) = virt + pageSize ∧
      u32 (virt + pageSize) / pageSize = virt / pageSize + 1 := by
  have noWrap : u32 (virt + pageSize) = virt + pageSize := by
    apply u32_of_lt
    simp only [pageSize] at *
    omega
  rw [noWrap]
  exact ⟨rfl, Nat.add_div_right virt (by decide)⟩

/-- The pages `pageCnt` from an address on. -/
def pagesFrom (virt pageCnt : Nat) : Set Nat := {m | ∃ i < pageCnt, m = pageAt virt i}

theorem pagesFrom_zero (virt : Nat) : pagesFrom virt 0 = ∅ := by
  simp [pagesFrom]

theorem pagesFrom_succ {virt : Nat} (small : virt < 2 ^ 32) (pageCnt : Nat) :
    pagesFrom virt (pageCnt + 1) =
      {virt / pageSize} ∪ pagesFrom (u32 (virt + pageSize)) pageCnt := by
  ext m
  constructor
  · rintro ⟨i, below, rfl⟩
    cases i with
    | zero => exact .inl (pageAt_zero small)
    | succ i => exact .inr ⟨i, by omega, pageAt_succ virt i⟩
  · rintro (rfl | ⟨i, below, rfl⟩)
    · exact ⟨0, by omega, (pageAt_zero small).symm⟩
    · exact ⟨i + 1, by omega, (pageAt_succ virt i).symm⟩

theorem pagesFrom_of_fits {virt pageCnt : Nat} (fits : virt + pageCnt * pageSize ≤ 2 ^ 32) :
    pagesFrom virt pageCnt = Ico (virt / pageSize) (virt / pageSize + pageCnt) := by
  ext m
  constructor
  · rintro ⟨i, below, rfl⟩
    rw [pageAt_of_fits fits below]
    exact ⟨by omega, by omega⟩
  · intro inside
    rw [mem_Ico] at inside
    have below : m - virt / pageSize < pageCnt := by omega
    refine ⟨m - virt / pageSize, below, ?_⟩
    rw [pageAt_of_fits fits below]
    omega

/-- The mapping loop maps the pages from that of the first address on, to successive frames.
Only the addresses after the first are computed in 32 bits. -/
theorem vmmMapPages_pages : ∀ {pageCnt phys virt : Nat} {paging : Paging},
    paging.Sound foreign → virt < 2 ^ 32 →
    (∀ i < pageCnt, frame (pageAt virt i) =
      (if i = 0 then phys else u32 (phys + i * pageSize)) / pageSize) →
    vmmMapPages fRw fUs pageCnt phys virt paging = .ok paging' →
    PagesMapped foreign fRw fUs frame (pagesFrom virt pageCnt) paging paging'
  | 0, phys, virt, paging, sound, _, _, mapped => by
    rw [vmmMapPages, Except.ok.injEq] at mapped
    subst mapped
    rw [pagesFrom_zero]
    exact PagesMapped.refl sound
  | pageCnt + 1, phys, virt, paging, sound, small, frames, mapped => by
    have first : frame (virt / pageSize) = phys / pageSize := by
      rw [← pageAt_zero small, frames 0 (by omega), if_pos rfl]
    rw [vmmMapPages] at mapped
    cases fetched : fetchPageTable paging (virt / 0x1000 / 1024) true fRw fUs with
    | error halt => simp [fetched, bind, Except.bind] at mapped
    | ok result =>
      obtain ⟨answer, paging₁⟩ := result
      cases answer with
      | error hr => simp [fetched, bind, Except.bind] at mapped
      | ok table =>
        simp only [fetched, bind, Except.bind] at mapped
        have page : PagesMapped foreign fRw fUs frame {virt / pageSize} paging _ :=
          .page sound fetched
        rw [first] at page
        rw [pagesFrom_succ small]
        have restFrames : ∀ i < pageCnt, frame (pageAt (u32 (virt + pageSize)) i) =
            (if i = 0 then u32 (phys + pageSize)
              else u32 (u32 (phys + pageSize) + i * pageSize)) / pageSize := by
          intro i below
          rw [← pageAt_succ, frames (i + 1) (by omega), if_neg (Nat.succ_ne_zero i), u32_add_left,
            Nat.succ_mul, Nat.add_comm (i * pageSize), Nat.add_assoc]
          cases i with
          | zero => rw [if_pos rfl, Nat.zero_mul, Nat.add_zero]
          | succ i => rw [if_neg (Nat.succ_ne_zero i)]
        exact page.trans (vmmMapPages_pages page.sound (u32_lt _) restFrames mapped)

/-- The same where the pages do not reach past the end of the address space. -/
theorem vmmMapPages_spec {pageCnt phys virt : Nat} {paging : Paging}
    (sound : paging.Sound foreign) (fits : virt + pageCnt * pageSize ≤ 2 ^ 32)
    (frames : ∀ i < pageCnt, frame (virt / pageSize + i) =
      (if i = 0 then phys else u32 (phys + i * pageSize)) / pageSize)
    (mapped : vmmMapPages fRw fUs pageCnt phys virt paging = .ok paging') :
    PagesMapped foreign fRw fUs frame (Ico (virt / pageSize) (virt / pageSize + pageCnt))
      paging paging' := by
  rw [← pagesFrom_of_fits fits]
  cases pageCnt with
  | zero =>
    rw [vmmMapPages, Except.ok.injEq] at mapped
    subst mapped
    rw [pagesFrom_zero]
    exact PagesMapped.refl sound
  | succ pageCnt =>
    have small : virt < 2 ^ 32 := by
      simp only [pageSize] at fits
      omega
    refine vmmMapPages_pages sound small (fun i below => ?_) mapped
    rw [pageAt_of_fits fits below]
    exact frames i below

/-- One page table at most is allocated, where the slot has none. -/
theorem fetchPageTable_autoCreate (id : Nat) (nonzero : ∀ table ∈ paging.pool, table ≠ 0)
    (room : (paging.dir id).pageTableAddr = 0 → paging.pool ≠ []) :
    ∃ table paging', fetchPageTable paging id true fRw fUs = .ok (.ok table, paging') ∧
      paging'.pool <:+ paging.pool ∧ (paging'.dir id).pageTableAddr ≠ 0 ∧
      (∀ other, other ≠ id → paging'.dir other = paging.dir other) ∧
      paging.pool.length = paging'.pool.length +
        if (paging.dir id).pageTableAddr = 0 then 1 else 0 := by
  unfold fetchPageTable
  split
  · rename_i present
    exact ⟨_, _, rfl, List.suffix_refl _, present, fun _ _ => rfl, by simp⟩
  · rename_i absent
    rw [ne_eq, not_not] at absent
    cases allocated : paging.pool with
    | nil => exact absurd allocated (room absent)
    | cons table pool =>
      refine ⟨_, _, rfl, List.suffix_cons _ _, ?_, fun other differ => ?_,
        by simp [absent, Paging.createTable]⟩
      · simpa [Paging.createTable] using nonzero table (by simp [allocated])
      · exact update_of_ne differ _ _

/-- The mapping loop ends when there is a table to allocate for each slot that the pages are in. -/
theorem vmmMapPages_ok : ∀ {pageCnt phys virt : Nat} {paging : Paging},
    (∀ table ∈ paging.pool, table ≠ 0) → virt + pageCnt * pageSize ≤ 2 ^ 32 →
    (pageCnt ≠ 0 → (if (paging.dir (virt / pageSize / 1024)).pageTableAddr = 0 then 1 else 0) +
      ((virt / pageSize + pageCnt - 1) / 1024 - virt / pageSize / 1024) ≤ paging.pool.length) →
    ∃ paging', vmmMapPages fRw fUs pageCnt phys virt paging = .ok paging'
  | 0, _, _, paging, _, _, _ => ⟨paging, rfl⟩
  | pageCnt + 1, phys, virt, paging, nonzero, fits, enough => by
    replace enough := enough (Nat.succ_ne_zero _)
    have room : (paging.dir (virt / pageSize / 1024)).pageTableAddr = 0 → paging.pool ≠ [] := by
      intro absent
      rw [if_pos absent] at enough
      exact List.ne_nil_of_length_pos (by omega)
    obtain ⟨table, paging₁, fetched, suffix, here, others, length⟩ :=
      fetchPageTable_autoCreate (virt / pageSize / 1024) nonzero room
    rw [vmmMapPages, fetched]
    let paging₂ := paging₁.setEntry table (virt / 0x1000 % 1024) ⟨true, fRw, fUs, phys / 0x1000⟩
    by_cases last : pageCnt = 0
    · subst last
      exact ⟨paging₂, rfl⟩
    · obtain ⟨noWrap, next⟩ := nextPage_eq fits last
      have nonzero₂ : ∀ table ∈ paging₂.pool, table ≠ 0 := fun table member =>
        nonzero table (suffix.subset member)
      refine vmmMapPages_ok nonzero₂ ?_ fun _ => ?_
      · rw [noWrap]
        simp only [pageSize] at *
        omega
      · rw [next]
        show (if (paging₁.dir ((virt / pageSize + 1) / 1024)).pageTableAddr = 0 then 1 else 0) + _ ≤
          paging₁.pool.length
        by_cases same : (virt / pageSize + 1) / 1024 = virt / pageSize / 1024
        · -- the table of this slot is there by now
          rw [same, if_neg here]
          omega
        · split <;> omega

/-! ## Unmapping -/

/-- What the unmapping loop did, with whatever status it left: some pages are marked as not
present, and with `S_OK` all of them. -/
structure PagesCleared (foreign : Set Nat) (pages : Set Nat) (hr : HResult)
    (paging paging' : Paging) : Prop where
  sound : paging'.Sound foreign
  entry : ∀ m, paging'.entry m = paging.entry m ∨
    (m ∈ pages ∧ paging'.entry m = { paging.entry m with fPresent := false })
  cleared : hr = .sOk → ∀ m ∈ pages, (paging'.entry m).fPresent = false
  dir : paging'.dir = paging.dir
  foreign : EqOn paging'.tables paging.tables foreign
  pool : paging'.pool = paging.pool

theorem PagesCleared.outside {hr : HResult}
    (cleared : PagesCleared foreign pages hr paging paging') {m : Nat} (other : m ∉ pages) :
    paging'.entry m = paging.entry m :=
  (cleared.entry m).resolve_right fun inside => other inside.1

theorem PagesCleared.stop (sound : paging.Sound foreign) (pages : Set Nat) {hr : HResult}
    (early : hr ≠ .sOk ∨ pages = ∅) : PagesCleared foreign pages hr paging paging where
  sound := sound
  entry _ := .inl rfl
  cleared isOk m member := by
    cases early with
    | inl failed => exact absurd isOk failed
    | inr nothing => simp [nothing] at member
  dir := rfl
  foreign := eqOn_refl _ _
  pool := rfl

/-- One pass and then the rest. -/
theorem PagesCleared.cons {hr : HResult} (sound : paging.Sound foreign)
    (table : (paging.dir (n / 1024)).pageTableAddr ≠ 0)
    (rest : PagesCleared foreign pages hr (paging.setEntry (paging.dir (n / 1024)).pageTableAddr
      (n % 1024) { paging.entry n with fPresent := false }) paging') :
    PagesCleared foreign (insert n pages) hr paging paging' := by
  have entry := Paging.entry_setEntry sound table { paging.entry n with fPresent := false }
  refine
    { sound := rest.sound
      entry := fun m => ?_
      cleared := fun isOk m member => ?_
      dir := rest.dir
      foreign := rest.foreign.trans fun f isForeign => ?_
      pool := rest.pool }
  · by_cases here : m = n
    · subst here
      refine .inr ⟨mem_insert _ _, ?_⟩
      cases rest.entry m with
      | inl same => rw [same, entry, if_pos rfl]
      | inr again => rw [again.2, entry, if_pos rfl]
    · have later := rest.entry m
      rw [entry, if_neg here] at later
      exact later.imp_right fun inside => ⟨mem_insert_of_mem _ inside.1, inside.2⟩
  · by_cases later : m ∈ pages
    · exact rest.cleared isOk m later
    · obtain rfl : m = n := member.resolve_right later
      rw [rest.outside later, entry, if_pos rfl]
  · have differ : f ≠ (paging.dir (n / 1024)).pageTableAddr :=
      ne_of_mem_of_not_mem isForeign (sound.own _ table)
    simp only [Paging.setEntry, update_of_ne differ]

/-- The unmapping loop ends.  It leaves with an error only when a page has no table. -/
theorem vmmUnmapPages_spec {endAddr : Nat} (small : endAddr < 2 ^ 32) :
    ∀ {pageCnt fuel virt : Nat} {paging : Paging}, paging.Sound foreign →
    virt + pageCnt * pageSize = endAddr → pageCnt < fuel →
    ∃ hr paging', vmmUnmapPages endAddr fuel virt paging = .ok (hr, paging') ∧
      PagesCleared foreign (Ico (virt / pageSize) (virt / pageSize + pageCnt)) hr paging paging' ∧
      ((∀ m ∈ Ico (virt / pageSize) (virt / pageSize + pageCnt),
        (paging.dir (m / 1024)).pageTableAddr ≠ 0) → hr = .sOk)
  | 0, fuel + 1, virt, paging, sound, ends, _ => by
    refine ⟨.sOk, paging, ?_, .stop sound _ (.inr (by simp)), fun _ => rfl⟩
    rw [vmmUnmapPages, if_neg (by omega)]
  | pageCnt + 1, fuel + 1, virt, paging, sound, ends, enough => by
    simp only [pageSize] at ends
    have notEnd : virt < endAddr := by omega
    have noWrap : u32 (virt + pageSize) = virt + pageSize :=
      u32_of_lt (by simp only [pageSize]; omega)
    rw [Bitmap.Ico_run_succ]
    by_cases absent : (paging.dir (virt / pageSize / 1024)).pageTableAddr = 0
    · -- the loop gives up at a page without a table
      refine ⟨.eInvalidArg, paging, ?_, .stop sound _ (.inl (by decide)), fun tables => ?_⟩
      · rw [vmmUnmapPages, if_pos notEnd]
        simp [fetchPageTable, absent, bind, Except.bind]
      · exact absurd absent (tables _ (mem_insert _ _))
    · have entry := Paging.entry_of_present sound absent
      obtain ⟨hr, paging', unmapped, cleared, ok⟩ := vmmUnmapPages_spec small
        (sound.setEntry (paging.dir (virt / pageSize / 1024)).pageTableAddr
          (virt / pageSize % 1024) { paging.entry (virt / pageSize) with fPresent := false })
        (show virt + pageSize + pageCnt * pageSize = endAddr by simp only [pageSize]; omega)
        (show pageCnt < fuel by omega)
      rw [Nat.add_div_right virt (by decide)] at cleared ok
      refine ⟨hr, paging', ?_, .cons sound absent cleared, fun tables => ok fun m member =>
        tables m (mem_insert_of_mem _ member)⟩
      rw [entry] at unmapped
      rw [vmmUnmapPages, if_pos notEnd]
      simp only [fetchPageTable, ne_eq, absent, not_false_eq_true, if_true, bind, Except.bind,
        noWrap]
      exact unmapped

end

end Antonix
