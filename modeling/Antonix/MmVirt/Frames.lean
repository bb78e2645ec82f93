import Antonix.Lib.Ledger
import Antonix.MmPhys.Spec
import Antonix.MmVirt.Regions

/-! # The physical memory of regions

A region that `vmm_alloc_and_map` maps owns blocks of the bitmap, which
`vmm_unmap_region` gives back.  The marked blocks are the used units of a ledger of
regions. -/

namespace Antonix

open Set

/-- The blocks that the region is mapped to. -/
def KVmmRegion.frames (r : KVmmRegion) : Set Nat :=
  blockRange r.physAddr (r.regionSize / pageSize)

/-- Beside the reserved blocks, those of the regions are marked, and no block has two owners. -/
def FramesOwned (kpmm : Bitmap 32) (reserved : Set Nat) (owners : List KVmmRegion) : Prop :=
  ∃ ledger : Ledger KVmmRegion.frames, ledger.reserved = reserved ∧ ledger.live.Perm owners ∧
    kpmm.bits = ledger.used

/-- The region was mapped to blocks that were free. -/
structure RegionAllocated (state : VmmState) (proc : Nat) (r : KVmmRegion) (state' : VmmState) :
    Prop where
  few : (state.procs proc).regions.length ≠ maxVmRegions
  regions : (state'.procs proc).regions = (state.procs proc).regions ++ [r]
  others : ∀ p, p ≠ proc → (state'.procs p).regions = (state.procs p).regions
  free : Disjoint r.frames state.kpmm.bits
  marked : state'.kpmm.bits = state.kpmm.bits ∪ r.frames

section

variable {kpmm kpmm' : Bitmap 32} {reserved : Set Nat} {owners owners' : List KVmmRegion}
  {r : KVmmRegion}

theorem FramesOwned.start : FramesOwned kpmm kpmm.bits [] :=
  ⟨.empty kpmm.bits, rfl, .nil, (Ledger.used_empty _).symm⟩

theorem FramesOwned.perm (owned : FramesOwned kpmm reserved owners) (perm : owners.Perm owners') :
    FramesOwned kpmm reserved owners' := by
  obtain ⟨ledger, isReserved, live, bits⟩ := owned
  exact ⟨ledger, isReserved, live.trans perm, bits⟩

theorem FramesOwned.bits_eq (owned : FramesOwned kpmm reserved owners) :
    kpmm.bits = reserved ∪ ⋃ r ∈ owners, r.frames := by
  obtain ⟨ledger, isReserved, live, bits⟩ := owned
  rw [bits, Ledger.used, isReserved]
  congr 1
  ext block
  simp only [mem_iUnion, live.mem_iff]

theorem FramesOwned.alloc (owned : FramesOwned kpmm reserved owners)
    (free : Disjoint r.frames kpmm.bits) (marked : kpmm'.bits = kpmm.bits ∪ r.frames) :
    FramesOwned kpmm' reserved (r :: owners) := by
  obtain ⟨ledger, isReserved, live, bits⟩ := owned
  rw [bits] at free marked
  refine ⟨ledger.alloc r free, isReserved, live.cons r, ?_⟩
  rw [marked, Ledger.used_alloc]

theorem FramesOwned.free (owned : FramesOwned kpmm reserved (r :: owners))
    (cleared : kpmm'.bits = kpmm.bits \ r.frames) : FramesOwned kpmm' reserved owners := by
  obtain ⟨ledger, isReserved, live, bits⟩ := owned
  have member : r ∈ ledger.live := live.mem_iff.mpr List.mem_cons_self
  refine ⟨ledger.free r, isReserved, ?_, ?_⟩
  · have erased := live.erase r
    rwa [List.erase_cons_head] at erased
  · rw [cleared, bits, Ledger.used_free ledger member]

theorem FramesOwned.marked (owned : FramesOwned kpmm reserved owners) (member : r ∈ owners) :
    r.frames ⊆ kpmm.bits := by
  rw [owned.bits_eq]
  exact (subset_biUnion_of_mem (u := KVmmRegion.frames) member).trans subset_union_right

/-- The blocks of one owner are neither reserved nor another's. -/
theorem FramesOwned.apart (owned : FramesOwned kpmm reserved (r :: owners)) :
    Disjoint r.frames (reserved ∪ ⋃ x ∈ owners, x.frames) := by
  obtain ⟨ledger, isReserved, live, -⟩ := owned
  have symmetric : ∀ {x y : KVmmRegion}, Disjoint x.frames y.frames → Disjoint y.frames x.frames :=
    fun apart => apart.symm
  have others := List.pairwise_cons.mp ((live.pairwise_iff symmetric).mp ledger.liveApart)
  rw [← isReserved, disjoint_union_right, disjoint_iUnion₂_right]
  exact ⟨(ledger.reservedApart r (live.mem_iff.mpr List.mem_cons_self)).symm, others.1⟩

end

section

variable {state state₁ : VmmState} {proc physAddr virtAddr size usage access : Nat}
  {procDesc : Option Nat} {hr : HResult}

theorem usage_autofree_ne (usage : Nat) : (usage ||| usageAutofree) &&& usageAutofree ≠ 0 := by
  rw [Nat.and_or_distrib_right, Nat.and_self]
  intro zero
  cases (Nat.or_eq_zero_iff.mp zero).2

/-- Mapping does not touch the bitmap. -/
theorem vmmMapRegion_kpmm
    (returned : vmmMapRegion state procDesc physAddr virtAddr size usage access =
      .ok (hr, state₁)) : state₁.kpmm = state.kpmm := by
  rw [vmmMapRegion] at returned
  cases desc : procOfDesc state procDesc with
  | error hr' =>
    rw [desc] at returned
    obtain ⟨-, rfl⟩ := eq_of_returned returned
    rfl
  | ok proc =>
    rw [desc] at returned
    dsimp only at returned
    split at returned
    · contradiction
    · split at returned
      · contradiction
      · split at returned
        · contradiction
        · split at returned
          · obtain ⟨-, rfl⟩ := eq_of_returned returned
            rfl
          · obtain ⟨paging, -, stored⟩ := exists_of_bind returned
            obtain ⟨-, rfl⟩ := eq_of_returned stored
            rfl

theorem vmmAllocAndMap_allocated
    (returned : vmmAllocAndMap state (some proc) virtAddr size usage access = .ok (.sOk, state₁)) :
    ∃ physAddr, RegionAllocated state proc
      ⟨physAddr, virtAddr, size, usage ||| usageAutofree, access⟩ state₁ := by
  have spec := kpmmAlloc_spec state.kpmm (size / pageSize)
  rw [vmmAllocAndMap] at returned
  split at returned
  · next failed =>
    obtain ⟨rfl, -⟩ := eq_of_returned returned
    exact absurd rfl (kpmmAlloc_error failed)
  · next physAddr kpmm taken =>
    rw [taken] at spec
    obtain ⟨free, -, marked⟩ := spec
    have kept := vmmMapRegion_kpmm returned
    cases vmmMapRegion_cases returned with
    | inl refused => exact absurd rfl refused.1
    | inr accepted =>
      obtain ⟨-, proc', desc, mapping⟩ := accepted
      obtain rfl : proc = proc' := Except.ok.inj desc
      refine ⟨physAddr, mapping.few, ?_, fun p other => ?_, free, by rw [kept]; exact marked⟩
      · obtain ⟨kpmm', paging, -, rfl⟩ := mapping.mapped
        exact VmmState.setProc_regions_self _ _ _
      · obtain ⟨kpmm', paging, -, rfl⟩ := mapping.mapped
        exact congrArg KProcess.regions (VmmState.setProc_procs_of_ne _ _ _ other)

/-- What unmapping does to the bitmap. -/
def FramesReleased (r : KVmmRegion) (kpmm kpmm' : Bitmap 32) : Prop :=
  if r.usage &&& usageAutofree ≠ 0 then
    kpmmUnmarkBlocks kpmm r.physAddr (r.regionSize / pageSize) = (.sOk, kpmm')
  else kpmm' = kpmm

/-- The first region with the address is taken away. -/
theorem vmmUnmapRegion_first {before after : List KVmmRegion} {r : KVmmRegion}
    (regions : (state.procs proc).regions = before ++ r :: after)
    (first : ∀ x ∈ before, x.virtAddr ≠ r.virtAddr)
    (returned : vmmUnmapRegion state (some proc) r.virtAddr = .ok (.sOk, state₁)) :
    (state₁.procs proc).regions = before ++ after ∧
      (∀ p, p ≠ proc → (state₁.procs p).regions = (state.procs p).regions) ∧
      FramesReleased r state.kpmm state₁.kpmm := by
  have found : (before ++ r :: after).findIdx? (fun x => x.virtAddr = r.virtAddr) =
      some before.length := by
    rw [List.findIdx?_append, List.findIdx?_eq_none_iff.mpr (by simpa using first)]
    simp [List.findIdx?_cons]
  have here : (before ++ r :: after).getD before.length ⟨0, 0, 0, 0, 0⟩ = r := by simp
  have erased : (before ++ r :: after).eraseIdx before.length = before ++ after := by
    rw [List.eraseIdx_append_of_length_le (le_refl _), Nat.sub_self, List.eraseIdx_zero,
      List.tail_cons]
  rw [vmmUnmapRegion, procOfDesc] at returned
  simp only [regions, found, here, erased] at returned
  split at returned
  · contradiction
  · obtain ⟨⟨hr, paging⟩, -, returned⟩ := exists_of_bind returned
    split at returned
    · rw [FramesReleased]
      split at returned
      · next autofree =>
        rw [if_pos autofree]
        split at returned
        · contradiction
        · split at returned
          · next cleared =>
            obtain ⟨-, rfl⟩ := eq_of_returned returned
            refine ⟨VmmState.setProc_regions_self _ _ _, fun p other => ?_, cleared⟩
            exact congrArg KProcess.regions (VmmState.setProc_procs_of_ne _ _ _ other)
          · next failed _ =>
            obtain ⟨rfl, -⟩ := eq_of_returned returned
            exact absurd rfl failed
      · next autofree =>
        obtain ⟨-, rfl⟩ := eq_of_returned returned
        rw [if_neg autofree]
        refine ⟨VmmState.setProc_regions_self _ _ _, fun p other => ?_, rfl⟩
        exact congrArg KProcess.regions (VmmState.setProc_procs_of_ne _ _ _ other)
    · next failed _ =>
      obtain ⟨rfl, -⟩ := eq_of_returned returned
      exact absurd rfl failed

/-- Unmapping a region that owns its blocks. -/
theorem FramesReleased.cleared {r : KVmmRegion} {kpmm kpmm' : Bitmap 32}
    (released : FramesReleased r kpmm kpmm') (autofree : r.usage &&& usageAutofree ≠ 0)
    (marked : r.frames ⊆ kpmm.bits) : kpmm'.bits = kpmm.bits \ r.frames := by
  rw [FramesReleased, if_pos autofree] at released
  have cleared := (kpmmUnmarkBlocks_marked marked).2
  rwa [released] at cleared

end

end Antonix
