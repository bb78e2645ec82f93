import Antonix.Lib.Ledger
import Antonix.Lib.Transition
import Antonix.MmPhys.Spec

/-! # Every marked block has one owner

The histories of the physical allocator: any sequence of `kpmm_alloc` calls
and of `kpmm_unmark_blocks` calls on live allocations.  Beside the bitmap a
history keeps what the calls were about: the live regions and the blocks that
failed allocations left marked.

The bitmap refines a `Ledger`: the marked blocks are the ledger's used units. -/

namespace Antonix

open Bitmap Set Transition

/-- A region that `kpmm_alloc` returned. -/
structure PhysRegion where
  addr : Nat
  numBlocks : Nat
  deriving DecidableEq, Repr

def PhysRegion.blocks (region : PhysRegion) : Set Nat :=
  blockRange region.addr region.numBlocks

/-- The first 5 MB. -/
def reservedBlocks : Set Nat := Ico 0 (5 * 1024 * 1024 / pageSize)

/-- The bitmap, the live regions, and the blocks marked by failed `kpmm_alloc` calls. -/
structure KpmmHistory where
  bitmap : Bitmap 32
  live : List PhysRegion
  leaked : Set Nat

def KpmmHistory.start : KpmmHistory := ⟨kpmmInit, [], ∅⟩

inductive KpmmCall where
  | alloc (numBlocks : Nat)
  | unmark (region : PhysRegion)

/-- One call.  A count is a positive `int32_t`; only live regions are unmarked. -/
inductive KpmmStep : KpmmHistory → KpmmCall → KpmmHistory → Prop
  | allocated {history numBlocks area marked} :
      1 ≤ numBlocks → numBlocks < 2 ^ 31 →
      kpmmAlloc history.bitmap numBlocks = (.ok area, marked) →
      KpmmStep history (.alloc numBlocks)
        ⟨marked, ⟨area, numBlocks⟩ :: history.live, history.leaked⟩
  | failed {history numBlocks hr marked} :
      1 ≤ numBlocks → numBlocks < 2 ^ 31 →
      kpmmAlloc history.bitmap numBlocks = (.error hr, marked) →
      KpmmStep history (.alloc numBlocks)
        ⟨marked, history.live, history.leaked ∪ (marked.bits \ history.bitmap.bits)⟩
  | unmarked {history region hr cleared} :
      region ∈ history.live →
      kpmmUnmarkBlocks history.bitmap region.addr region.numBlocks = (hr, cleared) →
      KpmmStep history (.unmark region) ⟨cleared, history.live.erase region, history.leaked⟩

/-- The ledger that a history stands for. -/
structure KpmmHistory.Refines (history : KpmmHistory)
    (ledger : Ledger PhysRegion.blocks) : Prop where
  marked : history.bitmap.bits = ledger.used
  live : history.live = ledger.live
  reserved : ledger.reserved = reservedBlocks ∪ history.leaked
  leakedApart : Disjoint reservedBlocks history.leaked
  inside : history.bitmap.bits ⊆ bitmapBlocks

theorem kpmmInit_bits : kpmmInit.bits = reservedBlocks := by
  have lowFree : Disjoint (blockRange 0 (0x100000 / pageSize)) (bits (w := 32) fun _ => 0#32) := by
    simp
  obtain ⟨-, low⟩ := kpmmMarkBlocks_free lowFree
  have imageFree : Disjoint (blockRange 0x00100000 (4 * 1024 * 1024 / pageSize))
      (kpmmMarkBlocks (fun _ => 0#32) 0 (0x100000 / pageSize)).2.bits := by
    rw [low, bits_zero, empty_union]
    exact Ico_disjoint_Ico.mpr (by decide)
  obtain ⟨-, image⟩ := kpmmMarkBlocks_free imageFree
  rw [kpmmInit, image, low, bits_zero, empty_union]
  exact Ico_union_Ico_eq_Ico (by decide) (by decide)

theorem KpmmHistory.start_refines : start.Refines (.empty reservedBlocks) where
  marked := by rw [start, kpmmInit_bits, Ledger.used_empty]
  live := rfl
  reserved := by simp [start, Ledger.empty]
  leakedApart := by simp [start]
  inside := by
    rw [start, kpmmInit_bits]
    exact Ico_subset_Ico_right (by decide)

theorem KpmmHistory.Refines.used_of_live {history : KpmmHistory} {ledger}
    (refines : history.Refines ledger) {region : PhysRegion} (member : region ∈ history.live) :
    region.blocks ⊆ history.bitmap.bits := by
  rw [refines.marked]
  exact ledger.extent_subset_used (refines.live ▸ member)

/-- Every call of the allocator is an operation of the ledger. -/
theorem KpmmStep.refines {history history' : KpmmHistory} {call : KpmmCall}
    (step : KpmmStep history call history') {ledger : Ledger PhysRegion.blocks}
    (refines : history.Refines ledger) : ∃ ledger', history'.Refines ledger' := by
  cases step with
  | @allocated numBlocks area marked _ _ result =>
    have spec := kpmmAlloc_spec history.bitmap numBlocks
    rw [result] at spec
    obtain ⟨free, inside, bits⟩ := spec
    have units : Disjoint (PhysRegion.blocks ⟨area, numBlocks⟩) ledger.used :=
      refines.marked ▸ free
    refine ⟨ledger.alloc ⟨area, numBlocks⟩ units, ?_⟩
    exact
      { marked := by rw [bits, Ledger.used_alloc, refines.marked]; rfl
        live := by rw [Ledger.live_alloc, refines.live]
        reserved := refines.reserved
        leakedApart := refines.leakedApart
        inside := by rw [bits]; exact union_subset refines.inside inside }
  | @failed numBlocks hr marked _ _ result =>
    have spec := kpmmAlloc_spec history.bitmap numBlocks
    rw [result] at spec
    obtain ⟨lower, upper⟩ := spec
    -- nobody will unmark the blocks it has marked
    have units : Disjoint (marked.bits \ history.bitmap.bits) ledger.used := by
      rw [← refines.marked]
      exact disjoint_sdiff_left
    refine ⟨ledger.reserve _ units, ?_⟩
    exact
      { marked := by rw [Ledger.used_reserve, ← refines.marked, union_sdiff_cancel lower]
        live := refines.live
        reserved := by rw [Ledger.reserved_reserve, refines.reserved, union_assoc]
        leakedApart := by
          refine refines.leakedApart.union_right (units.symm.mono_left ?_)
          rw [Ledger.used, refines.reserved]
          exact subset_union_left.trans subset_union_left
        inside := upper.trans (union_subset refines.inside subset_rfl) }
  | @unmarked region hr cleared member result =>
    obtain ⟨-, bits⟩ := kpmmUnmarkBlocks_marked (refines.used_of_live member)
    rw [result] at bits
    refine ⟨ledger.free region, ?_⟩
    exact
      { marked := by
          rw [bits, Ledger.used_free _ (refines.live ▸ member), refines.marked]; rfl
        live := by rw [Ledger.live_free, refines.live]
        reserved := refines.reserved
        leakedApart := refines.leakedApart
        inside := by rw [bits]; exact sdiff_subset.trans refines.inside }

theorem KpmmHistory.refines_of_run {history : KpmmHistory} {calls : List KpmmCall}
    (run : Run KpmmStep .start calls history) : ∃ ledger, history.Refines ledger :=
  run.invariant (fun history => ∃ ledger, history.Refines ledger)
    (fun _ _ _ ⟨_, refines⟩ step => step.refines refines) ⟨_, start_refines⟩

/-- After every history of the physical allocator the marked blocks are the disjoint union
of the reserved first 5 MB, the live regions and the blocks left by failed allocations.
A successful `kpmm_alloc` marks its region and nothing else, and unmarking a live region
returns `S_OK` and clears its blocks and nothing else. -/
theorem kpmm_marked_blocks_owned {history : KpmmHistory} {calls : List KpmmCall}
    (run : Run KpmmStep .start calls history) :
    history.bitmap.bits = reservedBlocks ∪ history.leaked ∪ ⋃ region ∈ history.live, region.blocks
    ∧ Disjoint reservedBlocks history.leaked
    ∧ (∀ region ∈ history.live, Disjoint (reservedBlocks ∪ history.leaked) region.blocks)
    ∧ history.live.Pairwise (fun region other => Disjoint region.blocks other.blocks)
    ∧ history.bitmap.bits ⊆ bitmapBlocks
    ∧ (∀ numBlocks area marked, kpmmAlloc history.bitmap numBlocks = (.ok area, marked) →
        Disjoint (blockRange area numBlocks) history.bitmap.bits ∧
          marked.bits = history.bitmap.bits ∪ blockRange area numBlocks)
    ∧ (∀ region ∈ history.live,
        (kpmmUnmarkBlocks history.bitmap region.addr region.numBlocks).1 = .sOk ∧
          (kpmmUnmarkBlocks history.bitmap region.addr region.numBlocks).2.bits =
            history.bitmap.bits \ region.blocks) := by
  obtain ⟨ledger, refines⟩ := KpmmHistory.refines_of_run run
  refine ⟨?_, refines.leakedApart, ?_, ?_, refines.inside, ?_, ?_⟩
  · rw [refines.marked, Ledger.used, refines.reserved, refines.live]
  · rw [← refines.reserved, refines.live]
    exact ledger.reservedApart
  · rw [refines.live]
    exact ledger.liveApart
  · intro numBlocks area marked result
    have spec := kpmmAlloc_spec history.bitmap numBlocks
    rw [result] at spec
    exact ⟨spec.1, spec.2.2⟩
  · intro region member
    exact kpmmUnmarkBlocks_marked (refines.used_of_live member)

/-- The first block after the reserved ones is allocated and freed again. -/
theorem kpmm_marked_blocks_owned_alloc_unmark :
    ∃ history, Run KpmmStep .start [.alloc 1, .unmark ⟨0x500000, 1⟩] history ∧
      history.bitmap.bits = reservedBlocks := by
  have outcome : (kpmmAlloc kpmmInit 1).1 = .ok 0x500000 := by rfl
  have allocated : KpmmStep .start (.alloc 1) ⟨(kpmmAlloc kpmmInit 1).2, [⟨0x500000, 1⟩], ∅⟩ :=
    .allocated (by decide) (by decide) (Prod.ext outcome rfl)
  have unmarked : KpmmStep ⟨(kpmmAlloc kpmmInit 1).2, [⟨0x500000, 1⟩], ∅⟩
      (.unmark ⟨0x500000, 1⟩) _ := .unmarked (by simp) rfl
  have run := Run.cons allocated (Run.single unmarked)
  exact ⟨_, run, by simpa using (kpmm_marked_blocks_owned run).1⟩

end Antonix
