import Antonix.MmSkheap.Ownership

/-! # Whether an allocation fits in its blocks

`skheap_malloc_a` reserves as many blocks as `skheap_malloc` would, but puts the
payload a whole block in instead of 16 bytes.  The reservation covers the payload
when the size is a multiple of the block size or lacks at most 16 bytes to one;
every other size runs past the last block, by up to 239 bytes. -/

namespace Antonix

open Bitmap Set Transition

namespace SkhAllocation

/-- The bytes of the allocation's blocks. -/
def blockBytes (regionStart : Nat) (alloc : SkhAllocation) : Set Nat :=
  Ico (regionStart + alloc.blockId regionStart * skheapBlockSize)
    (regionStart + (alloc.blockId regionStart + alloc.numBlocks) * skheapBlockSize)

/-- Payload and control structure lie in the allocation's own blocks. -/
def Contained (regionStart : Nat) (alloc : SkhAllocation) : Prop :=
  alloc.controlBytes ∪ alloc.payload ⊆ alloc.blockBytes regionStart

/-- A size for which the blocks that `skheap_malloc_a` reserves reach the end of the payload. -/
def coveredSize (size : Int) : Prop :=
  size % skheapBlockSize = 0 ∨ skheapBlockSize - skhControlSize ≤ size % skheapBlockSize

instance (size : Int) : Decidable (coveredSize size) :=
  inferInstanceAs (Decidable (_ ∨ _))

variable {regionStart : Nat} {alloc other : SkhAllocation}

/-- The header arithmetic: where the payload ends, against where the blocks end. -/
theorem Placed.contained_iff (placed : alloc.Placed regionStart) :
    alloc.Contained regionStart ↔ (alloc.aligned = true → coveredSize alloc.size) := by
  have positive := placed.positive
  have place := placed.place
  have numBlocks := placed.numBlocks_eq
  have control : alloc.controlBytes ⊆ alloc.blockBytes regionStart := by
    have := alloc.padding_le
    refine Ico_subset_Ico (by omega) ?_
    simp only [skhControlSize, skheapBlockSize] at *
    omega
  have nonempty : alloc.ptr < alloc.ptr + alloc.size.toNat := by omega
  rw [Contained, union_subset_iff, and_iff_right control, payload, blockBytes,
    Ico_subset_Ico_iff nonempty]
  cases kind : alloc.aligned with
  | false =>
    have padding : alloc.padding = 0 := by rw [padding, kind]; rfl
    simp only [false_imp_iff, iff_true, reduceCtorEq, skhControlSize, skheapBlockSize] at *
    omega
  | true =>
    have padding : alloc.padding = skheapBlockSize - skhControlSize := by rw [padding, kind]; rfl
    simp only [true_imp_iff, coveredSize, skhControlSize, skheapBlockSize] at *
    omega

theorem blockBytes_disjoint
    (apart : Disjoint (alloc.blocks regionStart) (other.blocks regionStart)) :
    Disjoint (alloc.blockBytes regionStart) (other.blockBytes regionStart) := by
  rw [disjoint_left] at apart ⊢
  intro b inAlloc inOther
  -- a byte of both lies in a block of both
  have block : ∀ x : SkhAllocation, b ∈ x.blockBytes regionStart →
      (b - regionStart) / skheapBlockSize ∈ x.blocks regionStart := by
    intro x inside
    simp only [blockBytes, blocks, mem_Ico, skheapBlockSize] at inside ⊢
    omega
  exact apart (block _ inAlloc) (block _ inOther)

theorem Contained.payload_disjoint (contained : alloc.Contained regionStart)
    (otherContained : other.Contained regionStart)
    (apart : Disjoint (alloc.blocks regionStart) (other.blocks regionStart)) :
    Disjoint alloc.payload other.payload :=
  (blockBytes_disjoint apart).mono (subset_union_right.trans contained)
    (subset_union_right.trans otherContained)

end SkhAllocation

/-! ## Histories whose aligned requests have covered sizes -/

/-- Aligned requests ask for covered sizes, and stores go to the payload of a live
allocation. -/
def SkhHistory.coveredCall (history : SkhHistory) : SkhCall → Prop
  | .mallocA size => SkhAllocation.coveredSize size
  | .poke addr _ => ∃ alloc ∈ history.live, addr ∈ alloc.payload
  | _ => True

/-- Every live allocation is contained in its blocks, and its control structure is intact. -/
structure SkhHistory.Sound (regionStart : Nat) (history : SkhHistory) : Prop where
  owned : ∃ ledger : Ledger (SkhAllocation.blocks regionStart), history.Owned ledger
  intact : ∀ alloc ∈ history.live, history.heap.Intact alloc
  contained : ∀ alloc ∈ history.live, alloc.Contained regionStart

section

variable {regionStart : Nat} {history history' : SkhHistory}

/-- A granted request keeps the history sound if the new allocation is contained. -/
theorem SkhHistory.Sound.grant {alloc : SkhAllocation} {heap' : SkHeap}
    (sound : history.Sound regionStart) (grant : SkhGrant history.heap alloc heap')
    (covered : alloc.aligned = true → SkhAllocation.coveredSize alloc.size) :
    Sound regionStart ⟨heap', alloc :: history.live⟩ := by
  obtain ⟨ledger, owned⟩ := sound.owned
  obtain ⟨ledger', -, owned'⟩ := owned.grant grant
  obtain rfl := owned.region
  refine ⟨⟨ledger', owned'⟩, ?_, ?_⟩
  · refine List.forall_mem_cons.mpr ⟨grant.intact, fun other member => ?_⟩
    -- the control structure is written to a block that no other allocation owns
    have apart : Disjoint (alloc.blocks history.heap.regionStart)
        (other.blocks history.heap.regionStart) := by
      refine grant.free.mono_right ?_
      rw [owned.marked]
      exact ledger.extent_subset_used (owned.live ▸ member)
    exact grant.intact_of_apart (owned.placed other member) apart (sound.intact other member)
  · exact List.forall_mem_cons.mpr
      ⟨grant.placed.contained_iff.mpr covered, sound.contained⟩

/-- A store to a contained payload reaches no control structure. -/
theorem SkhHistory.Sound.poke {addr value : Nat} (sound : history.Sound regionStart)
    {alloc : SkhAllocation} (member : alloc ∈ history.live) (inside : addr ∈ alloc.payload) :
    Sound regionStart
      ⟨{ history.heap with memory := history.heap.memory.store8 addr value }, history.live⟩ := by
  obtain ⟨ledger, owned⟩ := sound.owned
  refine ⟨⟨ledger, owned.region, owned.marked, owned.live, owned.placed⟩, ?_, sound.contained⟩
  intro other otherMember
  have outside : addr ∉ other.controlBytes := by
    by_cases same : alloc = other
    · subst same
      exact fun inControl => absurd inControl.2 (not_lt_of_ge inside.1)
    · intro inControl
      have apart : Disjoint (alloc.blocks regionStart) (other.blocks regionStart) :=
        ledger.extent_apart_erase (owned.live ▸ member)
          ((List.mem_erase_of_ne (Ne.symm same)).mpr (owned.live ▸ otherMember))
      exact disjoint_left.mp (SkhAllocation.blockBytes_disjoint apart)
        (sound.contained alloc member (.inr inside))
        (sound.contained other otherMember (.inl inControl))
  rw [SkHeap.Intact, ← sound.intact other otherMember]
  refine SkhControlStruct.load_congr fun b inStructure => ByteMem.store8_eqOn _ _ _ ?_
  rintro rfl
  refine outside ⟨inStructure.1, ?_⟩
  have place := (owned.placed other otherMember).place
  have := inStructure.2
  omega

/-- Every covered call keeps the history sound.  Frees need no guard: the control structures
are intact. -/
theorem SkhStep.sound {call : SkhCall} (step : SkhStep history call history')
    (covered : history.coveredCall call) (sound : history.Sound regionStart) :
    history'.Sound regionStart := by
  cases step with
  | malloc _ int32 result => exact sound.grant (skheapMalloc_grant int32 result) (by simp)
  | mallocA _ int32 result =>
    exact sound.grant (skheapMallocA_grant int32 result) fun _ => covered
  | mallocNull _ _ result =>
    obtain rfl := skheapMalloc_null result
    exact sound
  | mallocANull _ _ result =>
    obtain rfl := skheapMallocA_null result
    exact sound
  | @free alloc heap' member result =>
    obtain ⟨ledger, owned⟩ := sound.owned
    obtain ⟨bitmap, freed, -, owned'⟩ := owned.free member (sound.intact alloc member)
    rw [freed, Except.ok.injEq] at result
    subst result
    exact ⟨⟨_, owned'⟩, fun other left => sound.intact other (List.mem_of_mem_erase left),
      fun other left => sound.contained other (List.mem_of_mem_erase left)⟩
  | poke =>
    -- a payload that lies in its blocks is apart from all control structures
    obtain ⟨alloc, member, inside⟩ := covered
    exact sound.poke member inside

end

theorem SkhHistory.sound_of_run {start : SkHeap} {history : SkhHistory} {calls : List SkhCall}
    (run : Run (Guarded SkhHistory.coveredCall SkhStep) ⟨start, []⟩ calls history) :
    history.Sound start.regionStart := by
  refine run.invariant (SkhHistory.Sound start.regionStart) ?_ ?_
  · intro history call history' sound ⟨covered, step⟩
    exact step.sound covered sound
  · exact ⟨⟨.empty start.bitmap.bits, rfl, by rw [Ledger.used_empty], rfl, by simp⟩,
      by simp, by simp⟩

/-- As long as the aligned requests ask for covered sizes, every live allocation lies in the
blocks it marked and no two payloads overlap.  From any state so reached, an aligned
allocation lies in its blocks only if its own size is covered. -/
theorem skheap_payload_contained {region : SkheapRegion} {memory : ByteMem} {start : SkHeap}
    {history : SkhHistory} {calls : List SkhCall}
    (init : skheapInit region memory = .ok start)
    (run : Run (Guarded SkhHistory.coveredCall SkhStep) ⟨start, []⟩ calls history) :
    (∀ alloc ∈ history.live, alloc.Contained region.addr ∧
        alloc.blocks region.addr ⊆ history.heap.bitmap.bits)
    ∧ history.live.Pairwise (fun alloc other => Disjoint alloc.payload other.payload)
    ∧ ∀ size ptr heap', -2 ^ 31 ≤ size → size < 2 ^ 31 →
        skheapMallocA history.heap size = .ok (some ptr, heap') →
        (SkhAllocation.Contained region.addr ⟨ptr, size, true⟩ ↔
          SkhAllocation.coveredSize size) := by
  obtain ⟨fits, started⟩ := skheapInit_eq region memory
  rw [started, Except.ok.injEq] at init
  have sound := SkhHistory.sound_of_run run
  rw [show start.regionStart = region.addr by rw [← init]] at sound
  obtain ⟨ledger, owned⟩ := sound.owned
  refine ⟨?_, ?_, ?_⟩
  · intro alloc member
    refine ⟨sound.contained alloc member, ?_⟩
    rw [owned.marked]
    exact ledger.extent_subset_used (owned.live ▸ member)
  · have apart := ledger.liveApart
    rw [← owned.live] at apart
    exact apart.imp_of_mem fun {alloc other} member otherMember blocksApart =>
      (sound.contained alloc member).payload_disjoint (sound.contained other otherMember)
        blocksApart
  · intro size ptr heap' _ int32 result
    have placed := (skheapMallocA_grant int32 result).placed
    rw [owned.region] at placed
    simpa using placed.contained_iff

/-- A page table, then a plain allocation. -/
theorem skheap_payload_contained_page_table :
    ∃ history : SkhHistory,
      history.live = [⟨0xC0202010, 4000, false⟩, ⟨0xC0201000, 4096, true⟩] ∧
      history.live.Pairwise (fun alloc other => Disjoint alloc.payload other.payload) := by
  have init : skheapInit ⟨0xC0200000, rfl, by decide⟩ (fun _ => 0#8) =
      .ok ⟨0xC0200000, fun _ => 0#8, fun _ => 0#8, by decide⟩ := by rfl
  obtain ⟨heap, heap', table, plain⟩ : ∃ heap heap',
      skheapMallocA ⟨0xC0200000, fun _ => 0#8, fun _ => 0#8, by decide⟩ 4096 =
        .ok (some 0xC0201000, heap) ∧
      skheapMalloc heap 4000 = .ok (some 0xC0202010, heap') := ⟨_, _, by rfl, by rfl⟩
  have covered : SkhAllocation.coveredSize 4096 := by decide
  have run : Run (Guarded SkhHistory.coveredCall SkhStep)
      ⟨⟨0xC0200000, fun _ => 0#8, fun _ => 0#8, by decide⟩, []⟩ [.mallocA 4096, .malloc 4000]
      ⟨heap', [⟨0xC0202010, 4000, false⟩, ⟨0xC0201000, 4096, true⟩]⟩ :=
    .cons ⟨covered, .mallocA (by decide) (by decide) table⟩
      (.single ⟨trivial, .malloc (by decide) (by decide) plain⟩)
  exact ⟨_, rfl, (skheap_payload_contained init run).2.1⟩

/-- With other sizes payloads leave their blocks: the last 100 bytes of the aligned payload are the
control structure and the first bytes of the payload allocated next. -/
theorem skheap_payload_not_contained :
    ∃ (start : SkHeap) (history : SkhHistory),
      skheapInit ⟨0xC0200000, rfl, by decide⟩ (fun _ => 0#8) = .ok start ∧
      Run SkhStep ⟨start, []⟩ [.mallocA 8292, .malloc 4000] history ∧
      (¬∀ alloc ∈ history.live, alloc.Contained 0xC0200000) ∧
      ¬history.live.Pairwise (fun alloc other => Disjoint alloc.payload other.payload) := by
  obtain ⟨heap, heap', aligned, plain⟩ : ∃ heap heap',
      skheapMallocA ⟨0xC0200000, fun _ => 0#8, fun _ => 0#8, by decide⟩ 8292 =
        .ok (some 0xC0201000, heap) ∧
      skheapMalloc heap 4000 = .ok (some 0xC0203010, heap') := ⟨_, _, by rfl, by rfl⟩
  refine ⟨_, ⟨heap', [⟨0xC0203010, 4000, false⟩, ⟨0xC0201000, 8292, true⟩]⟩, rfl,
    .cons (.mallocA (by decide) (by decide) aligned)
      (.single (.malloc (by decide) (by decide) plain)), ?_, ?_⟩
  · intro contained
    have last : 0xC0203063 ∈ SkhAllocation.blockBytes 0xC0200000 ⟨0xC0201000, 8292, true⟩ :=
      contained ⟨0xC0201000, 8292, true⟩ (by simp) (.inr ⟨by decide, by decide⟩)
    exact absurd last.2 (by decide)
  · intro apart
    have shared := (List.pairwise_cons.mp apart).1 ⟨0xC0201000, 8292, true⟩ (by simp)
    have first : 0xC0203010 ∈ SkhAllocation.payload ⟨0xC0203010, 4000, false⟩ :=
      ⟨by decide, by decide⟩
    exact disjoint_left.mp shared first ⟨by decide, by decide⟩

end Antonix
