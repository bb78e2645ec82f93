import Antonix.Lib.Ledger
import Antonix.Lib.Transition
import Antonix.MmSkheap.Grant

/-! # Who owns the blocks of the static kernel heap

The histories of the heap: calls of both allocators with any `int32_t` size,
frees of live pointers, and stores by the rest of the kernel, which may hit any
byte of memory, control structures included.  A call that panics ends the
history, so a history has only calls that return.

`SkhHistory.Owned` is the refinement: the marked blocks are the used units of a
`Ledger` whose allocations are the live pointers. -/

namespace Antonix

open Bitmap Set Transition

structure SkhHistory where
  heap : SkHeap
  live : List SkhAllocation

inductive SkhCall where
  | malloc (size : Int)
  | mallocA (size : Int)
  | free (alloc : SkhAllocation)
  /-- A store by the owner of some payload, or by a stray pointer. -/
  | poke (addr value : Nat)

inductive SkhStep : SkhHistory → SkhCall → SkhHistory → Prop
  | malloc {history size ptr heap'} : -2 ^ 31 ≤ size → size < 2 ^ 31 →
      skheapMalloc history.heap size = .ok (some ptr, heap') →
      SkhStep history (.malloc size) ⟨heap', ⟨ptr, size, false⟩ :: history.live⟩
  | mallocNull {history size heap'} : -2 ^ 31 ≤ size → size < 2 ^ 31 →
      skheapMalloc history.heap size = .ok (none, heap') →
      SkhStep history (.malloc size) ⟨heap', history.live⟩
  | mallocA {history size ptr heap'} : -2 ^ 31 ≤ size → size < 2 ^ 31 →
      skheapMallocA history.heap size = .ok (some ptr, heap') →
      SkhStep history (.mallocA size) ⟨heap', ⟨ptr, size, true⟩ :: history.live⟩
  | mallocANull {history size heap'} : -2 ^ 31 ≤ size → size < 2 ^ 31 →
      skheapMallocA history.heap size = .ok (none, heap') →
      SkhStep history (.mallocA size) ⟨heap', history.live⟩
  | free {history alloc heap'} : alloc ∈ history.live →
      skheapFree history.heap (some alloc.ptr) = .ok heap' →
      SkhStep history (.free alloc) ⟨heap', history.live.erase alloc⟩
  | poke {history addr value} :
      SkhStep history (.poke addr value)
        ⟨{ history.heap with memory := history.heap.memory.store8 addr value }, history.live⟩

/-- Frees are of allocations whose control structures are intact. -/
def SkhHistory.freesIntact (history : SkhHistory) : SkhCall → Prop
  | .free alloc => history.heap.Intact alloc
  | _ => True

/-- The ledger that a history stands for. -/
structure SkhHistory.Owned {regionStart : Nat} (history : SkhHistory)
    (ledger : Ledger (SkhAllocation.blocks regionStart)) : Prop where
  region : history.heap.regionStart = regionStart
  marked : history.heap.bitmap.bits = ledger.used
  live : history.live = ledger.live
  placed : ∀ alloc ∈ history.live, alloc.Placed regionStart

section

variable {regionStart : Nat} {ledger : Ledger (SkhAllocation.blocks regionStart)}
  {history history' : SkhHistory}

theorem SkhHistory.Owned.grant {alloc : SkhAllocation} {heap' : SkHeap}
    (owned : history.Owned ledger) (grant : SkhGrant history.heap alloc heap') :
    ∃ ledger' : Ledger (SkhAllocation.blocks regionStart),
      ledger'.reserved = ledger.reserved ∧ Owned ⟨heap', alloc :: history.live⟩ ledger' := by
  obtain rfl := owned.region
  have free : Disjoint (alloc.blocks history.heap.regionStart) ledger.used :=
    owned.marked ▸ grant.free
  refine ⟨ledger.alloc alloc free, rfl, ?_⟩
  exact
    { region := grant.regionStart
      marked := by rw [grant.bits, Ledger.used_alloc, owned.marked]
      live := by rw [Ledger.live_alloc, owned.live]
      placed := List.forall_mem_cons.mpr ⟨grant.placed, owned.placed⟩ }

/-- Freeing an intact live allocation returns, and drops it from the ledger. -/
theorem SkhHistory.Owned.free {alloc : SkhAllocation} (owned : history.Owned ledger)
    (member : alloc ∈ history.live) (intact : history.heap.Intact alloc) :
    ∃ bitmap, skheapFree history.heap (some alloc.ptr) = .ok { history.heap with bitmap } ∧
      bitmap.bits = history.heap.bitmap.bits \ alloc.blocks regionStart ∧
      Owned ⟨{ history.heap with bitmap }, history.live.erase alloc⟩ (ledger.free alloc) := by
  obtain rfl := owned.region
  have inLedger : alloc ∈ ledger.live := owned.live ▸ member
  have marked : alloc.blocks history.heap.regionStart ⊆ history.heap.bitmap.bits := by
    rw [owned.marked]
    exact ledger.extent_subset_used inLedger
  obtain ⟨bitmap, freed, bits⟩ := skheapFree_live (owned.placed alloc member) intact marked
  refine ⟨bitmap, freed, bits, ?_⟩
  exact
    { region := rfl
      marked := by rw [bits, owned.marked, Ledger.used_free _ inLedger]
      live := by rw [Ledger.live_free, owned.live]
      placed := fun other otherMember =>
        owned.placed other (List.mem_of_mem_erase otherMember) }

/-- Every call is an operation of the ledger. -/
theorem SkhStep.owned {call : SkhCall} (step : SkhStep history call history')
    (freesIntact : history.freesIntact call) (owned : history.Owned ledger) :
    ∃ ledger' : Ledger (SkhAllocation.blocks regionStart),
      ledger'.reserved = ledger.reserved ∧ history'.Owned ledger' := by
  cases step with
  | malloc _ int32 result => exact owned.grant (skheapMalloc_grant int32 result)
  | mallocA _ int32 result => exact owned.grant (skheapMallocA_grant int32 result)
  | mallocNull _ _ result =>
    obtain rfl := skheapMalloc_null result
    exact ⟨ledger, rfl, owned⟩
  | mallocANull _ _ result =>
    obtain rfl := skheapMallocA_null result
    exact ⟨ledger, rfl, owned⟩
  | @free alloc heap' member result =>
    obtain ⟨bitmap, freed, -, owned'⟩ := owned.free member freesIntact
    rw [freed, Except.ok.injEq] at result
    subst result
    exact ⟨ledger.free alloc, rfl, owned'⟩
  | poke =>
    -- the ledger does not look at the memory
    exact ⟨ledger, rfl, ⟨owned.region, owned.marked, owned.live, owned.placed⟩⟩

end

/-- The ledger of every history that frees only intact allocations.  What `skheap_init`
marked stays reserved. -/
theorem SkhHistory.owned_of_run {start : SkHeap} {history : SkhHistory} {calls : List SkhCall}
    (run : Run (Guarded SkhHistory.freesIntact SkhStep) ⟨start, []⟩ calls history) :
    ∃ ledger : Ledger (SkhAllocation.blocks start.regionStart),
      ledger.reserved = start.bitmap.bits ∧ history.Owned ledger := by
  refine run.invariant (fun history => ∃ ledger : Ledger (SkhAllocation.blocks start.regionStart),
    ledger.reserved = start.bitmap.bits ∧ history.Owned ledger) ?_ ?_
  · rintro history call history' ⟨ledger, reserved, owned⟩ ⟨intact, step⟩
    obtain ⟨ledger', same, owned'⟩ := step.owned intact owned
    exact ⟨ledger', same.trans reserved, owned'⟩
  · exact ⟨.empty start.bitmap.bits, rfl,
      ⟨rfl, by rw [Ledger.used_empty], rfl, by simp⟩⟩

/-! ## Freeing everything -/

/-- Free the allocations one after the other. -/
def skheapFreeAll (heap : SkHeap) (order : List SkhAllocation) : Except Halt SkHeap :=
  order.foldlM (fun heap alloc => skheapFree heap (some alloc.ptr)) heap

/-- In whatever order the live allocations are freed, no free panics and only what is
reserved stays marked. -/
theorem skheapFreeAll_owned {regionStart : Nat} :
    ∀ {order : List SkhAllocation} {history : SkhHistory}
      {ledger : Ledger (SkhAllocation.blocks regionStart)},
      history.Owned ledger → order.Perm history.live →
      (∀ alloc ∈ history.live, history.heap.Intact alloc) →
      ∃ heap', skheapFreeAll history.heap order = .ok heap' ∧
        heap'.bitmap.bits = ledger.reserved
  | [], history, ledger, owned, perm, _ => by
    have nothing : ledger.live = [] := by rw [← owned.live, perm.nil_eq]
    exact ⟨history.heap, rfl, by rw [owned.marked, Ledger.used_of_live_nil nothing]⟩
  | alloc :: order, history, ledger, owned, perm, intact => by
    have member : alloc ∈ history.live := perm.mem_iff.mp List.mem_cons_self
    obtain ⟨bitmap, freed, -, owned'⟩ := owned.free member (intact alloc member)
    have rest : order.Perm (history.live.erase alloc) := by
      simpa using perm.erase alloc
    -- freeing writes no memory, so the other control structures stay intact
    obtain ⟨heap', freedAll, bits⟩ := skheapFreeAll_owned owned' rest
      fun other otherMember => intact other (List.mem_of_mem_erase otherMember)
    refine ⟨heap', ?_, bits⟩
    rw [skheapFreeAll, List.foldlM_cons, freed]
    exact freedAll

/-- The array is aligned, so `skheap_init` reserves nothing. -/
theorem skheapInit_eq (region : SkheapRegion) (memory : ByteMem) :
    ∃ fits, skheapInit region memory = .ok ⟨region.addr, fun _ => 0#8, memory, fits⟩ := by
  have aligned := region.aligned
  refine ⟨by have := region.fits; omega, ?_⟩
  rw [skheapInit, if_neg (by omega)]

/-- After every history without a panic the marked blocks are the disjoint union of the
live allocations' blocks and of what `skheap_init` reserved.  Freeing an intact live
pointer frees exactly the blocks from its true start on, and freeing all of them, in any
order, gives back the bitmap of `skheap_init`. -/
theorem skheap_marked_blocks_owned {region : SkheapRegion} {memory : ByteMem} {start : SkHeap}
    {history : SkhHistory} {calls : List SkhCall}
    (init : skheapInit region memory = .ok start)
    (run : Run (Guarded SkhHistory.freesIntact SkhStep) ⟨start, []⟩ calls history) :
    history.heap.bitmap.bits =
        start.bitmap.bits ∪ ⋃ alloc ∈ history.live, alloc.blocks region.addr
    ∧ (∀ alloc ∈ history.live, Disjoint start.bitmap.bits (alloc.blocks region.addr))
    ∧ history.live.Pairwise (fun alloc other =>
        Disjoint (alloc.blocks region.addr) (other.blocks region.addr))
    ∧ (∀ alloc ∈ history.live, history.heap.Intact alloc →
        ∃ bitmap, skheapFree history.heap (some alloc.ptr) = .ok { history.heap with bitmap } ∧
          bitmap.bits = history.heap.bitmap.bits \ alloc.blocks region.addr)
    ∧ ((∀ alloc ∈ history.live, history.heap.Intact alloc) →
        ∀ order : List SkhAllocation, order.Perm history.live →
          ∃ heap', skheapFreeAll history.heap order = .ok heap' ∧
            heap'.bitmap = start.bitmap) := by
  obtain ⟨fits, started⟩ := skheapInit_eq region memory
  rw [started, Except.ok.injEq] at init
  obtain ⟨ledger, reserved, owned⟩ := SkhHistory.owned_of_run run
  rw [show region.addr = start.regionStart by rw [← init]]
  refine ⟨?_, ?_, ?_, ?_, ?_⟩
  · rw [owned.marked, Ledger.used, reserved, owned.live]
  · rw [← reserved, owned.live]
    exact ledger.reservedApart
  · rw [owned.live]
    exact ledger.liveApart
  · intro alloc member intact
    obtain ⟨bitmap, freed, bits, -⟩ := owned.free member intact
    exact ⟨bitmap, freed, bits⟩
  · intro intact order perm
    obtain ⟨heap', freed, bits⟩ := skheapFreeAll_owned owned perm intact
    exact ⟨heap', freed, bits_injective (bits.trans reserved)⟩

/-- A plain and an aligned allocation; the aligned one is freed again. -/
theorem skheap_marked_blocks_owned_malloc_free :
    ∃ (start : SkHeap) (history : SkhHistory),
      skheapInit ⟨0xC0200000, rfl, by decide⟩ (fun _ => 0#8) = .ok start ∧
      history.live = [⟨0xC0200010, 100, false⟩] ∧
      history.heap.bitmap.bits = SkhAllocation.blocks 0xC0200000 ⟨0xC0200010, 100, false⟩ := by
  have init : skheapInit ⟨0xC0200000, rfl, by decide⟩ (fun _ => 0#8) =
      .ok ⟨0xC0200000, fun _ => 0#8, fun _ => 0#8, by decide⟩ := by rfl
  obtain ⟨heap, heap', plain, aligned⟩ : ∃ heap heap',
      skheapMalloc ⟨0xC0200000, fun _ => 0#8, fun _ => 0#8, by decide⟩ 100 =
        .ok (some 0xC0200010, heap) ∧
      skheapMallocA heap 4096 = .ok (some 0xC0201000, heap') := ⟨_, _, by rfl, by rfl⟩
  let allocated : SkhHistory := ⟨heap', [⟨0xC0201000, 4096, true⟩, ⟨0xC0200010, 100, false⟩]⟩
  have mallocs : Run (Guarded SkhHistory.freesIntact SkhStep)
      ⟨⟨0xC0200000, fun _ => 0#8, fun _ => 0#8, by decide⟩, []⟩ [.malloc 100, .mallocA 4096]
      allocated :=
    .cons ⟨trivial, .malloc (by decide) (by decide) plain⟩
      (.single ⟨trivial, .mallocA (by decide) (by decide) aligned⟩)
  have intact : allocated.freesIntact (.free ⟨0xC0201000, 4096, true⟩) :=
    (skheapMallocA_grant (by decide) aligned).intact
  obtain ⟨ledger, -, owned⟩ := SkhHistory.owned_of_run mallocs
  obtain ⟨bitmap, freed, -, -⟩ := owned.free List.mem_cons_self intact
  have run := mallocs.append (.single ⟨intact, .free List.mem_cons_self freed⟩)
  have marked := (skheap_marked_blocks_owned init run).1
  refine ⟨_, ⟨{ heap' with bitmap }, [⟨0xC0200010, 100, false⟩]⟩, init, rfl, ?_⟩
  simpa [allocated] using marked

end Antonix
