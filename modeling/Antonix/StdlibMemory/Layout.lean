import Mathlib.Data.List.Nodup
import Antonix.Lib.Tiling
import Antonix.StdlibMemory.Basic

/-! # Layouts of a heap, and what the two walks find

A heap in memory represents a list of blocks that tiles it, each with the header
that its place in the list calls for.  Both walks follow the list: the one of
`mm_allocate_block_from_heap` ends at the first block that is large enough or
exactly at the end of the heap, the one of `mm_free_block_from_heap` passes a
run of free blocks. -/

namespace Antonix

open Set

/-- A block of a heap: where its header is, how large its payload is, and whether it is free. -/
structure MmBlock where
  addr : Nat
  size : Nat
  free : Bool
  deriving DecidableEq, Repr

namespace MmBlock

variable (block : MmBlock)

/-- Header and payload together. -/
def len : Nat := mmControlSize + block.size

/-- The header that the block has in heap `id`. -/
def control (id : Nat) : MmControlBlock := ⟨id, mmMagic, block.size, 0, block.free⟩

def header : Set Nat := Ico block.addr (block.addr + mmControlSize)

def payload : Set Nat :=
  Ico (block.addr + mmControlSize) (block.addr + mmControlSize + block.size)

/-- The bytes of the block, header and payload. -/
def extent : Set Nat := Ico block.addr (block.addr + block.len)

variable {block}

theorem header_subset : block.header ⊆ block.extent :=
  Ico_subset_Ico_right (by rw [len]; omega)

theorem payload_subset : block.payload ⊆ block.extent :=
  Ico_subset_Ico (by omega) (by rw [len]; omega)

theorem header_outside {a b : Nat} (apart : block.addr + block.len ≤ a ∨ b ≤ block.addr) :
    block.header ⊆ (Ico a b)ᶜ := by
  intro x inside written
  have := inside.1; have := inside.2; have := written.1; have := written.2
  simp only [len] at apart
  omega

theorem header_disjoint_payload : Disjoint block.header block.payload :=
  disjoint_left.mpr fun _ inHeader inPayload => absurd inHeader.2 (not_lt_of_ge inPayload.1)

/-- The block can take a request: it is free and has room to be split. -/
def Suits (size : Nat) (block : MmBlock) : Prop :=
  block.free = true ∧ size + mmControlSize ≤ block.size

/-- The block passes the test of the walk, whose sum wraps around for sizes near `2 ^ 32`. -/
def Passes (size : Nat) (block : MmBlock) : Prop :=
  block.free = true ∧ u32 (size + mmControlSize) ≤ block.size

theorem passes_iff_suits {size : Nat} {block : MmBlock} (request : size + mmControlSize < 2 ^ 32) :
    block.Passes size ↔ block.Suits size := by
  rw [Passes, Suits, u32_of_lt request]

end MmBlock

/-- The blocks cover the addresses from the first to the last. -/
abbrev MmTiling : Nat → List MmBlock → Nat → Prop := Tiling MmBlock.addr MmBlock.len

/-- The headers in memory are those of the blocks. -/
def Headed (memory : ByteMem) (id : Nat) (blocks : List MmBlock) : Prop :=
  ∀ block ∈ blocks, MmControlBlock.load memory block.addr = block.control id

/-- The heap consists of the blocks. -/
structure MmHeapDescriptor.Represents (d : MmHeapDescriptor) (id : Nat) (memory : ByteMem)
    (blocks : List MmBlock) : Prop where
  size : d.size = defaultHeapSize
  fits : d.memory + d.size ≤ 2 ^ 32
  tiled : MmTiling d.memory blocks (d.memory + d.size)
  headed : Headed memory id blocks

/-- The bytes of the heap. -/
def MmHeapDescriptor.range (d : MmHeapDescriptor) : Set Nat :=
  Ico d.memory (d.memory + d.size)

theorem MmControlBlock.load_congr {memory memory' : ByteMem} {mcb : Nat}
    (same : EqOn memory memory' (Ico mcb (mcb + mmControlSize))) :
    load memory mcb = load memory' mcb := by
  have word : ∀ k ≤ 12, memory.load32 (mcb + k) = memory'.load32 (mcb + k) := fun k small =>
    ByteMem.load32_congr (same.mono (Ico_subset_Ico (by omega)
      (by simp only [mmControlSize]; omega)))
  have flag : memory (mcb + 16) = memory' (mcb + 16) :=
    same ⟨by omega, by simp only [mmControlSize]; omega⟩
  simp only [load, word 4 (by decide), word 8 (by decide), word 12 (by decide), flag]
  rw [show memory.load32 mcb = memory'.load32 mcb from word 0 (by decide)]

/-- Headers survive a change of memory that leaves their bytes alone. -/
theorem Headed.mono {memory memory' : ByteMem} {id : Nat} {blocks : List MmBlock}
    (headed : Headed memory id blocks)
    (same : ∀ block ∈ blocks, EqOn memory' memory block.header) : Headed memory' id blocks :=
  fun block member => (MmControlBlock.load_congr (same block member)).trans (headed block member)

/-! ## Addresses of blocks -/

section

variable {pos stop : Nat} {block : MmBlock} {blocks : List MmBlock}

/-- Within a heap the 32-bit address of a position tells whether it is the end. -/
theorem u32_eq_end_iff (before : pos ≤ stop) (small : stop < pos + 2 ^ 32) :
    u32 pos = u32 stop ↔ pos = stop := by
  simp only [u32]
  omega

theorem MmTiling.block_bounds (tiled : MmTiling pos (block :: blocks) stop) :
    block.addr = pos ∧ pos + mmControlSize + block.size ≤ stop := by
  cases tiled with
  | cons rest =>
    have := rest.le
    simp only [MmBlock.len] at this
    exact ⟨rfl, by omega⟩

theorem MmTiling.tail (tiled : MmTiling pos (block :: blocks) stop) :
    MmTiling (pos + mmControlSize + block.size) blocks stop := by
  cases tiled with
  | cons rest => rwa [Nat.add_assoc]

theorem MmTiling.cons (here : block.addr = pos)
    (rest : MmTiling (pos + mmControlSize + block.size) blocks stop) :
    MmTiling pos (block :: blocks) stop := by
  subst here
  exact Tiling.cons (by rwa [MmBlock.len, ← Nat.add_assoc])

theorem MmTiling.nil_iff : MmTiling pos [] stop ↔ pos = stop := by
  constructor
  · intro tiled
    cases tiled with
    | nil => rfl
  · rintro rfl
    exact .nil pos

end

/-! ## The walk of `mm_allocate_block_from_heap` -/

theorem mmScanLoop_spec {memory : ByteMem} {id size stop : Nat} (fits : stop ≤ 2 ^ 32) :
    ∀ {blocks : List MmBlock} {fuel pos : Nat}, MmTiling pos blocks stop →
      Headed memory id blocks → stop < pos + 2 ^ 32 → blocks.length < fuel →
      (mmScanLoop memory (u32 stop) size fuel (u32 pos) = .ok .heapEnd ∧
        ∀ block ∈ blocks, ¬block.Passes size) ∨
      ∃ front block back, blocks = front ++ block :: back ∧ block.Passes size ∧
        (∀ earlier ∈ front, ¬earlier.Passes size) ∧
        mmScanLoop memory (u32 stop) size fuel (u32 pos) = .ok (.found block.addr)
  | [], fuel + 1, pos, tiled, _, _, _ => by
    obtain rfl := MmTiling.nil_iff.mp tiled
    exact .inl ⟨by rw [mmScanLoop, if_pos rfl], by simp⟩
  | block :: blocks, fuel + 1, pos, tiled, headed, small, enough => by
    obtain ⟨here, below⟩ := tiled.block_bounds
    have header : MmControlBlock.load memory (u32 pos) = block.control id := by
      rw [u32_of_lt (by simp only [mmControlSize] at below; omega), ← here]
      exact headed block List.mem_cons_self
    have notEnd : u32 pos ≠ u32 stop := by
      rw [Ne, u32_eq_end_iff (by omega) small]
      simp only [mmControlSize] at below
      omega
    rw [mmScanLoop, if_neg notEnd]
    simp only [header, MmBlock.control, ne_eq, not_true, if_false]
    by_cases passes : block.free = true ∧ u32 (size + mmControlSize) ≤ block.size
    · refine .inr ⟨[], block, blocks, rfl, passes, by simp, ?_⟩
      rw [if_pos passes, u32_of_lt (by simp only [mmControlSize] at below; omega), here]
    · rw [if_neg passes]
      -- the next block starts where this one ends
      have next : u32 (u32 pos + (block.size + mmControlSize)) =
          u32 (pos + mmControlSize + block.size) := by
        simp only [u32]
        omega
      rw [next]
      cases mmScanLoop_spec fits tiled.tail
          (fun later member => headed later (List.mem_cons_of_mem _ member)) (by omega)
          (by simpa using enough) with
      | inl ended =>
        exact .inl ⟨ended.1, List.forall_mem_cons.mpr ⟨passes, ended.2⟩⟩
      | inr found =>
        obtain ⟨front, later, back, split, laterPasses, earlier, result⟩ := found
        refine .inr ⟨block :: front, later, back, by rw [split]; rfl, laterPasses, ?_, result⟩
        exact List.forall_mem_cons.mpr ⟨passes, earlier⟩

section

variable {d : MmHeapDescriptor} {id size : Nat} {memory : ByteMem} {blocks : List MmBlock}
  {block block' : MmBlock}

theorem MmHeapDescriptor.Represents.length_lt (heap : d.Represents id memory blocks) :
    blocks.length < d.size + 1 := by
  have few := heap.tiled.length_le (k := 1) fun block _ => by
    rw [MmBlock.len, mmControlSize]; omega
  omega

/-- The headers in memory determine the blocks. -/
theorem MmTiling.unique {stop : Nat} : ∀ {blocks blocks' : List MmBlock} {pos : Nat},
    MmTiling pos blocks stop → MmTiling pos blocks' stop → Headed memory id blocks →
      Headed memory id blocks' → blocks = blocks'
  | [], [], _, _, _, _, _ => rfl
  | [], block :: _, pos, tiled, tiled', _, _ => by
    have := MmTiling.nil_iff.mp tiled
    have := tiled'.block_bounds.2
    simp only [mmControlSize] at this
    omega
  | block :: _, [], pos, tiled, tiled', _, _ => by
    have := MmTiling.nil_iff.mp tiled'
    have := tiled.block_bounds.2
    simp only [mmControlSize] at this
    omega
  | block :: blocks, block' :: blocks', pos, tiled, tiled', headed, headed' => by
    have here := tiled.block_bounds.1.trans tiled'.block_bounds.1.symm
    have header := headed block List.mem_cons_self
    rw [here, headed' block' List.mem_cons_self] at header
    simp only [MmBlock.control, MmControlBlock.mk.injEq, true_and] at header
    obtain rfl : block' = block := by
      cases block
      cases block'
      simp_all
    rw [MmTiling.unique tiled.tail tiled'.tail
      (fun later member => headed later (List.mem_cons_of_mem _ member))
      (fun later member => headed' later (List.mem_cons_of_mem _ member))]

theorem MmHeapDescriptor.Represents.unique {blocks' : List MmBlock}
    (heap : d.Represents id memory blocks) (heap' : d.Represents id memory blocks') :
    blocks = blocks' := heap.tiled.unique heap'.tiled heap.headed heap'.headed

theorem MmHeapDescriptor.Represents.block_bounds (heap : d.Represents id memory blocks)
    (member : block ∈ blocks) :
    block.addr + mmControlSize + block.size ≤ 2 ^ 32 ∧ block.size ≤ defaultHeapSize := by
  obtain ⟨low, high⟩ := heap.tiled.inside block member
  have fits := heap.fits
  have whole := heap.size
  simp only [MmBlock.len] at high
  exact ⟨by omega, by omega⟩

theorem MmHeapDescriptor.Represents.eq_of_addr (heap : d.Represents id memory blocks)
    (member : block ∈ blocks) (member' : block' ∈ blocks) (same : block.addr = block'.addr) :
    block = block' := by
  by_contra differ
  have apart := heap.tiled.apart member member' differ
  simp only [MmBlock.len, mmControlSize] at apart
  omega

/-- A block has one place in the heap. -/
theorem MmHeapDescriptor.Represents.once {front back : List MmBlock}
    (heap : d.Represents id memory blocks) (split : blocks = front ++ block :: back) :
    block ∉ front ∧ block ∉ back := by
  have nodup := heap.tiled.nodup fun block => by rw [MmBlock.len, mmControlSize]; omega
  rw [split, List.nodup_middle, List.nodup_cons, List.mem_append, not_or] at nodup
  exact nodup.1

theorem MmHeapDescriptor.Represents.front_unique {front front' back back' : List MmBlock}
    (heap : d.Represents id memory blocks) (split : blocks = front ++ block :: back)
    (split' : blocks = front' ++ block :: back') : front = front' := by
  obtain ⟨notFront, notBack⟩ := heap.once split
  exact ((List.append_cons_inj_of_notMem notFront notBack).mp (split.symm.trans split')).1

/-- The walk over a heap that consists of blocks never meets a corrupted one: it finds the
first that passes the test, or ends exactly at the end of the heap. -/
theorem mmScan_passes (heap : d.Represents id memory blocks) (size : Nat) :
    (mmScan memory d size = .ok .heapEnd ∧ ∀ block ∈ blocks, ¬block.Passes size) ∨
    ∃ front block back, blocks = front ++ block :: back ∧ block.Passes size ∧
      (∀ earlier ∈ front, ¬earlier.Passes size) ∧
      mmScan memory d size = .ok (.found block.addr) := by
  have small : d.size < 2 ^ 32 := by rw [heap.size]; decide
  have walk := @mmScanLoop_spec memory id size _ heap.fits _ _ _ heap.tiled heap.headed (by omega)
    heap.length_lt
  have start : u32 d.memory = d.memory := by
    have := heap.fits
    have := heap.size
    simp only [defaultHeapSize] at this
    exact u32_of_lt (by omega)
  rwa [start] at walk

/-- For requests that do not wrap around, that is the first block that suits. -/
theorem mmScan_spec (heap : d.Represents id memory blocks)
    (request : size + mmControlSize < 2 ^ 32) :
    (mmScan memory d size = .ok .heapEnd ∧ ∀ block ∈ blocks, ¬block.Suits size) ∨
    ∃ front block back, blocks = front ++ block :: back ∧ block.Suits size ∧
      (∀ earlier ∈ front, ¬earlier.Suits size) ∧
      mmScan memory d size = .ok (.found block.addr) := by
  have walk := mmScan_passes heap size
  simpa only [MmBlock.passes_iff_suits request] using walk

end

/-! ## The walk of `mm_free_block_from_heap` -/

/-- The walk passes all free blocks up to the next one that is not and adds up their lengths.  It
gives up at once when there are blocks to walk over and the heap ends at the top of the address
space, so that its end address is 0. -/
theorem mmMergeLoop_spec {memory : ByteMem} {id stop : Nat} (fits : stop ≤ 2 ^ 32) :
    ∀ (expandSize : Nat) {blocks : List MmBlock} {fuel pos : Nat}, MmTiling pos blocks stop →
      Headed memory id blocks → stop < pos + 2 ^ 32 → blocks.length < fuel →
      (mmMergeLoop memory (u32 stop) fuel (u32 pos) (u32 expandSize) = .ok none ∧
        stop = 2 ^ 32 ∧ pos < stop) ∨
      (stop = 2 ^ 32 → pos = stop) ∧ ∃ run back pos', blocks = run ++ back ∧
        (∀ block ∈ run, block.free = true) ∧
        (∀ block ∈ back.head?, block.free = false) ∧ MmTiling pos run pos' ∧
        mmMergeLoop memory (u32 stop) fuel (u32 pos) (u32 expandSize) =
          .ok (some (u32 (expandSize + (pos' - pos))))
  | expandSize, [], fuel + 1, pos, tiled, _, _, _ => by
    obtain rfl := MmTiling.nil_iff.mp tiled
    refine .inr ⟨fun _ => rfl, [], [], pos, rfl, by simp, by simp, .nil pos, ?_⟩
    rw [mmMergeLoop, if_pos rfl, Nat.sub_self, Nat.add_zero]
  | expandSize, block :: blocks, fuel + 1, pos, tiled, headed, small, enough => by
    obtain ⟨here, below⟩ := tiled.block_bounds
    simp only [mmControlSize] at below
    have header : MmControlBlock.load memory (u32 pos) = block.control id := by
      rw [u32_of_lt (by omega), ← here]
      exact headed block List.mem_cons_self
    have notEnd : u32 pos ≠ u32 stop := by
      rw [Ne, u32_eq_end_iff (by omega) small]
      omega
    rw [mmMergeLoop, if_neg notEnd]
    by_cases passed : u32 stop < u32 pos
    · -- only an end address of 0 lies before a block
      refine .inl ⟨by rw [if_pos (.inl passed)], ?_⟩
      simp only [u32] at passed
      omega
    · have below_top : stop = 2 ^ 32 → pos = stop := by
        rintro rfl
        simp only [u32] at passed
        omega
      simp only [header, MmBlock.control, passed, ne_eq, not_true, and_false, or_self, if_false]
      by_cases free : block.free = true
      · have next : u32 (u32 pos + mmControlSize + block.size + 0) =
            u32 (pos + mmControlSize + block.size) := by
          simp only [u32, mmControlSize]
          omega
        simp only [free, Bool.not_true, Bool.false_eq_true, if_false, next, u32_add_left]
        cases mmMergeLoop_spec fits (expandSize + (block.size + mmControlSize)) tiled.tail
            (fun later member => headed later (List.mem_cons_of_mem _ member))
            (by omega) (by simpa using enough) with
        | inl gaveUp => exact .inl ⟨gaveUp.1, gaveUp.2.1, by omega⟩
        | inr merged =>
          obtain ⟨-, run, back, pos', split, runFree, stopped, runTiled, result⟩ := merged
          have := runTiled.le
          refine .inr ⟨below_top, block :: run, back, pos', by rw [split]; rfl,
            List.forall_mem_cons.mpr ⟨free, runFree⟩, stopped, .cons here runTiled, ?_⟩
          rw [result]
          congr 3
          simp only [mmControlSize] at *
          omega
      · refine .inr ⟨below_top, [], block :: blocks, pos, rfl, by simp, by simpa using free,
          .nil pos, ?_⟩
        simp [free]

end Antonix
