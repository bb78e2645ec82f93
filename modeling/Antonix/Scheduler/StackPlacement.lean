import Antonix.MmVirt.Disjointness
import Antonix.Scheduler.Stacks

/-! # Where stacks are placed

A stack is placed a page below the lowest region that the process has, so that the
stacks of a process lie below all its other regions, one below the other, with a page
between them that is not mapped. -/

namespace Antonix.Threads

open Set

/-! ## The search -/

/-- What the place of a stack should be: it does not wrap, no region has an address in it, and
the page above it is not mapped. -/
structure StackPlaced (regions : List KVmmRegion) (size a : Nat) : Prop where
  below : a + size < 0xC0000000
  apart : ∀ r ∈ regions, Disjoint r.range (Ico a (a + size))
  guard : ∀ r ∈ regions, Disjoint r.range (Ico (a + size) (a + size + pageSize))

/-- The place is below all regions and the end of the search, with a page between. -/
structure StackBelow (regions : List KVmmRegion) (size a : Nat) : Prop where
  low : a + size + pageSize ≤ 0xBFFFF000
  apart : ∀ r ∈ regions, a + size + pageSize ≤ r.virtAddr

section

variable {regions : List KVmmRegion} {size a index : Nat}

theorem usage_stack_ne (usage : Nat) : usage ||| usageStack ≠ 0 := by
  intro zero
  cases (Nat.or_eq_zero_iff.mp zero).2

theorem lowestRegion_le : lowestRegion index regions ≤ index ∧
    ∀ r ∈ regions, lowestRegion index regions ≤ r.virtAddr := by
  induction regions generalizing index with
  | nil => exact ⟨Nat.le_refl _, fun r member => by contradiction⟩
  | cons r regions inductionHypothesis =>
    rw [lowestRegion, if_pos (usage_stack_ne r.usage)]
    by_cases lower : r.virtAddr < index
    · rw [if_pos lower]
      obtain ⟨first, later⟩ := @inductionHypothesis r.virtAddr
      exact ⟨by omega, List.forall_mem_cons.mpr ⟨first, later⟩⟩
    · rw [if_neg lower]
      obtain ⟨first, later⟩ := @inductionHypothesis index
      exact ⟨first, List.forall_mem_cons.mpr ⟨by omega, later⟩⟩

theorem StackBelow.placed (place : StackBelow regions size a) : StackPlaced regions size a where
  below := by
    have low := place.low
    simp only [pageSize] at low
    omega
  apart r member := by
    have apart := place.apart r member
    rw [KVmmRegion.range, Ico_disjoint_Ico]
    omega
  guard r member := by
    have apart := place.apart r member
    rw [KVmmRegion.range, Ico_disjoint_Ico]
    omega

/-- Where the sum does not wrap, the search ends below all regions or in a panic. -/
theorem find_below (fits : size + unmappedBarrier < 2 ^ 32)
    (found : schedFindProperStackLocation regions size = .ok a) : StackBelow regions size a := by
  obtain ⟨low, apart⟩ := @lowestRegion_le regions (0xC0000000 - 4096)
  rw [schedFindProperStackLocation, u32_of_lt fits] at found
  generalize lowestRegion (0xC0000000 - 4096) regions = index at low apart found
  split at found
  · contradiction
  · obtain rfl := Except.ok.inj found
    dsimp only [unmappedBarrier] at *
    have room : size + 0x1000 ≤ index := by omega
    have first : sub32 index size = index - size := sub32_of_le (by omega) (by omega)
    have second : sub32 (sub32 index size) 0x1000 = index - size - 0x1000 := by
      rw [first, sub32_of_le (by omega) (by omega)]
    refine ⟨?_, fun r member => ?_⟩
    · dsimp only [pageSize]
      omega
    · have below := apart r member
      dsimp only [pageSize]
      omega

/-- The size with which the sum is 0 is never refused, and the stack begins at a region. -/
theorem find_wraps : schedFindProperStackLocation regions 0xFFFFF000 =
    .ok (lowestRegion (0xC0000000 - 4096) regions) := by
  have low := (@lowestRegion_le regions (0xC0000000 - 4096)).1
  rw [schedFindProperStackLocation]
  generalize lowestRegion (0xC0000000 - 4096) regions = index at low
  have wrapped : u32 (0xFFFFF000 + unmappedBarrier) = 0 := rfl
  have whole : sub32 (sub32 index 0xFFFFF000) unmappedBarrier = index := by
    simp only [sub32, u32, unmappedBarrier]
    omega
  rw [wrapped, if_neg (Nat.not_lt_zero _), whole]

/-- For every table of regions and every size of whole pages, the place that is found is one for
a stack, if and only if the sum in the check does not wrap to 0. -/
theorem stackPlaced_iff (whole : size % pageSize = 0) (fits : size < 2 ^ 32) :
    (∀ a, schedFindProperStackLocation regions size = .ok a → StackPlaced regions size a) ↔
      size ≠ 0xFFFFF000 := by
  constructor
  · -- the place begins at a region or at the end of the search, and the size runs past both
    rintro law rfl
    have below := (law _ find_wraps).below
    omega
  · intro notWrapping a found
    apply StackBelow.placed
    apply find_below ?_ found
    dsimp only [pageSize, unmappedBarrier] at *
    omega

end

/-! ## Regions that lie below each other -/

/-- Each of the regions lies a page below those that come before it, as a stack does. -/
inductive StacksBelow : List KVmmRegion → List KVmmRegion → Prop
  | nil (regions : List KVmmRegion) : StacksBelow regions []
  | cons {regions later : List KVmmRegion} {r : KVmmRegion}
      (place : StackBelow regions r.regionSize r.virtAddr)
      (rest : StacksBelow (regions ++ [r]) later) : StacksBelow regions (r :: later)

section

variable {regions regions' placed later before after : List KVmmRegion} {r : KVmmRegion}
  {size a : Nat}

theorem StackBelow.mono (fewer : ∀ x ∈ regions', x ∈ regions) (place : StackBelow regions size a) :
    StackBelow regions' size a :=
  ⟨place.low, fun x member => place.apart x (fewer x member)⟩

theorem StacksBelow.mono (fewer : ∀ x ∈ regions', x ∈ regions)
    (below : StacksBelow regions placed) :
    StacksBelow regions' placed := by
  induction below generalizing regions' with
  | nil regions => exact .nil _
  | cons place rest inductionHypothesis =>
    apply StacksBelow.cons (place.mono fewer)
    apply inductionHypothesis
    intro x member
    rw [List.mem_append] at member ⊢
    exact member.imp_left (fewer x)

theorem StacksBelow.append (below : StacksBelow regions placed)
    (rest : StacksBelow (regions ++ placed) later) : StacksBelow regions (placed ++ later) := by
  induction below with
  | nil regions => rwa [List.append_nil] at rest
  | cons place _ inductionHypothesis =>
    apply StacksBelow.cons place
    apply inductionHypothesis
    rwa [List.append_assoc, List.singleton_append]

/-- Each of the regions is below those before it, and can be left out. -/
theorem StacksBelow.split (below : StacksBelow regions (before ++ r :: after)) :
    StackBelow (regions ++ before) r.regionSize r.virtAddr ∧
      StacksBelow regions (before ++ after) := by
  induction before generalizing regions with
  | nil =>
    cases below with
    | cons place rest =>
      rw [List.append_nil]
      exact ⟨place, rest.mono fun x member => List.mem_append_left _ member⟩
  | cons first before inductionHypothesis =>
    cases below with
    | cons place rest =>
      obtain ⟨here, without⟩ := inductionHypothesis rest
      rw [List.append_assoc, List.singleton_append] at here
      exact ⟨here, .cons place without⟩

theorem StacksBelow.mem (below : StacksBelow regions placed) (member : r ∈ placed) :
    StackBelow regions r.regionSize r.virtAddr := by
  obtain ⟨before, after, rfl⟩ := List.append_of_mem member
  exact below.split.1.mono fun x member => List.mem_append_left _ member

theorem StacksBelow.pairwise (below : StacksBelow regions placed) :
    placed.Pairwise fun x r => r.virtAddr + r.regionSize + pageSize ≤ x.virtAddr := by
  induction below with
  | nil regions => exact .nil
  | cons place rest inductionHypothesis =>
    apply List.Pairwise.cons ?_ inductionHypothesis
    intro x member
    exact (rest.mem member).apart _ (List.mem_append_right _ List.mem_cons_self)

end

/-- The page above a region. -/
def guardPage (r : KVmmRegion) : Set Nat :=
  Ico (r.virtAddr + r.regionSize) (r.virtAddr + r.regionSize + pageSize)

/-- The stacks end below `0xC0000000`, are disjoint from the other regions and from each other, and
no region has an address in the page above one of them. -/
structure StacksGuarded (regions placed : List KVmmRegion) : Prop where
  low : ∀ r ∈ placed, r.virtAddr + r.regionSize < 0xC0000000
  apart : ∀ r ∈ placed, ∀ x ∈ regions, Disjoint x.range r.range
  separate : placed.Pairwise fun x r => Disjoint x.range r.range
  guard : ∀ r ∈ placed, ∀ x ∈ regions ++ placed, Disjoint x.range (guardPage r)

theorem StacksBelow.guarded {regions placed : List KVmmRegion}
    (below : StacksBelow regions placed) : StacksGuarded regions placed where
  low r member := (below.mem member).placed.below
  apart r member := (below.mem member).placed.apart
  separate := by
    refine below.pairwise.imp fun {x r} order => ?_
    rw [KVmmRegion.range, KVmmRegion.range, Ico_disjoint_Ico]
    omega
  guard r member x inside := by
    obtain inside | inside := List.mem_append.mp inside
    · exact (below.mem member).placed.guard x inside
    · obtain ⟨before, after, rfl⟩ := List.append_of_mem member
      have order : x = r ∨ r.virtAddr + r.regionSize + pageSize ≤ x.virtAddr ∨
          x.virtAddr + x.regionSize + pageSize ≤ r.virtAddr := by
        rcases List.mem_append.mp inside with earlier | inside
        · exact .inr (.inl (below.split.1.apart x (List.mem_append_right _ earlier)))
        · rcases List.mem_cons.mp inside with same | later
          · exact .inl same
          · have ordered := (List.pairwise_append.mp below.pairwise).2.1
            exact .inr (.inr (List.rel_of_pairwise_cons ordered later))
      rw [KVmmRegion.range, guardPage, Ico_disjoint_Ico]
      rcases order with rfl | above | beneath <;> omega

end Antonix.Threads
