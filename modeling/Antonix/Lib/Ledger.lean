import Mathlib.Data.List.Perm.Basic
import Mathlib.Data.Set.Lattice
import Mathlib.Order.CompletePartialOrder

/-! # Ownership ledgers

The abstract model of an allocator.  Units of some type `α` (blocks, pages,
addresses) are either reserved for good, owned by exactly one live allocation,
or free.  `extent x` is the set of units that allocation `x` owns.

A `Ledger` carries the exclusiveness of ownership in its fields, so a ledger in
which two allocations share a unit cannot be built.  An allocator refines it
when the set it records as in use is `Ledger.used`. -/

/-- Which units are reserved and which allocations are live; no unit has two owners. -/
structure Ledger {ι α : Type*} (extent : ι → Set α) where
  reserved : Set α
  live : List ι
  reservedApart : ∀ x ∈ live, Disjoint reserved (extent x)
  liveApart : live.Pairwise fun x y => Disjoint (extent x) (extent y)

namespace Ledger

variable {ι α : Type*} {extent : ι → Set α}

/-- The units that are not free. -/
def used (ledger : Ledger extent) : Set α :=
  ledger.reserved ∪ ⋃ x ∈ ledger.live, extent x

/-- Nothing is live. -/
def empty (reserved : Set α) : Ledger extent where
  reserved := reserved
  live := []
  reservedApart := by simp
  liveApart := .nil

/-- Make an allocation of free units live. -/
def alloc (ledger : Ledger extent) (x : ι) (free : Disjoint (extent x) ledger.used) :
    Ledger extent where
  reserved := ledger.reserved
  live := x :: ledger.live
  reservedApart := by
    intro y member
    cases List.mem_cons.mp member with
    | inl newest =>
      subst newest
      exact (free.mono_right Set.subset_union_left).symm
    | inr older => exact ledger.reservedApart y older
  liveApart := by
    refine List.pairwise_cons.mpr ⟨fun y member => free.mono_right ?_, ledger.liveApart⟩
    exact (Set.subset_biUnion_of_mem (u := extent) member).trans Set.subset_union_right

/-- Reserve free units for good. -/
def reserve (ledger : Ledger extent) (units : Set α) (free : Disjoint units ledger.used) :
    Ledger extent where
  reserved := ledger.reserved ∪ units
  live := ledger.live
  reservedApart := by
    intro x member
    refine (ledger.reservedApart x member).union_left (free.mono_right ?_)
    exact (Set.subset_biUnion_of_mem (u := extent) member).trans Set.subset_union_right
  liveApart := ledger.liveApart

/-- Drop an allocation. -/
def free [DecidableEq ι] (ledger : Ledger extent) (x : ι) : Ledger extent where
  reserved := ledger.reserved
  live := ledger.live.erase x
  reservedApart := fun y member => ledger.reservedApart y (List.mem_of_mem_erase member)
  liveApart := ledger.liveApart.sublist List.erase_sublist

section projections

variable {ledger : Ledger extent} {x : ι} {units : Set α}

@[simp] theorem live_alloc {free : Disjoint (extent x) ledger.used} :
    (ledger.alloc x free).live = x :: ledger.live := rfl
@[simp] theorem reserved_reserve {free : Disjoint units ledger.used} :
    (ledger.reserve units free).reserved = ledger.reserved ∪ units := rfl
@[simp] theorem live_free [DecidableEq ι] : (ledger.free x).live = ledger.live.erase x := rfl

end projections

@[simp] theorem used_empty (reserved : Set α) :
    (empty reserved : Ledger extent).used = reserved := by
  simp [used, empty]

theorem used_of_live_nil {ledger : Ledger extent} (none : ledger.live = []) :
    ledger.used = ledger.reserved := by
  simp [used, none]

theorem used_alloc (ledger : Ledger extent) (x : ι) (free : Disjoint (extent x) ledger.used) :
    (ledger.alloc x free).used = ledger.used ∪ extent x := by
  ext unit
  simp only [used, alloc, Set.mem_union, Set.mem_iUnion, List.mem_cons, exists_prop]
  constructor
  · rintro (inReserved | ⟨y, rfl | older, owns⟩)
    · exact .inl (.inl inReserved)
    · exact .inr owns
    · exact .inl (.inr ⟨y, older, owns⟩)
  · rintro ((inReserved | ⟨y, older, owns⟩) | owns)
    · exact .inl inReserved
    · exact .inr ⟨y, .inr older, owns⟩
    · exact .inr ⟨x, .inl rfl, owns⟩

theorem used_reserve (ledger : Ledger extent) (units : Set α)
    (free : Disjoint units ledger.used) :
    (ledger.reserve units free).used = ledger.used ∪ units := by
  simp only [used, reserve]
  rw [Set.union_right_comm]

theorem extent_subset_used (ledger : Ledger extent) {x : ι} (member : x ∈ ledger.live) :
    extent x ⊆ ledger.used :=
  (Set.subset_biUnion_of_mem (u := extent) member).trans Set.subset_union_right

/-- What one allocation owns, no other live allocation owns. -/
theorem extent_apart_erase [DecidableEq ι] (ledger : Ledger extent) {x y : ι}
    (member : x ∈ ledger.live) (other : y ∈ ledger.live.erase x) :
    Disjoint (extent x) (extent y) := by
  have reordered := (List.perm_cons_erase member).pairwise_iff
    (R := fun x y => Disjoint (extent x) (extent y)) (fun apart => apart.symm)
  exact (List.pairwise_cons.mp (reordered.mp ledger.liveApart)).1 y other

/-- Dropping a live allocation frees its units and no others. -/
theorem used_free [DecidableEq ι] (ledger : Ledger extent) {x : ι} (member : x ∈ ledger.live) :
    (ledger.free x).used = ledger.used \ extent x := by
  ext unit
  have members : ∀ y, y ∈ ledger.live ↔ y = x ∨ y ∈ ledger.live.erase x := fun y => by
    rw [(List.perm_cons_erase member).mem_iff, List.mem_cons]
  simp only [used, free, Set.mem_sdiff, Set.mem_union, Set.mem_iUnion, exists_prop, members]
  constructor
  · rintro (inReserved | ⟨y, other, owns⟩)
    · exact ⟨.inl inReserved, Set.disjoint_left.mp (ledger.reservedApart x member) inReserved⟩
    · refine ⟨.inr ⟨y, .inr other, owns⟩, fun ownedByX => ?_⟩
      exact Set.disjoint_left.mp (ledger.extent_apart_erase member other) ownedByX owns
  · rintro ⟨inReserved | ⟨y, rfl | other, owns⟩, notX⟩
    · exact .inl inReserved
    · exact absurd owns notX
    · exact .inr ⟨y, other, owns⟩

end Ledger
