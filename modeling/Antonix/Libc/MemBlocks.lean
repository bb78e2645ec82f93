import Antonix.Drivers.IsoDescriptors
import Antonix.Lib.OverlappingCopy

/-! # Blocks of memory (`libc/string.c`)

`memcmp` does not go on to the next bytes, so that it sees no difference behind the first ones.
`memmove` is `memcpy`, which copies upwards whatever the ranges are. -/

namespace Antonix.Libc

open Drivers ByteMem

/-! ## Comparing -/

/-- `memcmp` compares the first `num` bytes of two blocks: it returns 0 if and only if they are the
same, and else the sign is that of the first bytes that differ. -/
def Compares (ptr1 ptr2 : List (BitVec 8)) (num : Nat) : Prop :=
  ∃ result, memcmp ptr1 ptr2 num = .ok result ∧
    (result = 0 ↔ ptr1.take num = ptr2.take num) ∧
    ∀ same c1 c2 rest1 rest2, ptr1.take num = same ++ c1 :: rest1 →
      ptr2.take num = same ++ c2 :: rest2 → c1 ≠ c2 →
      (0 < result ↔ c2 < c1) ∧ (result < 0 ↔ c1 < c2)

/-- The sign of a comparison. -/
theorem sign_of_differ {c1 c2 : BitVec 8} (differ : c1 ≠ c2) :
    (0 < (if c1 > c2 then 1 else -1 : Int) ↔ c2 < c1) ∧
      ((if c1 > c2 then 1 else -1 : Int) < 0 ↔ c1 < c2) := by
  have apart : c1.toNat ≠ c2.toNat := fun same => differ (BitVec.eq_of_toNat_eq same)
  simp only [BitVec.lt_def, gt_iff_lt]
  by_cases greater : c2.toNat < c1.toNat
  · rw [if_pos greater]
    omega
  · rw [if_neg greater]
    omega

/-- Nothing is seen behind first bytes that are the same. -/
theorem compares_same {p : BitVec 8} {rest1 rest2 : List (BitVec 8)} (num : Nat) :
    Compares (p :: rest1) (p :: rest2) (num + 1) ↔
      (p :: rest1).take (num + 1) = (p :: rest2).take (num + 1) := by
  rw [Compares, memcmp_first, if_pos rfl]
  constructor
  · intro ⟨result, returned, same, _⟩
    exact same.mp (Except.ok.inj returned).symm
  · intro equal
    refine ⟨0, rfl, by simp [equal], ?_⟩
    intro same c1 c2 rest1' rest2' split1 split2 differ
    rw [equal, split2] at split1
    have behind := List.append_cancel_left split1
    exact absurd (List.cons.inj behind).1.symm differ

/-- First bytes that differ are the first bytes that differ. -/
theorem compares_other {p1 p2 : BitVec 8} {rest1 rest2 : List (BitVec 8)} (differ : p1 ≠ p2)
    (num : Nat) : Compares (p1 :: rest1) (p2 :: rest2) (num + 1) := by
  obtain ⟨greater, less⟩ := sign_of_differ differ
  rw [Compares, memcmp_first, if_neg differ]
  refine ⟨_, rfl, ?_, ?_⟩
  · constructor
    · intro zero
      split at zero
      · contradiction
      · contradiction
    · intro equal
      exact absurd (List.cons.inj equal).1 differ
  · intro same c1 c2 rest1' rest2' split1 split2 _
    rw [List.take_succ_cons] at split1 split2
    cases same with
    | nil =>
      obtain ⟨rfl, _⟩ := List.cons.inj split1
      obtain ⟨rfl, _⟩ := List.cons.inj split2
      exact ⟨greater, less⟩
    | cons c same =>
      -- the first bytes would be the same
      have head1 := (List.cons.inj split1).1
      have head2 := (List.cons.inj split2).1
      exact absurd (head1.trans head2.symm) differ

/-- Blocks are compared where their first bytes tell them apart, or nothing does. -/
theorem memcmp_compares_iff (ptr1 ptr2 : List (BitVec 8)) (num : Nat) (whole1 : num ≤ ptr1.length)
    (whole2 : num ≤ ptr2.length) :
    Compares ptr1 ptr2 num ↔ ptr1.take num = ptr2.take num ∨ ptr1.head? ≠ ptr2.head? := by
  cases num with
  | zero =>
    constructor
    · intro _
      exact .inl rfl
    · intro _
      refine ⟨0, rfl, by simp, ?_⟩
      intro same c1 c2 rest1 rest2 split1
      simp at split1
  | succ num =>
    cases ptr1 with
    | nil => contradiction
    | cons p1 rest1 =>
      cases ptr2 with
      | nil => contradiction
      | cons p2 rest2 =>
        by_cases first : p1 = p2
        · subst first
          rw [compares_same]
          simp
        · constructor
          · intro _
            right
            simpa using first
          · intro _
            exact compares_other first num

/-- Blocks that differ in their first bytes. -/
theorem memcmp_compares_first : Compares [0x43, 0x44] [0x58, 0x44] 2 :=
  (memcmp_compares_iff [0x43, 0x44] [0x58, 0x44] 2 (by decide) (by decide)).mpr (.inr (by decide))

/-- A header that begins like the magic is taken for it. -/
theorem memcmp_not_always : ¬ ∀ (ptr1 ptr2 : List (BitVec 8)) (num : Nat), num ≤ ptr1.length →
    num ≤ ptr2.length → Compares ptr1 ptr2 num := by
  intro compares
  obtain ⟨result, returned, same, _⟩ :=
    compares [0x43, 0x58, 0x58, 0x58, 0x58] isoMagic 5 (by decide) (by decide)
  have zero : memcmp [0x43, 0x58, 0x58, 0x58, 0x58] isoMagic 5 = .ok 0 := rfl
  rw [zero] at returned
  have equal := same.mp (Except.ok.inj returned).symm
  simp [isoMagic] at equal

/-! ## Moving -/

/-- `memcpy`, with what it returns. -/
def memcpy (memory : ByteMem) (dst src count : Nat) : Nat × ByteMem :=
  if count = 0 then (dst, memory) else (dst, memory.copyUp 32 dst src count)

/-- `memmove` -/
def memmove (memory : ByteMem) (dst src count : Nat) : Nat × ByteMem := memcpy memory dst src count

/-- The bytes are moved where the destination is not above the source, where the ranges do not
overlap, and where the source repeats itself at their distance. -/
theorem memmove_moves_iff (memory : ByteMem) (dst src count : Nat) (dstFits : dst + count ≤ 2 ^ 32)
    (srcFits : src + count ≤ 2 ^ 32) :
    Copied memory (memmove memory dst src count).2 dst src count ↔
      dst ≤ src ∨ src + count ≤ dst ∨ Repeats memory src (dst - src) count := by
  have moved : (memmove memory dst src count).2 = memory.copyUp 32 dst src count := by
    rw [memmove, memcpy]
    cases count with
    | zero => rfl
    | succ count => rw [if_neg (Nat.succ_ne_zero count)]
  rw [moved]
  exact copied_copyUp_iff dstFits srcFits

/-- Three bytes are moved down by one. -/
theorem memmove_moves_down :
    Copied (BitVec.ofNat 8) (memmove (BitVec.ofNat 8) 16 17 3).2 16 17 3 :=
  (memmove_moves_iff (BitVec.ofNat 8) 16 17 3 (by decide) (by decide)).mpr (.inl (by decide))

/-- Two bytes that are moved up by one are the first of them twice. -/
theorem memmove_not_always : ¬ ∀ (memory : ByteMem) (dst src count : Nat),
    dst + count ≤ 2 ^ 32 → src + count ≤ 2 ^ 32 →
    Copied memory (memmove memory dst src count).2 dst src count := by
  intro moves
  have wrong := (moves (BitVec.ofNat 8) 17 16 2 (by decide) (by decide)).inside 1 (by decide)
  revert wrong
  decide

end Antonix.Libc
