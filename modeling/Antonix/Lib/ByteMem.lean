import Mathlib.Algebra.Group.Nat.Defs
import Mathlib.Data.Set.Function
import Mathlib.Order.Interval.Set.Basic

/-! # Byte-addressed memory

Memory is a byte at every address.  A 32-bit word is four bytes, low byte
first.  Each way of writing has two lemmas: what is read back where it wrote,
and that it changed nothing elsewhere (`Set.EqOn` outside the bytes written). -/

/-- A byte at every address. -/
abbrev ByteMem := Nat → BitVec 8

namespace ByteMem

open Set

def load32 (memory : ByteMem) (a : Nat) : Nat :=
  (memory a).toNat + 2 ^ 8 * (memory (a + 1)).toNat + 2 ^ 16 * (memory (a + 2)).toNat +
    2 ^ 24 * (memory (a + 3)).toNat

def load16 (memory : ByteMem) (a : Nat) : Nat :=
  (memory a).toNat + 2 ^ 8 * (memory (a + 1)).toNat

def store8 (memory : ByteMem) (a v : Nat) : ByteMem := fun b =>
  if b = a then BitVec.ofNat 8 v else memory b

def store32 (memory : ByteMem) (a v : Nat) : ByteMem := fun b =>
  if b = a then BitVec.ofNat 8 v
  else if b = a + 1 then BitVec.ofNat 8 (v / 2 ^ 8)
  else if b = a + 2 then BitVec.ofNat 8 (v / 2 ^ 16)
  else if b = a + 3 then BitVec.ofNat 8 (v / 2 ^ 24)
  else memory b

/-- `memset(a, v, count)` -/
def fill (memory : ByteMem) (a v count : Nat) : ByteMem := fun b =>
  if a ≤ b ∧ b < a + count then BitVec.ofNat 8 v else memory b

/-- `memcpy(dst, src, count)` for ranges that do not overlap. -/
def copy (memory : ByteMem) (dst src count : Nat) : ByteMem := fun b =>
  if dst ≤ b ∧ b < dst + count then memory (src + (b - dst)) else memory b

/-- A loop that copies byte by byte, from the low addresses up, in `bits` bits of address. -/
def copyUp (bits : Nat) (memory : ByteMem) (dst src : Nat) : Nat → ByteMem
  | 0 => memory
  | count + 1 =>
    copyUp bits (fun b => if b = dst % 2 ^ bits then memory (src % 2 ^ bits) else memory b)
      (dst + 1) (src + 1) count

theorem load32_lt (memory : ByteMem) (a : Nat) : memory.load32 a < 2 ^ 32 := by
  have b0 := (memory a).isLt
  have b1 := (memory (a + 1)).isLt
  have b2 := (memory (a + 2)).isLt
  have b3 := (memory (a + 3)).isLt
  unfold load32
  omega

/-! ## Reading back -/

theorem load32_store32 {memory : ByteMem} {a v : Nat} (fits : v < 2 ^ 32) :
    (memory.store32 a v).load32 a = v := by
  simp only [load32, store32, if_true, Nat.add_right_cancel_iff, BitVec.toNat_ofNat,
    show a + 1 ≠ a by omega, show a + 2 ≠ a by omega, show a + 3 ≠ a by omega,
    show a + 2 ≠ a + 1 by omega, show a + 3 ≠ a + 1 by omega, show a + 3 ≠ a + 2 by omega,
    if_false]
  omega

theorem store8_same {memory : ByteMem} {a v : Nat} :
    memory.store8 a v a = BitVec.ofNat 8 v := by
  simp [store8]

/-! ## What is not written stays -/

theorem store8_eqOn (memory : ByteMem) (a v : Nat) :
    EqOn (memory.store8 a v) memory {a}ᶜ := by
  intro b outside
  exact if_neg outside

theorem store32_eqOn (memory : ByteMem) (a v : Nat) :
    EqOn (memory.store32 a v) memory (Ico a (a + 4))ᶜ := by
  intro b outside
  simp only [mem_compl_iff, mem_Ico] at outside
  simp only [store32]
  rw [if_neg (by omega), if_neg (by omega), if_neg (by omega), if_neg (by omega)]

theorem fill_eqOn (memory : ByteMem) (a v count : Nat) :
    EqOn (memory.fill a v count) memory (Ico a (a + count))ᶜ := by
  intro b outside
  exact if_neg outside

theorem copy_eqOn (memory : ByteMem) (dst src count : Nat) :
    EqOn (memory.copy dst src count) memory (Ico dst (dst + count))ᶜ := by
  intro b outside
  exact if_neg outside

theorem store8_apply_of_ne {memory : ByteMem} {a b v : Nat} (apart : b ≠ a) :
    memory.store8 a v b = memory b :=
  store8_eqOn memory a v apart

theorem store32_apply_of_apart {memory : ByteMem} {a b v : Nat}
    (apart : a + 4 ≤ b ∨ b < a) : memory.store32 a v b = memory b :=
  store32_eqOn memory a v fun inside => by
    simp only [mem_Ico] at inside
    omega

/-- A word is determined by its four bytes. -/
theorem load32_congr {memory memory' : ByteMem} {a : Nat}
    (same : EqOn memory memory' (Ico a (a + 4))) : memory.load32 a = memory'.load32 a := by
  unfold load32
  rw [same ⟨by omega, by omega⟩, same (x := a + 1) ⟨by omega, by omega⟩,
    same (x := a + 2) ⟨by omega, by omega⟩, same (x := a + 3) ⟨by omega, by omega⟩]

theorem load32_store32_of_apart {memory : ByteMem} {a b v : Nat}
    (apart : a + 4 ≤ b ∨ b + 4 ≤ a) : (memory.store32 a v).load32 b = memory.load32 b := by
  refine load32_congr ((store32_eqOn memory a v).mono ?_)
  intro c inside outside
  simp only [mem_Ico] at inside outside
  omega

theorem load32_store8_of_apart {memory : ByteMem} {a b v : Nat}
    (apart : a < b ∨ b + 4 ≤ a) : (memory.store8 a v).load32 b = memory.load32 b := by
  refine load32_congr ((store8_eqOn memory a v).mono ?_)
  rintro c inside rfl
  simp only [mem_Ico] at inside
  omega

end ByteMem
