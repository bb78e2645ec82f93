import Antonix.Drivers.Fat16

/-! # The table of a FAT12 volume (`fat16.c`)

Two entries of a FAT12 table are three bytes: the byte in the middle has the low nibble of the
odd entry above the high nibble of the even one.  `fat16_fat_lookup` reads two bytes from where
the entry begins, and drops the nibble that belongs to its neighbour. -/

namespace Antonix.Drivers

open Buffer ByteMem

/-- The values of a FAT12 table, two of them in three bytes. -/
def packFat12 : List (BitVec 12) → List (BitVec 8)
  | [] => []
  | [even] => [BitVec.ofNat 8 even.toNat, BitVec.ofNat 8 (even.toNat / 256)]
  | even :: odd :: values =>
    BitVec.ofNat 8 even.toNat :: BitVec.ofNat 8 (even.toNat / 256 + odd.toNat % 16 * 16) ::
      BitVec.ofNat 8 (odd.toNat / 16) :: packFat12 values

example : packFat12 [0x123, 0x456, 0xABC] = [0x23, 0x61, 0x45, 0xBC, 0x0A] := rfl

/-- What a lookup makes of the two bytes from `base` and the offset of an entry on. -/
def fat12Entry (memory : ByteMem) (base i : Nat) : Nat :=
  if i % 2 = 0 then memory.load16 (base + (i + i / 2)) % 4096
  else memory.load16 (base + (i + i / 2)) / 16

/-- The value that a lookup returns. -/
def lookedUp (ctx : Fat16DrvContext) (i : Nat) : BitVec 12 :=
  match fat16FatLookup ctx i with
  | .ok (.ok value) => BitVec.ofNat 12 value
  | _ => 0

section

variable {ctx : Fat16DrvContext} {memory : ByteMem} {values : List (BitVec 12)} {base i : Nat}

theorem length_packFat12 (values : List (BitVec 12)) :
    (packFat12 values).length = values.length + (values.length + 1) / 2 := by
  induction values using packFat12.induct with
  | case1 => rfl
  | case2 even => simp [packFat12]
  | case3 even odd values inductionHypothesis =>
    simp only [packFat12, List.length_cons, inductionHypothesis]
    omega

/-- Three bytes further on, the entries are those behind the first two. -/
theorem fat12Entry_add_two (memory : ByteMem) (base i : Nat) :
    fat12Entry memory base (i + 2) = fat12Entry memory (base + 3) i := by
  have parity : (i + 2) % 2 = i % 2 := by omega
  have offset : base + (i + 2 + (i + 2) / 2) = base + 3 + (i + i / 2) := by omega
  rw [fat12Entry, fat12Entry, parity, offset]

/-- Every entry of a packed table is found again, by induction on the pairs of entries. -/
theorem fat12Entry_packFat12 (table : readAt memory base (packFat12 values).length = packFat12 values)
    (inside : i < values.length) : fat12Entry memory base i = values[i].toNat := by
  induction values using packFat12.induct generalizing base i with
  | case1 => simp at inside
  | case2 even =>
    obtain rfl : i = 0 := by simpa using inside
    have small := even.isLt
    have bytes : memory base = BitVec.ofNat 8 even.toNat ∧
        memory (base + 1) = BitVec.ofNat 8 (even.toNat / 256) := by
      simpa [packFat12, readAt, List.range_succ] using table
    rw [fat12Entry, if_pos rfl]
    simp only [load16, Nat.add_zero, Nat.zero_div, bytes, BitVec.toNat_ofNat,
      List.getElem_cons_zero]
    omega
  | case3 even odd values inductionHypothesis =>
    have smallEven := even.isLt
    have smallOdd := odd.isLt
    have split : (packFat12 (even :: odd :: values)).length = 3 + (packFat12 values).length := by
      simp only [packFat12, List.length_cons]
      omega
    rw [split, readAt_add] at table
    have pieces : readAt memory base 3 ++ readAt memory (base + 3) (packFat12 values).length =
        [BitVec.ofNat 8 even.toNat, BitVec.ofNat 8 (even.toNat / 256 + odd.toNat % 16 * 16),
          BitVec.ofNat 8 (odd.toNat / 16)] ++ packFat12 values := table
    have halves := List.append_inj pieces length_readAt
    have bytes : memory base = BitVec.ofNat 8 even.toNat ∧
        memory (base + 1) = BitVec.ofNat 8 (even.toNat / 256 + odd.toNat % 16 * 16) ∧
        memory (base + 2) = BitVec.ofNat 8 (odd.toNat / 16) := by
      simpa [readAt, List.range_succ] using halves.1
    obtain ⟨first, middle, last⟩ := bytes
    cases i with
    | zero =>
      -- the low nibble of the byte in the middle goes with the first
      rw [fat12Entry, if_pos rfl]
      simp only [load16, Nat.add_zero, Nat.zero_div, first, middle, BitVec.toNat_ofNat,
        List.getElem_cons_zero]
      omega
    | succ i =>
      cases i with
      | zero =>
        have offset : base + (0 + 1 + (0 + 1) / 2) = base + 1 := rfl
        rw [fat12Entry, if_neg (by simp), offset]
        simp only [load16, Nat.add_assoc, middle, last, BitVec.toNat_ofNat,
          List.getElem_cons_succ, List.getElem_cons_zero]
        omega
      | succ i =>
        rw [fat12Entry_add_two]
        exact inductionHypothesis halves.2 (by simpa using inside)

/-- A lookup of an index that is no end of a chain. -/
theorem fat16FatLookup_fat12 (type : ctx.fsType = .fat12) (index : i < 0xFF7) :
    fat16FatLookup ctx i = .ok (.ok (fat12Entry ctx.fatCache 0 i)) := by
  have goesOn : fatIsEndOfChain ctx i = .ok false := by
    simp only [fatIsEndOfChain, type]
    rw [decide_eq_false (by omega)]
  have offset : u32 (i + i / 2) = 0 + (i + i / 2) := by
    rw [u32_of_lt (by omega), Nat.zero_add]
  have mask : ∀ result : Nat, result &&& 0x0FFF = result % 4096 := fun result =>
    Nat.and_two_pow_sub_one_eq_mod result 12
  simp only [fat16FatLookup, goesOn, type, offset, mask, Nat.and_one_is_mod, fat12Entry, bind,
    Except.bind, Nat.shiftRight_eq_div_pow]
  by_cases even : i % 2 = 0
  · simp [even]
  · simp [even]

theorem lookedUp_packFat12 (type : ctx.fsType = .fat12)
    (table : readAt ctx.fatCache 0 (packFat12 values).length = packFat12 values)
    (inside : i < values.length) (index : i < 0xFF7) : lookedUp ctx i = values[i] := by
  rw [lookedUp, fat16FatLookup_fat12 type index, fat12Entry_packFat12 table inside]
  simp

/-- The looked-up values of the first entries are these entries. -/
theorem map_lookedUp (type : ctx.fsType = .fat12)
    (table : readAt ctx.fatCache 0 (packFat12 values).length = packFat12 values) {k : Nat}
    (inside : k ≤ values.length) (indices : k ≤ 0xFF7) :
    (List.range k).map (lookedUp ctx) = values.take k := by
  apply List.ext_getElem
  · simpa using inside
  · intro i below _
    have small : i < k := by simpa using below
    rw [List.getElem_map, List.getElem_range, List.getElem_take]
    exact lookedUp_packFat12 type table (by omega) (by omega)

end

/-- From a FAT12 table with a spare byte behind it every entry below the end-of-chain range is
looked up as it was packed, out of two bytes of the table or its spare byte, and the entries that
were looked up pack to the table again. -/
theorem fat12_roundtrip (ctx : Fat16DrvContext) (type : ctx.fsType = .fat12)
    (values : List (BitVec 12)) (spare : BitVec 8)
    (table : readAt ctx.fatCache 0 ((packFat12 values).length + 1) = packFat12 values ++ [spare]) :
    (∀ (i : Nat) (inside : i < values.length), i < 0xFF7 →
      fat16FatLookup ctx i = .ok (.ok values[i].toNat) ∧
      i + i / 2 + 1 < (packFat12 values).length + 1) ∧
    (∀ k ≤ values.length, k ≤ 0xFF7 →
      packFat12 ((List.range k).map (lookedUp ctx)) = packFat12 (values.take k)) ∧
    (values.length ≤ 0xFF7 →
      packFat12 ((List.range values.length).map (lookedUp ctx)) =
        readAt ctx.fatCache 0 (packFat12 values).length) := by
  rw [readAt_add] at table
  have table' := (List.append_inj table length_readAt).1
  refine ⟨?_, ?_, ?_⟩
  · intro i inside index
    rw [fat16FatLookup_fat12 type index, fat12Entry_packFat12 table' inside, length_packFat12]
    exact ⟨rfl, by omega⟩
  · intro k inside indices
    rw [map_lookedUp type table' inside indices]
  · intro indices
    rw [map_lookedUp type table' (Nat.le_refl _) indices, List.take_length, table']

/-- Three entries, the last of them alone in its bytes. -/
theorem fat12_roundtrip_three :
    packFat12 ((List.range 3).map (lookedUp ⟨512, 1, .fat12,
      fun a => [0x23, 0x61, 0x45, 0xBC, 0x0A].getD a 0xFF, 0, fun _ _ => .error .eFail⟩)) =
    [0x23, 0x61, 0x45, 0xBC, 0x0A] :=
  (fat12_roundtrip ⟨512, 1, .fat12, fun a => [0x23, 0x61, 0x45, 0xBC, 0x0A].getD a 0xFF, 0,
    fun _ _ => .error .eFail⟩ rfl [0x123, 0x456, 0xABC] 0xFF rfl).2.2 (by decide)

end Antonix.Drivers
