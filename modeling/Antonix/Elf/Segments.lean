import Antonix.Elf.Loader

/-! # One segment

The bytes of a segment reach the memory of the new process through a window that
translates to it, and the window is taken back.  A segment is loaded exactly when
its bytes are in the file, its rounded size does not wrap, and there is room for
it in both processes. -/

namespace Antonix.Elf

open Function Set Buffer Threads

/-! ## The bytes -/

section

variable {paging : Paging} {bytes : List (BitVec 8)} {addr phys size : Nat} {memory : ByteMem}

theorem storeBytes_returns (fits : addr + bytes.length < 2 ^ 32)
    (present : ∀ k < bytes.length, (paging.translate (addr + k)).isSome = true) :
    ∃ memory', storeBytes paging bytes addr memory = .ok memory' := by
  induction bytes generalizing addr memory with
  | nil => exact ⟨memory, rfl⟩
  | cons byte bytes inductionHypothesis =>
    rw [List.length_cons] at fits present
    obtain ⟨phys, here⟩ := Option.isSome_iff_exists.mp (present 0 (by omega))
    have next : u32 (addr + 1) = addr + 1 := u32_of_lt (by omega)
    rw [Nat.add_zero] at here
    rw [storeBytes, here, next]
    refine inductionHypothesis (by omega) fun k below => ?_
    rw [Nat.add_assoc, Nat.add_comm 1 k]
    exact present (k + 1) (by omega)

/-- Bytes stored through a mapping end up in the memory that it leads to. -/
theorem storeBytes_eq (fits : addr + bytes.length < 2 ^ 32)
    (mapped : ∀ k < bytes.length, paging.translate (addr + k) = some (phys + k)) :
    storeBytes paging bytes addr memory = .ok (writeAt memory phys bytes) := by
  induction bytes generalizing addr phys memory with
  | nil => rw [storeBytes, writeAt_nil]
  | cons byte bytes inductionHypothesis =>
    rw [List.length_cons] at fits mapped
    have here := mapped 0 (by omega)
    have next : u32 (addr + 1) = addr + 1 := u32_of_lt (by omega)
    have rest : ∀ k < bytes.length, paging.translate (addr + 1 + k) = some (phys + 1 + k) := by
      intro k below
      rw [Nat.add_assoc, Nat.add_assoc, Nat.add_comm 1 k]
      exact mapped (k + 1) (by omega)
    -- the first byte is a write of its own, which the others go on behind
    have written : update memory phys byte = writeAt memory phys [byte] := by
      funext a
      by_cases same : a = phys
      · rw [same, update_self]
        exact (@writeAt_inside _ memory phys 0 [byte] Nat.one_pos).symm
      · rw [update_of_ne same]
        exact (writeAt_outside (by rw [List.length_singleton]; omega)).symm
    rw [Nat.add_zero, Nat.add_zero] at here
    rw [storeBytes, here, next]
    dsimp only
    rw [inductionHypothesis (by omega) rest, written]
    have joined := @writeAt_append _ memory phys [byte] bytes
    rw [List.length_singleton] at joined
    rw [joined, List.singleton_append]

end

namespace KElfProgrHdr32

/-- The fields are 32 bits wide. -/
structure Fits (ph : KElfProgrHdr32) : Prop where
  pVaddr : ph.pVaddr < 2 ^ 32
  sizeInFile : ph.sizeInFile < 2 ^ 32
  sizeMem : ph.sizeMem < 2 ^ 32

/-- The bytes of the segment are in the buffer and in the pages that are mapped for it. -/
structure Contained (ph : KElfProgrHdr32) (buff : List (BitVec 8)) : Prop where
  inFile : ph.sizeInFile ≤ (ph.fileBytes buff).length
  notLonger : ph.sizeInFile ≤ ph.sizeMem
  inPages : ph.alignExcess + ph.sizeMem ≤ ph.size

/-- What the memory of the segment holds: the bytes of the file, then zeros. -/
def image (ph : KElfProgrHdr32) (buff : List (BitVec 8)) : List (BitVec 8) :=
  ph.fileBytes buff ++ List.replicate (ph.sizeMem - ph.sizeInFile) 0

variable {ph : KElfProgrHdr32} {buff : List (BitVec 8)}

theorem progrHdr_fits (buff : List (BitVec 8)) (offset : Nat) : (progrHdr buff offset).Fits :=
  ⟨LittleEndian.field_lt _ 4 _, LittleEndian.field_lt _ 4 _, LittleEndian.field_lt _ 4 _⟩

theorem newVaddr_add (ph : KElfProgrHdr32) : ph.newVaddr + ph.alignExcess = ph.pVaddr :=
  Nat.sub_add_cancel (Nat.mod_le _ _)

theorem newVaddr_aligned (ph : KElfProgrHdr32) : ph.newVaddr % pageSize = 0 := by
  simp only [newVaddr, alignExcess, pageSize]
  omega

theorem Fits.newVaddr (fits : ph.Fits) : ph.newVaddr < 2 ^ 32 :=
  Nat.lt_of_le_of_lt (Nat.sub_le _ _) fits.pVaddr

theorem size_lt (ph : KElfProgrHdr32) : ph.size < 2 ^ 32 := u32_lt _

theorem size_whole (ph : KElfProgrHdr32) : ph.size % pageSize = 0 := by
  simp only [size, u32, pageSize]
  omega

theorem length_fileBytes_le (ph : KElfProgrHdr32) (buff : List (BitVec 8)) :
    (ph.fileBytes buff).length ≤ ph.sizeInFile := List.length_take_le _ _

theorem Contained.length_fileBytes (contained : ph.Contained buff) :
    (ph.fileBytes buff).length = ph.sizeInFile :=
  Nat.le_antisymm (ph.length_fileBytes_le buff) contained.inFile

theorem Contained.length_image (contained : ph.Contained buff) :
    (ph.image buff).length = ph.sizeMem := by
  rw [image, List.length_append, List.length_replicate, contained.length_fileBytes]
  exact Nat.add_sub_cancel' contained.notLonger

end KElfProgrHdr32

section

variable {paging : Paging} {buff : List (BitVec 8)} {ph : KElfProgrHdr32} {addr phys : Nat}
  {memory memory' : ByteMem}

/-- A copy that returns has stayed in the buffer and in the window; a segment with more bytes in
the file than in memory is cleared far beyond it. -/
theorem copySegment_contained (fits : ph.Fits)
    (copied : copySegment paging buff ph addr memory = .ok memory') : ph.Contained buff := by
  have sizeLt := ph.size_lt
  have small := fits.sizeInFile
  have smallMem := fits.sizeMem
  rw [copySegment] at copied
  split at copied
  · cases copied
  next inFile =>
  split at copied
  · cases copied
  next inPages =>
  obtain ⟨memory₁, -, copied⟩ := exists_of_bind copied
  split at copied
  · next same => exact ⟨by omega, by omega, by omega⟩
  · dsimp only at copied
    split at copied
    · cases copied
    next restInPages =>
    have notLonger : ph.sizeInFile ≤ ph.sizeMem := by
      -- the size of the rest would be negative, and is taken modulo `2 ^ 32`
      by_contra longer
      rw [sub32, u32] at restInPages
      omega
    rw [sub32_of_le notLonger smallMem] at restInPages
    exact ⟨by omega, notLonger, by omega⟩

theorem copySegment_returns (fits : ph.Fits) (contained : ph.Contained buff)
    (window : addr + ph.size < 2 ^ 32)
    (present : ∀ k < ph.size, (paging.translate (addr + k)).isSome = true) :
    ∃ memory', copySegment paging buff ph addr memory = .ok memory' := by
  obtain ⟨inFile, notLonger, inPages⟩ := contained
  have length := ph.length_fileBytes_le buff
  have start : u32 (addr + ph.alignExcess) = addr + ph.alignExcess := u32_of_lt (by omega)
  obtain ⟨memory₁, copied⟩ := @storeBytes_returns paging (ph.fileBytes buff)
    (addr + ph.alignExcess) memory (by omega) fun k below => by
      rw [Nat.add_assoc]
      exact present _ (by omega)
  rw [copySegment, if_neg (by omega), if_neg (by omega), start, copied]
  dsimp only [bind, Except.bind]
  split
  · exact ⟨memory₁, rfl⟩
  · have restStart : u32 (addr + ph.alignExcess + ph.sizeInFile) =
        addr + ph.alignExcess + ph.sizeInFile := u32_of_lt (by omega)
    rw [sub32_of_le notLonger fits.sizeMem, if_neg (by omega), restStart]
    refine storeBytes_returns (by rw [List.length_replicate]; omega) fun k below => ?_
    rw [List.length_replicate] at below
    rw [Nat.add_assoc, Nat.add_assoc]
    exact present _ (by omega)

/-- Through a window to the memory at `phys` the whole image of the segment is written there. -/
theorem copySegment_eq (fits : ph.Fits) (contained : ph.Contained buff)
    (window : addr + ph.size < 2 ^ 32)
    (mapped : ∀ k < ph.size, paging.translate (addr + k) = some (phys + k)) :
    copySegment paging buff ph addr memory =
      .ok (writeAt memory (phys + ph.alignExcess) (ph.image buff)) := by
  have length := contained.length_fileBytes
  obtain ⟨inFile, notLonger, inPages⟩ := contained
  have start : u32 (addr + ph.alignExcess) = addr + ph.alignExcess := u32_of_lt (by omega)
  have copied := @storeBytes_eq paging (ph.fileBytes buff) (addr + ph.alignExcess)
    (phys + ph.alignExcess) memory (by omega) fun k below => by
      rw [Nat.add_assoc, Nat.add_assoc]
      exact mapped _ (by omega)
  rw [copySegment, if_neg (by omega), if_neg (by omega), start, copied, KElfProgrHdr32.image]
  dsimp only [bind, Except.bind]
  split
  · next same => rw [same, Nat.sub_self, List.replicate_zero, List.append_nil]
  · have restStart : u32 (addr + ph.alignExcess + ph.sizeInFile) =
        addr + ph.alignExcess + ph.sizeInFile := u32_of_lt (by omega)
    rw [sub32_of_le notLonger fits.sizeMem, if_neg (by omega), restStart]
    rw [@storeBytes_eq paging _ _ (phys + ph.alignExcess + ph.sizeInFile) _
      (by rw [List.length_replicate]; omega) fun k below => by
        rw [List.length_replicate] at below
        rw [Nat.add_assoc, Nat.add_assoc, Nat.add_assoc, Nat.add_assoc]
        exact mapped _ (by omega), ← length, writeAt_append]

end

end Antonix.Elf
