import Mathlib.Data.List.Basic

/-! # Buffers

A buffer is a cell at every index.  `readAt` copies a block of cells out,
`writeAt` copies a block in; each is described by what it does at one index. -/

namespace Buffer

variable {α : Type*} {buffer buffer' : Nat → α} {p n i a : Nat} {xs : List α}

/-- The `n` cells from `p` on. -/
def readAt (buffer : Nat → α) (p n : Nat) : List α :=
  (List.range n).map fun i => buffer (p + i)

/-- The buffer after a copy of `xs` to `p`. -/
def writeAt (buffer : Nat → α) (p : Nat) (xs : List α) : Nat → α := fun a =>
  if p ≤ a then xs[a - p]?.getD (buffer a) else buffer a

/-- The buffer after a loop that copies the next cell to each of `steps` cells from `j` on. -/
def shiftDown (buffer : Nat → α) (j : Nat) : Nat → Nat → α
  | 0 => buffer
  | steps + 1 => shiftDown (writeAt buffer j [buffer (j + 1)]) (j + 1) steps

/-! ## Blocks that are read -/

@[simp] theorem length_readAt : (readAt buffer p n).length = n := by
  simp [readAt]

@[simp] theorem getElem_readAt (inside : i < (readAt buffer p n).length) :
    (readAt buffer p n)[i] = buffer (p + i) := by
  simp [readAt]

@[simp] theorem readAt_zero : readAt buffer p 0 = [] := rfl

theorem readAt_add (m n : Nat) :
    readAt buffer p (m + n) = readAt buffer p m ++ readAt buffer (p + m) n := by
  simp only [readAt, List.range_add, List.map_append, List.map_map]
  congr 1
  apply List.map_congr_left
  intro i _
  simp [Nat.add_assoc]

/-- Blocks are equal when their cells are. -/
theorem readAt_congr {p' : Nat} (same : ∀ i < n, buffer (p + i) = buffer' (p' + i)) :
    readAt buffer p n = readAt buffer' p' n := by
  apply List.map_congr_left
  intro i member
  exact same i (List.mem_range.mp member)

theorem take_readAt {k : Nat} (inside : k ≤ n) :
    (readAt buffer p n).take k = readAt buffer p k := by
  obtain ⟨rest, rfl⟩ := Nat.exists_eq_add_of_le inside
  rw [readAt_add, List.take_left' length_readAt]

theorem drop_readAt {k : Nat} (inside : k ≤ n) :
    (readAt buffer p n).drop k = readAt buffer (p + k) (n - k) := by
  obtain ⟨rest, rfl⟩ := Nat.exists_eq_add_of_le inside
  rw [readAt_add, List.drop_left' length_readAt, Nat.add_sub_cancel_left]

/-! ## Blocks that are written -/

@[simp] theorem writeAt_nil : writeAt buffer p [] = buffer := by
  funext a
  simp [writeAt]

theorem writeAt_inside (inside : i < xs.length) : writeAt buffer p xs (p + i) = xs[i] := by
  simp [writeAt, inside]

theorem writeAt_outside (outside : a < p ∨ p + xs.length ≤ a) :
    writeAt buffer p xs a = buffer a := by
  cases outside with
  | inl below => simp [writeAt, Nat.not_le.mpr below]
  | inr above =>
    have beyond : xs.length ≤ a - p := by omega
    simp [writeAt, beyond]

/-- Two blocks, one behind the other, are one. -/
theorem writeAt_append {ys : List α} :
    writeAt (writeAt buffer p xs) (p + xs.length) ys = writeAt buffer p (xs ++ ys) := by
  funext a
  by_cases below : a < p
  · rw [writeAt_outside (.inl (by omega)), writeAt_outside (.inl below),
      writeAt_outside (.inl below)]
  · obtain ⟨d, rfl⟩ := Nat.exists_eq_add_of_le (Nat.not_lt.mp below)
    by_cases first : d < xs.length
    · rw [writeAt_outside (.inl (by omega)), writeAt_inside first,
        writeAt_inside (by rw [List.length_append]; omega), List.getElem_append_left first]
    · obtain ⟨e, rfl⟩ := Nat.exists_eq_add_of_le (Nat.not_lt.mp first)
      by_cases second : e < ys.length
      · rw [← Nat.add_assoc, writeAt_inside second, Nat.add_assoc,
          writeAt_inside (by rw [List.length_append]; omega),
          List.getElem_append_right (Nat.le_add_right _ _)]
        congr 1
        omega
      · rw [writeAt_outside (.inr (by omega)), writeAt_outside (.inr (by omega)),
          writeAt_outside (.inr (by rw [List.length_append]; omega))]

/-- The second of two blocks may be written first. -/
theorem writeAt_prepend {ys : List α} :
    writeAt (writeAt buffer (p + xs.length) ys) p xs = writeAt buffer p (xs ++ ys) := by
  rw [← writeAt_append]
  funext a
  by_cases first : p ≤ a ∧ a < p + xs.length
  · obtain ⟨d, rfl⟩ := Nat.exists_eq_add_of_le first.1
    have inside : d < xs.length := by omega
    rw [writeAt_inside inside, writeAt_outside (.inl (by omega)), writeAt_inside inside]
  · rw [writeAt_outside (by omega)]
    by_cases second : p + xs.length ≤ a ∧ a < p + xs.length + ys.length
    · obtain ⟨d, rfl⟩ := Nat.exists_eq_add_of_le second.1
      have inside : d < ys.length := by omega
      rw [writeAt_inside inside, writeAt_inside inside]
    · rw [writeAt_outside (by omega), writeAt_outside (by omega), writeAt_outside (by omega)]

/-- What was written is read back. -/
theorem readAt_writeAt : readAt (writeAt buffer p xs) p xs.length = xs := by
  apply List.ext_getElem length_readAt
  intro i _ inside
  rw [getElem_readAt, writeAt_inside inside]

/-! ## Cells -/

theorem writeAt_singleton {x : α} :
    writeAt buffer p [x] a = if a = p then x else buffer a := by
  by_cases same : a = p
  · subst same
    have inside : 0 < [x].length := Nat.one_pos
    rw [if_pos rfl]
    exact writeAt_inside inside
  · rw [if_neg same, writeAt_outside (by simp only [List.length_singleton]; omega)]

theorem shiftDown_apply (steps : Nat) : ∀ (buffer : Nat → α) (j a : Nat),
    shiftDown buffer j steps a =
      if j ≤ a ∧ a < j + steps then buffer (a + 1) else buffer a := by
  induction steps with
  | zero =>
    intro buffer j a
    exact (if_neg (by omega)).symm
  | succ steps inductionHypothesis =>
    intro buffer j a
    rw [shiftDown, inductionHypothesis, writeAt_singleton, writeAt_singleton]
    by_cases here : a = j
    · subst here
      rw [if_neg (by omega), if_pos rfl, if_pos (by omega)]
    · rw [if_neg here]
      by_cases inside : j + 1 ≤ a ∧ a < j + 1 + steps
      · rw [if_pos inside, if_neg (by omega), if_pos (by omega)]
      · rw [if_neg inside, if_neg (by omega)]

/-- The cells before the shift are kept, and the others are the next ones. -/
theorem readAt_shiftDown (j steps : Nat) :
    readAt (shiftDown buffer j steps) 0 (j + steps) =
      readAt buffer 0 j ++ readAt buffer (j + 1) steps := by
  rw [readAt_add, Nat.zero_add]
  congr 1
  · apply readAt_congr
    intro k small
    rw [shiftDown_apply, if_neg (by omega)]
  · apply readAt_congr
    intro k small
    rw [shiftDown_apply, if_pos (by omega)]
    congr 1
    omega

/-! ## Lists as buffers -/

/-- Replace what `xs` has from `p` on by `block`, making it longer where it ends inside. -/
def splice (xs : List α) (p : Nat) (block : List α) : List α :=
  xs.take p ++ block ++ xs.drop (p + block.length)

theorem length_splice {block : List α} (inside : p ≤ xs.length) :
    (splice xs p block).length = max xs.length (p + block.length) := by
  simp only [splice, List.length_append, List.length_take, List.length_drop]
  omega

/-- A buffer whose first cells hold a list holds the spliced list after a write. -/
theorem readAt_writeAt_splice {block : List α} (inside : p ≤ n) :
    readAt (writeAt buffer p block) 0 (max n (p + block.length)) =
      splice (readAt buffer 0 n) p block := by
  have total : max n (p + block.length) = p + block.length + (n - (p + block.length)) := by omega
  have before : readAt (writeAt buffer p block) 0 p = readAt buffer 0 p :=
    readAt_congr fun i short => writeAt_outside (.inl (by omega))
  have after : readAt (writeAt buffer p block) (p + block.length) (n - (p + block.length)) =
      readAt buffer (p + block.length) (n - (p + block.length)) :=
    readAt_congr fun i short => writeAt_outside (.inr (by omega))
  have rest : (readAt buffer 0 n).drop (p + block.length) =
      readAt buffer (p + block.length) (n - (p + block.length)) := by
    by_cases covered : p + block.length ≤ n
    · rw [drop_readAt covered, Nat.zero_add]
    · rw [List.drop_eq_nil_of_le (by rw [length_readAt]; omega), Nat.sub_eq_zero_of_le (by omega),
        readAt_zero]
  rw [total, readAt_add, readAt_add, Nat.zero_add, Nat.zero_add, before, readAt_writeAt, after,
    splice, take_readAt inside, rest]

end Buffer
