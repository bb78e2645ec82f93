import Antonix.KConsole.CommandLine

/-! # The blocks of a line

`str_remove_empty_substrings` drops the pointers to empty substrings and nothing frees
their blocks; a line without words is left with all of its blocks.  Both happen to the
lines with an empty piece between two spaces or at an end. -/

namespace Antonix.KConsole

open Libc Drivers

/-- Pieces in blocks that follow one another. -/
def numbered : Nat → List (List (BitVec 8)) → List Substr
  | _, [] => []
  | block, piece :: pieces => ⟨block, piece⟩ :: numbered (block + 1) pieces

section

variable {grants : Nat → Bool} {delim : BitVec 8} {arr : SubstrArr} {heap : Heap}

theorem length_numbered (block : Nat) (pieces : List (List (BitVec 8))) :
    (numbered block pieces).length = pieces.length := by
  induction pieces generalizing block with
  | nil => rfl
  | cons piece pieces inductionHypothesis => simp [numbered, inductionHypothesis]

theorem map_text_numbered (block : Nat) (pieces : List (List (BitVec 8))) :
    (numbered block pieces).map Substr.text = pieces := by
  induction pieces generalizing block with
  | nil => rfl
  | cons piece pieces inductionHypothesis => simp [numbered, inductionHypothesis]

theorem map_block_numbered (block : Nat) (pieces : List (List (BitVec 8))) :
    (numbered block pieces).map Substr.block = List.range' block pieces.length := by
  induction pieces generalizing block with
  | nil => rfl
  | cons piece pieces inductionHypothesis =>
    rw [numbered, List.map_cons, inductionHypothesis, List.length_cons, List.range'_succ]

/-! ## Splitting -/

theorem length_splitOn (src : List (BitVec 8)) :
    (src.splitOn delim).length = src.count delim + 1 := by
  induction src with
  | nil => rfl
  | cons c src inductionHypothesis =>
    rw [List.splitOn_cons_eq_if_modifyHead, List.count_cons]
    split
    case isTrue same => rw [List.length_cons, inductionHypothesis]
    case isFalse other => rw [List.length_modifyHead, inductionHypothesis]

theorem kmalloc_eq (granted : grants heap.next = true) :
    kmalloc grants heap = .ok (heap.next, { heap with next := heap.next + 1 }) := if_pos granted

theorem granted_later {n first : Nat} (granted : ∀ j < n + 1, grants (first + j) = true) :
    ∀ j < n, grants (first + 1 + j) = true := by
  intro j small
  rw [Nat.add_assoc, Nat.add_comm 1]
  exact granted (j + 1) (Nat.succ_lt_succ small)

/-- The piece at the start of a line, and the pieces of the rest. -/
theorem splitOn_eq (d : List (BitVec 8)) :
    d.splitOn delim = [d.takeWhile (· ≠ delim)] ∨
      d.splitOn delim = d.takeWhile (· ≠ delim) ::
        (d.drop ((d.takeWhile (· ≠ delim)).length + 1)).splitOn delim := by
  obtain ⟨w, clean, rfl | ⟨rest, rfl⟩⟩ := Words.exists_stretch delim d
  · left
    have whole : d.takeWhile (· ≠ delim) = d := by
      apply List.takeWhile_eq_self_iff.mpr
      intro c member
      simpa using fun same : c = delim => clean (same ▸ member)
    rw [whole, List.splitOn_eq_singleton clean]
  · right
    have first : (w ++ delim :: rest).takeWhile (· ≠ delim) = w := by
      rw [List.takeWhile_append_of_pos, List.takeWhile_cons_of_neg (by simp), List.append_nil]
      intro c member
      simpa using fun same : c = delim => clean (same ▸ member)
    have others : (w ++ delim :: rest).drop (w.length + 1) = rest := by
      rw [← List.drop_drop, List.drop_left, List.drop_succ_cons, List.drop_zero]
    rw [first, others, List.splitOn_append_cons_self_of_not_mem clean]

/-- The loop puts every piece of the line into a block of its own. -/
theorem explodeLoop_eq {n i : Nat} {d : List (BitVec 8)} (pieces : (d.splitOn delim).length = n)
    (granted : ∀ j < n, grants (heap.next + j) = true) :
    explodeLoop grants delim n i d arr heap =
      .ok (Buffer.writeAt arr i (numbered heap.next (d.splitOn delim)),
        { heap with next := heap.next + n }) := by
  induction n generalizing i d arr heap with
  | zero => exact absurd (List.length_eq_zero_iff.mp pieces) (List.splitOn_ne_nil _ _)
  | succ n inductionHypothesis =>
    have first : grants heap.next = true := granted 0 (Nat.succ_pos n)
    simp only [explodeLoop, kmalloc_eq first, bind, Except.bind]
    obtain last | more := @splitOn_eq delim d
    · -- the last piece; what follows it is not looked at
      rw [last] at pieces ⊢
      obtain rfl : n = 0 := by simpa using pieces.symm
      rw [explodeLoop]
      rfl
    · rw [more, List.length_cons, Nat.add_right_cancel_iff] at pieces
      rw [inductionHypothesis pieces (granted_later granted), more, numbered]
      have both := @Buffer.writeAt_append _ arr i
        [⟨heap.next, d.takeWhile (· ≠ delim)⟩] (numbered (heap.next + 1)
          ((d.drop ((d.takeWhile (· ≠ delim)).length + 1)).splitOn delim))
      rw [List.length_singleton, List.singleton_append] at both
      rw [both, Nat.add_assoc, Nat.add_comm 1]

/-- A block that is not granted is written to all the same. -/
theorem explodeLoop_stuck {n i j : Nat} {d : List (BitVec 8)} (inside : j < n)
    (refused : grants (heap.next + j) = false) :
    explodeLoop grants delim n i d arr heap = .error .stuck := by
  induction n generalizing i j d arr heap with
  | zero => contradiction
  | succ n inductionHypothesis =>
    by_cases first : grants heap.next = true
    · simp only [explodeLoop, kmalloc_eq first, bind, Except.bind]
      cases j with
      | zero => rw [Nat.add_zero, first] at refused; contradiction
      | succ j =>
        apply inductionHypothesis (Nat.lt_of_succ_lt_succ inside)
        rwa [Nat.add_assoc, Nat.add_comm 1]
    · simp only [explodeLoop, kmalloc, if_neg first, bind, Except.bind]

theorem strExplode_eq {src : List (BitVec 8)}
    (granted : ∀ j < (src.splitOn delim).length + 1, grants (heap.next + j) = true) :
    strExplode grants src delim arr heap =
      .ok ((heap.next, Buffer.writeAt arr 0 (numbered (heap.next + 1) (src.splitOn delim)),
        (src.splitOn delim).length),
        { heap with next := heap.next + ((src.splitOn delim).length + 1) }) := by
  have first : grants heap.next = true := granted 0 (Nat.succ_pos _)
  have looped := @explodeLoop_eq grants delim arr { heap with next := heap.next + 1 } _ 0 src rfl
    (granted_later granted)
  simp only [strExplode, kmalloc_eq first, bind, Except.bind, ← length_splitOn, looped,
    Nat.add_assoc, Nat.add_comm 1]

theorem strExplode_stuck {src : List (BitVec 8)} {j : Nat}
    (inside : j < (src.splitOn delim).length + 1) (refused : grants (heap.next + j) = false) :
    strExplode grants src delim arr heap = .error .stuck := by
  by_cases first : grants heap.next = true
  · cases j with
    | zero => rw [Nat.add_zero, first] at refused; contradiction
    | succ j =>
      have stuck := @explodeLoop_stuck grants delim arr { heap with next := heap.next + 1 }
        _ 0 j src (Nat.lt_of_succ_lt_succ inside) (by rwa [Nat.add_assoc, Nat.add_comm 1])
      simp only [strExplode, kmalloc_eq first, bind, Except.bind, ← length_splitOn, stuck]
  · simp only [strExplode, kmalloc, if_neg first, bind, Except.bind]

/-! ## Removing empty substrings -/

/-- The substrings with text. -/
def nonempty (subs : List Substr) : List Substr := subs.filter fun s => s.text ≠ []

/-- What is left below `i` of the entries with text, and all from `i` on, are at the start. -/
theorem removeLoop_eq (i : Nat) : ∀ (arr : SubstrArr) (c : Nat), i ≤ c →
    ∃ arr' c', removeLoop i arr c = (arr', c') ∧
      Buffer.readAt arr' 0 c' =
        nonempty (Buffer.readAt arr 0 i) ++ Buffer.readAt arr i (c - i) := by
  induction i with
  | zero =>
    intro arr c _
    exact ⟨arr, c, rfl, rfl⟩
  | succ i inductionHypothesis =>
    intro arr c below
    have last : Buffer.readAt arr 0 (i + 1) = Buffer.readAt arr 0 i ++ [arr i] := by
      rw [Buffer.readAt_add, Nat.zero_add]
      rfl
    rw [removeLoop]
    split
    case isTrue empty =>
      -- the entry is overwritten by those behind it
      obtain ⟨arr', c', removed, left⟩ :=
        inductionHypothesis (Buffer.shiftDown arr i (c - 1 - i)) (c - 1) (by omega)
      refine ⟨arr', c', removed, left.trans ?_⟩
      have moved := @Buffer.readAt_shiftDown _ arr i (c - 1 - i)
      rw [Buffer.readAt_add, Nat.zero_add] at moved
      obtain ⟨before, behind⟩ := List.append_inj moved (by simp)
      have same : c - (i + 1) = c - 1 - i := by omega
      rw [same, before, behind, last, nonempty, nonempty, List.filter_append]
      simp [empty]
    case isFalse kept =>
      obtain ⟨arr', c', removed, left⟩ := inductionHypothesis arr c (by omega)
      refine ⟨arr', c', removed, left.trans ?_⟩
      have entry : Buffer.readAt arr i (c - i) =
          arr i :: Buffer.readAt arr (i + 1) (c - (i + 1)) := by
        obtain ⟨rest, split⟩ : ∃ rest, c - i = 1 + rest := ⟨c - i - 1, by omega⟩
        have same : c - (i + 1) = rest := by omega
        rw [split, same, Buffer.readAt_add]
        rfl
      rw [entry, last, nonempty, nonempty, List.filter_append]
      simp [kept]

theorem strRemoveEmptySubstrings_eq (arr : SubstrArr) (cnt : Nat) :
    ∃ arr' cnt', strRemoveEmptySubstrings arr cnt = (arr', cnt') ∧
      Buffer.readAt arr' 0 cnt' = nonempty (Buffer.readAt arr 0 cnt) := by
  obtain ⟨arr', cnt', removed, left⟩ := removeLoop_eq cnt arr cnt (Nat.le_refl cnt)
  refine ⟨arr', cnt', removed, ?_⟩
  rw [left, Nat.sub_self, Buffer.readAt_zero, List.append_nil]

theorem map_text_nonempty (subs : List Substr) :
    (nonempty subs).map Substr.text = (subs.map Substr.text).filter (· ≠ []) := by
  rw [nonempty, List.filter_map]
  rfl

/-! ## The whole routine -/

/-- The blocks of the entries are freed, and then the array. -/
theorem strExplodeCleanup_eq (target cnt : Nat) :
    strExplodeCleanup target arr cnt heap = { heap with
      freed := heap.freed ++ ((Buffer.readAt arr 0 cnt).map Substr.block ++ [target]) } := by
  have loop : ∀ n, (List.range n).foldl (fun heap i => kfree heap (arr i).block) heap =
      { heap with freed := heap.freed ++ (Buffer.readAt arr 0 n).map Substr.block } := by
    intro n
    induction n with
    | zero => simp
    | succ n inductionHypothesis =>
      rw [List.range_succ, List.foldl_append, inductionHypothesis, Buffer.readAt_add,
        List.map_append, ← List.append_assoc, Nat.zero_add]
      rfl
  rw [strExplodeCleanup, loop, kfree, List.append_assoc]

/-- The blocks that are freed when a line has been handed over. -/
def freedFor (heap : Heap) (line : List (BitVec 8)) : List Nat :=
  let subs := nonempty (numbered (heap.next + 1) (line.splitOn 0x20))
  if subs = [] then [] else subs.map Substr.block ++ [heap.next]

theorem kconParseCommand_eq {σ : Type} {print : List (BitVec 8) → σ → Except Halt σ}
    {stack : Target} {cmdList : List (CmdHandler σ)} {line : List (BitVec 8)} {screen : σ}
    (granted : ∀ j < (line.splitOn 0x20).length + 1, grants (heap.next + j) = true) :
    kconParseCommand print stack cmdList grants arr line heap screen =
      (handOver print stack cmdList line (Words.ofLine 0x20 line) screen).map fun screen =>
        (screen, ⟨heap.next + ((line.splitOn 0x20).length + 1),
          heap.freed ++ freedFor heap line⟩) := by
  have exploded := @strExplode_eq grants 0x20 arr heap line granted
  obtain ⟨arr', cnt', removed, left⟩ := strRemoveEmptySubstrings_eq
    (Buffer.writeAt arr 0 (numbered (heap.next + 1) (line.splitOn 0x20)))
    (line.splitOn 0x20).length
  have stored : Buffer.readAt (Buffer.writeAt arr 0 (numbered (heap.next + 1)
      (line.splitOn 0x20))) 0 (line.splitOn 0x20).length =
      numbered (heap.next + 1) (line.splitOn 0x20) := by
    have read := @Buffer.readAt_writeAt _ arr 0 (numbered (heap.next + 1) (line.splitOn 0x20))
    rwa [length_numbered] at read
  rw [stored] at left
  have words : Words.ofLine 0x20 line = (Buffer.readAt arr' 0 cnt').map Substr.text := by
    rw [left, map_text_nonempty, map_text_numbered, Words.ofLine]
  rw [words]
  simp only [kconParseCommand, exploded, removed, bind, Except.bind, freedFor, ← left]
  cases cnt' with
  | zero => simp [handOver, Except.map]
  | succ count =>
    -- the first word names the command, the others are its arguments
    have entries : Buffer.readAt arr' 0 (count + 1) = arr' 0 :: Buffer.readAt arr' 1 count := by
      rw [Nat.add_comm, Buffer.readAt_add]
      rfl
    have others : (List.range count).map (fun i => (arr' (i + 1)).text) =
        (Buffer.readAt arr' 1 count).map Substr.text := by
      simp [Buffer.readAt, Nat.add_comm]
    have noArgs : (Buffer.readAt arr' 1 count).map Substr.text = [] ↔ ¬ count + 1 > 1 := by
      rw [List.map_eq_nil_iff, ← List.length_eq_zero_iff, Buffer.length_readAt]
      omega
    have args : (if count + 1 > 1 then some ((Buffer.readAt arr' 1 count).map Substr.text)
        else none) = if (Buffer.readAt arr' 1 count).map Substr.text = [] then none
          else some ((Buffer.readAt arr' 1 count).map Substr.text) := by
      by_cases some : count + 1 > 1
      · rw [if_pos some, if_neg (fun none => noArgs.mp none some)]
      · rw [if_neg some, if_pos (noArgs.mpr some)]
    have length : ((Buffer.readAt arr' 1 count).map Substr.text).length = count := by
      rw [List.length_map, Buffer.length_readAt]
    have given : handOver print stack cmdList line
        ((arr' 0 :: Buffer.readAt arr' 1 count).map Substr.text) screen =
        invokeCommand print stack cmdList line (arr' 0).text
          (if (Buffer.readAt arr' 1 count).map Substr.text = [] then none
            else some ((Buffer.readAt arr' 1 count).map Substr.text))
          ((Buffer.readAt arr' 1 count).map Substr.text).length screen := rfl
    rw [if_neg (Nat.succ_ne_zero count), Nat.add_sub_cancel, others, args, entries,
      given, length]
    have array : arr' 0 :: Buffer.readAt arr' 1 count ≠ [] := List.cons_ne_nil _ _
    simp only [strExplodeCleanup_eq, entries, if_neg array, List.map_cons]
    cases invokeCommand print stack cmdList line (arr' 0).text
      (if (Buffer.readAt arr' 1 count).map Substr.text = [] then none
        else some ((Buffer.readAt arr' 1 count).map Substr.text)) count screen with
    | error halt => rfl
    | ok screen' => rfl

/-- A table in which the line finds its command, with a handler that succeeds. -/
def obliging (line : List (BitVec 8)) : List (CmdHandler Unit) :=
  [⟨(Words.ofLine 0x20 line).headD [], fun _ _ _ screen => .ok (.sOk, screen)⟩]

theorem handOver_obliging (line : List (BitVec 8)) (stack : Target) :
    handOver (fun _ screen => .ok screen) stack (obliging line) line (Words.ofLine 0x20 line) () =
      .ok () := by
  cases words : Words.ofLine 0x20 line with
  | nil => rfl
  | cons name args =>
    have table : obliging line = [⟨name, fun _ _ _ screen => .ok (.sOk, screen)⟩] := by
      rw [obliging, words]
      rfl
    simp [handOver, invokeCommand, table, bind, Except.bind, HResult.failed, HResult.succeeded]

/-- What is freed is what was allocated when no piece of the line is empty. -/
theorem freedFor_perm_iff (line : List (BitVec 8)) :
    (freedFor heap line).Perm (List.range' heap.next ((line.splitOn 0x20).length + 1)) ↔
      [] ∉ line.splitOn 0x20 := by
  have total : List.range' heap.next ((line.splitOn 0x20).length + 1) =
      heap.next :: List.range' (heap.next + 1) (line.splitOn 0x20).length := List.range'_succ
  have texts := map_text_numbered (heap.next + 1) (line.splitOn 0x20)
  constructor
  · intro same empty
    -- the block of an empty piece is missing
    have fewer : (nonempty (numbered (heap.next + 1) (line.splitOn 0x20))).length <
        (line.splitOn 0x20).length := by
      rw [← texts, List.mem_map] at empty
      obtain ⟨s, member, blank⟩ := empty
      rw [← length_numbered (heap.next + 1)]
      exact List.length_filter_lt_length_iff_exists.mpr ⟨s, member, by simp [blank]⟩
    have lengths := same.length_eq
    rw [List.length_range', freedFor] at lengths
    split at lengths
    · simp at lengths
    · rw [List.length_append, List.length_map, List.length_singleton] at lengths
      omega
  · intro full
    have all : nonempty (numbered (heap.next + 1) (line.splitOn 0x20)) =
        numbered (heap.next + 1) (line.splitOn 0x20) := by
      apply List.filter_eq_self.mpr
      intro s member
      have piece : s.text ∈ line.splitOn 0x20 := by
        rw [← texts]
        exact List.mem_map_of_mem member
      simpa using fun blank : s.text = [] => full (blank ▸ piece)
    have some : numbered (heap.next + 1) (line.splitOn 0x20) ≠ [] := by
      intro none
      rw [none] at texts
      exact List.splitOn_ne_nil _ _ texts.symm
    rw [freedFor, all]
    simp only [if_neg some]
    rw [map_block_numbered, total]
    exact List.perm_append_singleton _ _

/-- A line leaves no garbage when every allocation for it succeeds and none of its pieces is
empty. -/
theorem leavesNoGarbage_iff (line : List (BitVec 8)) :
    LeavesNoGarbage grants heap line ↔
      (∀ j < (line.splitOn 0x20).length + 1, grants (heap.next + j) = true) ∧
        [] ∉ line.splitOn 0x20 := by
  constructor
  · intro clean
    -- a table that has the command of the line
    obtain ⟨ws, heap', freed, words, handed, log, perm⟩ := clean Unit (fun _ screen => .ok screen)
      (fun _ => 0) (obliging line) (fun _ => ⟨0, []⟩) ()
    rw [words.eq_ofLine, handOver_obliging] at handed
    have granted : ∀ j < (line.splitOn 0x20).length + 1, grants (heap.next + j) = true := by
      intro j inside
      by_cases refused : grants (heap.next + j) = true
      · exact refused
      · have stuck := @strExplode_stuck grants 0x20 (fun _ => ⟨0, []⟩) heap line j inside
          (Bool.eq_false_of_not_eq_true refused)
        simp only [kconParseCommand, stuck, bind, Except.bind] at handed
        contradiction
    refine ⟨granted, ?_⟩
    rw [kconParseCommand_eq granted, handOver_obliging] at handed
    have heaps := (Prod.mk.inj (Except.ok.inj handed)).2
    rw [← heaps] at log perm
    have same : freedFor heap line = freed := List.append_cancel_left log
    rw [← freedFor_perm_iff, same]
    simpa using perm
  · rintro ⟨granted, full⟩ σ print stack cmdList stale screen
    refine ⟨_, _, _, Words.words_ofLine 0x20 line, kconParseCommand_eq granted, rfl, ?_⟩
    have perm := (@freedFor_perm_iff heap line).mpr full
    simpa using perm

end

/-- For every heap and every line: the words are handed over, and every block has been freed once
when the line is done with, exactly when all allocations succeed and the line has no empty piece
between its spaces. -/
theorem kconParseCommand_clean_iff (grants : Nat → Bool) (heap : Heap) (line : List (BitVec 8)) :
    LeavesNoGarbage grants heap line ↔
      (∀ j < (line.splitOn 0x20).length + 1, grants (heap.next + j) = true) ∧
        [] ∉ line.splitOn 0x20 :=
  leavesNoGarbage_iff line

/-- `"ls  /"`, with two spaces: the block of the empty piece is never freed. -/
theorem kconParseCommand_leaks :
    ¬ LeavesNoGarbage (fun _ => true) ⟨0, []⟩ [0x6C, 0x73, 0x20, 0x20, 0x2F] := by
  rw [leavesNoGarbage_iff]
  rintro ⟨-, full⟩
  exact absurd full (by decide)

end Antonix.KConsole
