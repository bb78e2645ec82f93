import Antonix.Lib.CString
import Antonix.KConsole.LineBlocks

/-! # Taking a string apart (`libc/string.c`)

`str_explode` counts the delimiters of a string, and then goes from each of them to the next.
`strchr` finds none behind the last one, and the pointer behind `NULL` is not used.  What is not
in the memory that may be read is not read, or the call is stuck. -/

namespace Antonix.Libc

/-- The bytes that may be read. -/
abbrev Readable := Nat → Option (BitVec 8)

/-- The `n` bytes of memory from `a` on, and no others. -/
def only (memory : ByteMem) (a n : Nat) : Readable := fun b =>
  if a ≤ b ∧ b < a + n then some (memory b) else none

/-- One byte. -/
def readByte (mem : Readable) (a : Nat) : Except Halt (BitVec 8) :=
  match mem a with
  | some c => .ok c
  | none => .error .stuck

/-- `strlen`, in so many turns at most. -/
def strlen (mem : Readable) : Nat → Nat → Except Halt Nat
  | 0, _ => .error .stuck
  | turns + 1, str => do
    let c ← readByte mem str
    if c = 0 then .ok 0
    else do
      let len ← strlen mem turns (str + 1)
      .ok (len + 1)

/-- `strchr`, with 0 for `NULL`.  The character of the string is signed when it is compared. -/
def strchr (mem : Readable) (character : BitVec 8) : Nat → Nat → Except Halt Nat
  | 0, _ => .error .stuck
  | turns + 1, str => do
    let c ← readByte mem str
    if c = 0 then .ok (if character = 0 then str else 0)
    else if c.toInt = character.toNat then .ok str
    else strchr mem character turns (str + 1)

/-- What `memcpy` reads. -/
def readBytes (mem : Readable) : Nat → Nat → Except Halt (List (BitVec 8))
  | _, 0 => .ok []
  | src, count + 1 => do
    let c ← readByte mem src
    let rest ← readBytes mem (src + 1) count
    .ok (c :: rest)

/-- The first loop of `str_explode`. -/
def countSubstrings (mem : Readable) (delim : BitVec 8) : Nat → Nat → Nat → Except Halt Nat
  | 0, _, _ => .error .stuck
  | turns + 1, s, targetCnt => do
    let c ← readByte mem s
    if c = 0 then .ok targetCnt
    else countSubstrings mem delim turns (s + 1) (if c = delim then targetCnt + 1 else targetCnt)

/-- The second loop, from substring `i` on.  `grants` says which of the calls of `kmalloc` gets the
bytes that it asks for; none of them is checked, and the array has room for `room` pointers. -/
def explodeSubstrings (grants : Nat → Nat → Bool) (mem : Readable) (turns : Nat) (delim : BitVec 8)
    (room : Nat) : Nat → Nat → Nat → List (List (BitVec 8)) → Except Halt (List (List (BitVec 8)))
  | 0, _, _, targetArr => .ok targetArr
  | left + 1, i, d, targetArr => do
    let d2 ← strchr mem delim turns d
    let k ← if d2 = 0 then strlen mem turns d else .ok (d2 - d)
    if grants (i + 1) (k + 1) = false ∨ room ≤ i then .error .stuck
    else do
      let substring ← readBytes mem d k
      -- for the last substring this is `NULL + 1`
      explodeSubstrings grants mem turns delim room left (i + 1) (d2 + 1)
        (targetArr ++ [substring])

/-- `str_explode`: the substrings and `cnt`. -/
def strExplode (grants : Nat → Nat → Bool) (mem : Readable) (turns src : Nat) (delim : BitVec 8) :
    Except Halt (List (List (BitVec 8)) × Nat) := do
  let targetCnt ← countSubstrings mem delim turns src 1
  let size := u32 (targetCnt * 4)
  if grants 0 size = false then .error .stuck
  else do
    let targetArr ← explodeSubstrings grants mem turns delim (size / 4) targetCnt 0 src []
    .ok (targetArr, targetCnt)

/-- A string that may be read with its terminator. -/
inductive ReadableString (mem : Readable) : Nat → List (BitVec 8) → Prop
  | nil {a : Nat} (ends : mem a = some 0) : ReadableString mem a []
  | cons {a : Nat} {c : BitVec 8} {s : List (BitVec 8)} (here : mem a = some c) (nonzero : c ≠ 0)
    (rest : ReadableString mem (a + 1) s) : ReadableString mem a (c :: s)

section

variable {grants : Nat → Nat → Bool} {memory : ByteMem} {mem : Readable} {a i left n room turns : Nat}
  {delim : BitVec 8} {s w rest : List (BitVec 8)}

/-- A string may be read where nothing but its characters and its terminator may be. -/
theorem readable_of_cString (text : CString memory a s) :
    ∀ {b m : Nat}, b ≤ a → a + s.length < b + m → ReadableString (only memory b m) a s := by
  induction text with
  | nil ends =>
    intro b m from_ upTo
    exact .nil (by rw [only, if_pos ⟨from_, upTo⟩, ends])
  | @cons a c s here nonzero rest inductionHypothesis =>
    intro b m from_ upTo
    rw [List.length_cons] at upTo
    exact .cons (by rw [only, if_pos ⟨from_, by omega⟩, here]) nonzero
      (inductionHypothesis (by omega) (by omega))

/-- A signed character is compared to an unsigned one. -/
theorem toInt_eq_iff {c : BitVec 8} (ascii : delim.toNat < 128) :
    c.toInt = delim.toNat ↔ c = delim := by
  have small := c.isLt
  rw [BitVec.toInt_eq_toNat_cond, ← BitVec.toNat_inj]
  split
  case isTrue low => omega
  case isFalse high => omega

/-! ## Pieces -/

/-- The first piece has no delimiter, and the others are pieces of the rest. -/
theorem splitOn_pieces (s : List (BitVec 8)) :
    ∀ piece ∈ s.splitOn delim, delim ∉ piece ∧ piece ⊆ s := by
  generalize length : (s.splitOn delim).length = n
  induction n generalizing s with
  | zero => exact absurd (List.length_eq_zero_iff.mp length) (List.splitOn_ne_nil _ _)
  | succ n inductionHypothesis =>
    intro piece member
    obtain ⟨w, clean, rfl | ⟨rest, rfl⟩⟩ := Words.exists_stretch delim s
    · rw [List.splitOn_eq_singleton clean, List.mem_singleton] at member
      exact ⟨member ▸ clean, member ▸ List.Subset.refl _⟩
    · rw [List.splitOn_append_cons_self_of_not_mem clean] at member length
      cases List.mem_cons.mp member with
      | inl first => exact ⟨first ▸ clean, first ▸ List.subset_append_left _ _⟩
      | inr later =>
        obtain ⟨none, inside⟩ := inductionHypothesis rest (by simpa using length) piece later
        exact ⟨none, fun c at_ => List.mem_append_right _ (List.mem_cons_of_mem _ (inside at_))⟩

/-! ## Strings that may be read -/

namespace ReadableString

theorem byte_nil (text : ReadableString mem a []) : readByte mem a = .ok 0 := by
  cases text with
  | nil ends => rw [readByte, ends]

theorem byte_cons {c : BitVec 8} (text : ReadableString mem a (c :: s)) :
    readByte mem a = .ok c ∧ c ≠ 0 ∧ ReadableString mem (a + 1) s := by
  cases text with
  | cons here nonzero rest => exact ⟨by rw [readByte, here], nonzero, rest⟩

/-- The string behind a stretch. -/
theorem drop (text : ReadableString mem a (w ++ s)) :
    ReadableString mem (a + w.length) s := by
  induction w generalizing a with
  | nil => exact text
  | cons c w inductionHypothesis =>
    have behind := inductionHypothesis text.byte_cons.2.2
    rwa [Nat.add_assoc, Nat.add_comm 1] at behind

theorem strlen_eq (text : ReadableString mem a s) (enough : s.length < turns) :
    strlen mem turns a = .ok s.length := by
  induction s generalizing a turns with
  | nil =>
    cases turns with
    | zero => contradiction
    | succ turns =>
      rw [strlen, text.byte_nil]
      rfl
  | cons c s inductionHypothesis =>
    cases turns with
    | zero => contradiction
    | succ turns =>
      obtain ⟨byte, nonzero, later⟩ := text.byte_cons
      have length := inductionHypothesis later (Nat.lt_of_succ_lt_succ enough)
      simp only [strlen, byte, bind, Except.bind, if_neg nonzero, length, List.length_cons]

theorem readBytes_eq (text : ReadableString mem a (w ++ rest)) :
    readBytes mem a w.length = .ok w := by
  induction w generalizing a with
  | nil => rfl
  | cons c w inductionHypothesis =>
    obtain ⟨byte, _, later⟩ := text.byte_cons
    simp only [List.length_cons, readBytes, byte, bind, Except.bind, inductionHypothesis later]

theorem countSubstrings_eq (text : ReadableString mem a s) (enough : s.length < turns) (n : Nat) :
    countSubstrings mem delim turns a n = .ok (n + s.count delim) := by
  induction s generalizing a turns n with
  | nil =>
    cases turns with
    | zero => contradiction
    | succ turns =>
      rw [countSubstrings, text.byte_nil]
      rfl
  | cons c s inductionHypothesis =>
    cases turns with
    | zero => contradiction
    | succ turns =>
      obtain ⟨byte, nonzero, later⟩ := text.byte_cons
      simp only [countSubstrings, byte, bind, Except.bind, if_neg nonzero,
        inductionHypothesis later (Nat.lt_of_succ_lt_succ enough), List.count_cons]
      by_cases same : c = delim
      · rw [if_pos same, if_pos (beq_iff_eq.mpr same), Nat.add_assoc, Nat.add_comm 1]
      · rw [if_neg same, if_neg (by simpa using same), Nat.add_zero]

/-- A delimiter that is a positive `char` is found where it is. -/
theorem strchr_found (ascii : delim.toNat < 128) (clean : delim ∉ w)
    (text : ReadableString mem a (w ++ delim :: rest)) (enough : w.length < turns) :
    strchr mem delim turns a = .ok (a + w.length) := by
  induction w generalizing a turns with
  | nil =>
    cases turns with
    | zero => contradiction
    | succ turns =>
      obtain ⟨byte, nonzero, _⟩ := ReadableString.byte_cons text
      simp only [strchr, byte, bind, Except.bind, if_neg nonzero,
        if_pos ((toInt_eq_iff ascii).mpr rfl)]
      rfl
  | cons c w inductionHypothesis =>
    cases turns with
    | zero => contradiction
    | succ turns =>
      obtain ⟨byte, nonzero, later⟩ := ReadableString.byte_cons text
      obtain ⟨other, clean⟩ := not_or.mp fun is => clean (List.mem_cons.mpr is)
      simp only [strchr, byte, bind, Except.bind, if_neg nonzero,
        if_neg (mt (toInt_eq_iff ascii).mp (Ne.symm other)),
        inductionHypothesis clean later (Nat.lt_of_succ_lt_succ enough), List.length_cons,
        Nat.add_assoc, Nat.add_comm 1]

theorem strchr_null (ascii : delim.toNat < 128) (nonzero : delim ≠ 0) (clean : delim ∉ s)
    (text : ReadableString mem a s) (enough : s.length < turns) :
    strchr mem delim turns a = .ok 0 := by
  induction s generalizing a turns with
  | nil =>
    cases turns with
    | zero => contradiction
    | succ turns =>
      simp only [strchr, text.byte_nil, bind, Except.bind, if_true, if_neg nonzero]
  | cons c s inductionHypothesis =>
    cases turns with
    | zero => contradiction
    | succ turns =>
      obtain ⟨byte, notEnd, later⟩ := text.byte_cons
      obtain ⟨other, clean⟩ := not_or.mp fun is => clean (List.mem_cons.mpr is)
      simp only [strchr, byte, bind, Except.bind, if_neg notEnd,
        if_neg (mt (toInt_eq_iff ascii).mp (Ne.symm other)),
        inductionHypothesis clean later (Nat.lt_of_succ_lt_succ enough)]

end ReadableString

/-! ## The second loop -/

/-- The loop goes through the pieces of the string: by induction on their number, with one
stretch and its delimiter taken off in each turn. -/
theorem explodeSubstrings_eq {arr : List (List (BitVec 8))}
    (granted : ∀ call size, grants call size = true) (ascii : delim.toNat < 128)
    (nonzero : delim ≠ 0) (inMemory : 0 < a) (text : ReadableString mem a s)
    (enough : s.length < turns) (pieces : (s.splitOn delim).length = left)
    (inRoom : i + left ≤ room) :
    explodeSubstrings grants mem turns delim room left i a arr =
      .ok (arr ++ s.splitOn delim) := by
  induction left generalizing s a i arr with
  | zero => exact absurd (List.length_eq_zero_iff.mp pieces) (List.splitOn_ne_nil _ _)
  | succ left inductionHypothesis =>
    have goesOn : ∀ size, ¬ (grants (i + 1) size = false ∨ room ≤ i) := by
      intro size refused
      cases refused with
      | inl refused => rw [granted] at refused; contradiction
      | inr full => omega
    obtain ⟨w, clean, rfl | ⟨rest, rfl⟩⟩ := Words.exists_stretch delim s
    · -- the last substring goes up to the terminator
      rw [List.splitOn_eq_singleton clean] at pieces ⊢
      obtain rfl : left = 0 := by simpa using pieces.symm
      have bytes : readBytes mem a s.length = .ok s :=
        @ReadableString.readBytes_eq mem a s [] (by rwa [List.append_nil])
      simp only [explodeSubstrings, text.strchr_null ascii nonzero clean enough, bind, Except.bind,
        if_true, text.strlen_eq enough, if_neg (goesOn _), bytes]
    · rw [List.splitOn_append_cons_self_of_not_mem clean] at pieces ⊢
      rw [List.length_append, List.length_cons] at enough
      have found : strchr mem delim turns a = .ok (a + w.length) :=
        text.strchr_found ascii clean (by omega)
      have behind := text.drop.byte_cons.2.2
      have later := @inductionHypothesis (a + w.length + 1) (i + 1) rest (arr ++ [w])
        (Nat.succ_pos _) behind (by omega) (by simpa using pieces) (by omega)
      rw [List.append_assoc] at later
      have notNull : a + w.length ≠ 0 := by omega
      simp only [explodeSubstrings, found, bind, Except.bind, if_neg notNull,
        Nat.add_sub_cancel_left, if_neg (goesOn _), text.readBytes_eq, later]
      rfl

/-- What was asked for is given: the pieces between the delimiters. -/
theorem strExplode_eq (granted : ∀ call size, grants call size = true)
    (ascii : delim.toNat < 128) (nonzero : delim ≠ 0) (inMemory : 0 < a)
    (text : ReadableString mem a s) (enough : s.length < turns)
    (small : (s.count delim + 1) * 4 < 2 ^ 32) :
    strExplode grants mem turns a delim = .ok (s.splitOn delim, s.count delim + 1) := by
  have length := @KConsole.length_splitOn delim s
  have order : 1 + s.count delim = s.count delim + 1 := Nat.add_comm _ _
  have room : (s.count delim + 1) * 4 / 4 = s.count delim + 1 := by omega
  have pieces := @explodeSubstrings_eq grants mem a 0 (s.count delim + 1)
    (s.count delim + 1) turns delim s [] granted ascii nonzero inMemory text enough length
    (by omega)
  simp only [strExplode, text.countSubstrings_eq enough, order, u32_of_lt small, room, granted,
    bind, Except.bind, Bool.true_eq_false, if_false, pieces, List.nil_append]

/-- The console works with the same pieces. -/
theorem strExplode_console {consoleGrants : Nat → Bool} {arr : KConsole.SubstrArr}
    {heap : KConsole.Heap} (granted : ∀ call size, grants call size = true)
    (consoleGranted : ∀ block, consoleGrants block = true)
    (ascii : delim.toNat < 128) (nonzero : delim ≠ 0) (inMemory : 0 < a)
    (text : ReadableString mem a s) (enough : s.length < turns)
    (small : (s.count delim + 1) * 4 < 2 ^ 32) :
    ∃ target arr' cnt heap' substrings,
      KConsole.strExplode consoleGrants s delim arr heap = .ok ((target, arr', cnt), heap') ∧
      strExplode grants mem turns a delim = .ok (substrings, cnt) ∧
      (Buffer.readAt arr' 0 cnt).map KConsole.Substr.text = substrings := by
  have console := @KConsole.strExplode_eq consoleGrants delim arr heap s
    fun j _ => consoleGranted _
  have length := @KConsole.length_numbered (heap.next + 1) (s.splitOn delim)
  refine ⟨_, _, _, _, s.splitOn delim, console, ?_, ?_⟩
  · rw [KConsole.length_splitOn]
    exact strExplode_eq granted ascii nonzero inMemory text enough small
  · rw [← length, Buffer.readAt_writeAt, KConsole.map_text_numbered]

end

/-- A string is taken apart at its delimiters: there is one substring more than there are
delimiters, none has one in it, with delimiters between them they are the string again, and
nothing but the string and its terminator is read for that. -/
theorem strExplode_pieces (grants : Nat → Nat → Bool) (memory : ByteMem) (src turns : Nat)
    (s : List (BitVec 8)) (delim : BitVec 8) (text : CString memory src s) (notNull : 0 < src)
    (positive : 1 ≤ delim.toNat) (ascii : delim.toNat ≤ 127)
    (granted : ∀ call size, grants call size = true) (small : (s.count delim + 1) * 4 < 2 ^ 32)
    (enough : s.length < turns) :
    ∃ substrings,
      strExplode grants (only memory src (s.length + 1)) turns src delim =
        .ok (substrings, substrings.length) ∧
      substrings.length = s.count delim + 1 ∧
      (∀ substring ∈ substrings, delim ∉ substring ∧ 0 ∉ substring) ∧
      [delim].intercalate substrings = s := by
  have readable := @readable_of_cString memory src s text src (s.length + 1) (Nat.le_refl _)
    (Nat.lt_succ_self _)
  have nonzero : delim ≠ 0 := by
    intro zero
    rw [zero] at positive
    contradiction
  have length := @KConsole.length_splitOn delim s
  refine ⟨s.splitOn delim, ?_, length, ?_, List.intercalate_splitOn delim⟩
  · rw [length]
    exact strExplode_eq granted (by omega) nonzero notNull readable enough small
  · intro substring member
    obtain ⟨clean, inside⟩ := splitOn_pieces s substring member
    exact ⟨clean, fun zero => text.zero_not_mem (inside zero)⟩

/-- Two delimiters, one of them at the end. -/
theorem strExplode_pieces_three :
    ∃ substrings,
      strExplode (fun _ _ => true)
        (only (fun a => [0x61, 0x20, 0x20].getD (a - 100) 0) 100 4) 4 100 0x20 =
          .ok (substrings, substrings.length) ∧
      substrings.length = 3 ∧ [0x20].intercalate substrings = [0x61, 0x20, 0x20] := by
  have text : CString (fun a => [0x61, 0x20, 0x20].getD (a - 100) 0) 100 [0x61, 0x20, 0x20] :=
    .cons rfl (by decide) (.cons rfl (by decide) (.cons rfl (by decide) (.nil rfl)))
  obtain ⟨substrings, returned, count, _, joined⟩ := strExplode_pieces (fun _ _ => true) _ 100 4
    _ 0x20 text (by decide) (by decide) (by decide) (fun _ _ => rfl) (by decide) (by decide)
  exact ⟨substrings, returned, count, joined⟩

end Antonix.Libc
