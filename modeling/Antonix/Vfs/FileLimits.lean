import Antonix.Vfs.File

/-! # The limits of a file

A read clamps its length by a 32-bit sum that can wrap around, and a write that
cannot grow the content buffer forgets the one that the file has.  Below these
limits a file is the byte array of `Antonix.Vfs.File`. -/

namespace Antonix.Vfs

open Buffer

/-! ## The length of a read -/

/-- The node holds these bytes: its size, and a content buffer that starts with them. -/
structure VfsFile.Holds (node : VfsFile) (data : List (BitVec 8)) : Prop where
  small : data.length < 2 ^ 32
  size : node.size = data.length
  content : data ≠ [] →
    ∃ content, node.content = some content ∧ readAt content 0 data.length = data

/-- The bytes from the position on are copied, as many as were asked for and are there; their
number is reported, and the position moves behind them. -/
def ReadsExactly (data : List (BitVec 8)) (str : KStream) (blockSize : Nat)
    (outcome : Except Halt ((HResult × List (BitVec 8) × Nat) × KStream)) : Prop :=
  ∃ hr, outcome = .ok
    ((hr, (data.drop str.pos).take blockSize, min blockSize (data.length - str.pos)),
      { str with pos := str.pos + min blockSize (data.length - str.pos) })

section

variable {node : VfsFile} {data : List (BitVec 8)} {str : KStream} {blockSize : Nat}

theorem VfsFile.Holds.readAt_eq (holds : node.Holds data) (some : data ≠ []) {p n : Nat}
    (inside : p + n ≤ data.length) :
    ∃ content, node.content = Option.some content ∧ readAt content p n = (data.drop p).take n := by
  obtain ⟨content, isContent, bytes⟩ := holds.content some
  refine ⟨content, isContent, ?_⟩
  have rest : data.drop p = readAt content p (data.length - p) := by
    conv_lhs => rw [← bytes]
    rw [drop_readAt (by omega), Nat.zero_add]
  rw [rest, take_readAt (by omega)]

theorem vfsFileRead_unreadable (unreadable : str.mode &&& fileOpenRead = 0) :
    vfsFileRead node str blockSize = .ok ((.eFail, [], 0), str) := if_pos unreadable

/-- A read whose end does not wrap around is clamped to the size. -/
theorem vfsFileRead_clamped (holds : node.Holds data) (within : str.pos ≤ data.length)
    (readable : str.mode &&& fileOpenRead ≠ 0) (noWrap : str.pos + blockSize < 2 ^ 32) :
    vfsFileRead node str blockSize = .ok
      ((if min blockSize (data.length - str.pos) = 0 then .eEndOfStr else .sOk,
          (data.drop str.pos).take blockSize, min blockSize (data.length - str.pos)),
        { str with pos := str.pos + min blockSize (data.length - str.pos) }) := by
  have small := holds.small
  have effective : (if u32 (str.pos + blockSize) > data.length then sub32 data.length str.pos
      else blockSize) = min blockSize (data.length - str.pos) := by
    rw [u32_of_lt noWrap, sub32_of_le within small]
    split <;> omega
  rw [vfsFileRead, if_neg readable, holds.size, u32_of_lt small]
  dsimp only
  rw [if_neg (Nat.not_lt.mpr within), effective]
  by_cases nothing : min blockSize (data.length - str.pos) = 0
  · -- the end of the file, or an empty request
    have empty : (data.drop str.pos).take blockSize = [] := by
      rw [← List.length_eq_zero_iff, List.length_take, List.length_drop, nothing]
    rw [if_pos nothing, if_pos nothing, empty, nothing]
    rfl
  · have some : data ≠ [] := by
      rintro rfl
      simp at nothing
    obtain ⟨content, isContent, bytes⟩ := holds.readAt_eq some
      (show str.pos + min blockSize (data.length - str.pos) ≤ data.length by omega)
    have taken : (data.drop str.pos).take (min blockSize (data.length - str.pos)) =
        (data.drop str.pos).take blockSize := by
      rw [← List.length_drop, ← List.take_eq_take_min]
    rw [if_neg nothing, if_neg nothing, isContent]
    dsimp only
    rw [bytes, taken, u32_of_lt (by omega)]

/-- Where the sum of position and length wraps around, the whole length is taken. -/
theorem not_readsExactly_of_wrap (holds : node.Holds data) (within : str.pos ≤ data.length)
    (request : blockSize < 2 ^ 32) (readable : str.mode &&& fileOpenRead ≠ 0)
    (wraps : 2 ^ 32 ≤ str.pos + blockSize) :
    ¬ ReadsExactly data str blockSize (vfsFileRead node str blockSize) := by
  have small := holds.small
  have sum : u32 (str.pos + blockSize) = str.pos + blockSize - 2 ^ 32 := by
    rw [u32]
    omega
  have notClamped : ¬ u32 (str.pos + blockSize) > data.length := by omega
  have some : blockSize ≠ 0 := by omega
  intro law
  obtain ⟨hr, law⟩ := law
  rw [vfsFileRead, if_neg readable, holds.size, u32_of_lt small] at law
  dsimp only at law
  rw [if_neg (Nat.not_lt.mpr within), if_neg notClamped, if_neg some] at law
  cases content : node.content with
  | none =>
    rw [content] at law
    contradiction
  | some buffer =>
    -- the number of bytes reported is not what the file has left
    rw [content] at law
    have reported := congrArg (fun answer => answer.2.2) (eq_of_returned law).1
    have count : blockSize = min blockSize (data.length - str.pos) := reported
    omega

/-- For every file, position in it and 32-bit length: a read copies, reports and passes over
exactly what there is of the length asked for if and only if the stream is readable and the end
of the request is below 2 ^ 32, or it is not readable and there is nothing to read. -/
theorem vfsFileRead_length_iff (holds : node.Holds data) (within : str.pos ≤ data.length)
    (request : blockSize < 2 ^ 32) :
    ReadsExactly data str blockSize (vfsFileRead node str blockSize) ↔
      if str.mode &&& fileOpenRead ≠ 0 then str.pos + blockSize < 2 ^ 32
      else blockSize = 0 ∨ str.pos = data.length := by
  by_cases unreadable : str.mode &&& fileOpenRead = 0
  · rw [if_neg (not_not_intro unreadable), vfsFileRead_unreadable unreadable]
    constructor
    · intro law
      obtain ⟨hr, law⟩ := law
      have reported := congrArg (fun answer => answer.2.2) (eq_of_returned law).1
      have count : 0 = min blockSize (data.length - str.pos) := reported
      omega
    · intro nothing
      have count : min blockSize (data.length - str.pos) = 0 := by omega
      have empty : (data.drop str.pos).take blockSize = [] := by
        rw [← List.length_eq_zero_iff, List.length_take, List.length_drop, count]
      exact ⟨.eFail, by rw [empty, count]; rfl⟩
  · rw [if_pos unreadable]
    constructor
    · intro law
      by_contra wraps
      exact not_readsExactly_of_wrap holds within request unreadable (Nat.not_lt.mp wraps) law
    · intro noWrap
      exact ⟨_, vfsFileRead_clamped holds within unreadable noWrap⟩

end

/-- A file of three bytes. -/
def threeBytes : VfsFile := ⟨3, some fun i => BitVec.ofNat 8 (i + 1), 3⟩

theorem threeBytes_holds : threeBytes.Holds [1, 2, 3] := ⟨by decide, rfl, fun _ => ⟨_, rfl, rfl⟩⟩

/-- Two of five bytes are there behind the first one. -/
theorem vfsFileRead_length_five :
    ReadsExactly [1, 2, 3] ⟨1, 1⟩ 5 (vfsFileRead threeBytes ⟨1, 1⟩ 5) ↔
      if 1 &&& fileOpenRead ≠ 0 then 1 + 5 < 2 ^ 32 else 5 = 0 ∨ 1 = [1, 2, 3].length :=
  vfsFileRead_length_iff threeBytes_holds (by decide) (by decide)

/-- A read of all that there is behind the first byte, by the largest length, is not clamped. -/
theorem vfsFileRead_not_clamped :
    ¬ ReadsExactly [1, 2, 3] ⟨1, 1⟩ (2 ^ 32 - 1) (vfsFileRead threeBytes ⟨1, 1⟩ (2 ^ 32 - 1)) :=
  not_readsExactly_of_wrap threeBytes_holds (by decide) (by decide) (by decide) (by decide)

/-! ## A write without memory -/

/-- A write that runs out of memory leaves the node and the stream as they were. -/
def WriteAtomic (node : VfsFile) (str : KStream)
    (outcome : Except Halt ((HResult × Nat) × KStream × VfsFile)) : Prop :=
  ∀ written str' node', outcome = .ok ((.eOutOfMem, written), str', node') →
    node' = node ∧ str' = str

/-- What a write of `length` bytes leaves of the node when the memory runs out. -/
inductive RunsOut (node : VfsFile) (pos length : Nat) (allocated reallocated : Option Block) :
    VfsFile → Prop
  | first (none : node.contentCapacity = 0) (full : allocated = Option.none) :
      RunsOut node pos length allocated reallocated { node with content := Option.none }
  | second {content : Block} (none : node.contentCapacity = 0) (first : allocated = some content)
      (more : length < u32 (pos + length)) (full : reallocated = Option.none) :
      RunsOut node pos length allocated reallocated
        { node with content := Option.none, contentCapacity := length }
  | later (some : node.contentCapacity ≠ 0) (more : node.contentCapacity < u32 (pos + length))
      (full : reallocated = none) :
      RunsOut node pos length allocated reallocated { node with content := none }

/-- The write needs memory that it does not get, and the node has a content buffer, or would
be left with the capacity of one. -/
def LosesBuffer (node : VfsFile) (str : KStream) (length : Nat)
    (allocated reallocated : Option Block) : Prop :=
  str.mode &&& fileOpenWrite ≠ 0 ∧ str.pos ≤ u32 node.size ∧
    if node.contentCapacity = 0 then
      allocated = none ∧ node.content ≠ none ∨
        allocated ≠ none ∧ length < u32 (str.pos + length) ∧ reallocated = none ∧
          (node.content ≠ none ∨ length ≠ 0)
    else
      node.contentCapacity < u32 (str.pos + length) ∧ reallocated = none ∧ node.content ≠ none

section

variable {node node' : VfsFile} {str str' : KStream} {block : List (BitVec 8)}
  {allocated reallocated : Option Block} {written : Nat}

theorem vfsFileAlloc_kept (some : node.contentCapacity ≠ 0) (length : Nat) :
    vfsFileAlloc node length allocated = (true, node) := if_neg some

theorem vfsFileGrow_kept {required : Nat} (enough : ¬ required > node.contentCapacity) :
    vfsFileGrow node required reallocated = (true, node) := if_neg enough

/-- The growth of a buffer fails when there is no memory for a larger one. -/
theorem vfsFileGrow_failed {required : Nat}
    (failed : vfsFileGrow node required reallocated = (false, node')) :
    node.contentCapacity < required ∧ reallocated = none ∧
      node' = { node with content := none } := by
  rw [vfsFileGrow] at failed
  split at failed
  · rename_i more
    cases reallocated with
    | none => exact ⟨more, rfl, (Prod.mk.inj failed).2.symm⟩
    | some fresh => cases (Prod.mk.inj failed).1
  · cases (Prod.mk.inj failed).1

theorem vfsFileGrow_none {required : Nat} (more : node.contentCapacity < required) :
    vfsFileGrow node required none = (false, { node with content := none }) := if_pos more

/-- `E_OUTOFMEM` is returned in these cases. -/
theorem vfsFileWrite_outOfMem
    (returned : vfsFileWrite node str block allocated reallocated =
      .ok ((.eOutOfMem, written), str', node')) :
    str.mode &&& fileOpenWrite ≠ 0 ∧ str.pos ≤ u32 node.size ∧ str' = str ∧
      RunsOut node str.pos block.length allocated reallocated node' := by
  rw [vfsFileWrite] at returned
  split at returned
  · cases (eq_of_returned returned).1
  · rename_i writable
    dsimp only at returned
    split at returned
    · contradiction
    · rename_i within
      refine ⟨writable, Nat.not_lt.mp within, ?_⟩
      -- what the first allocation leaves, and what the growth behind it may do
      have grows : ∀ middle, vfsFileAlloc node block.length allocated = (true, middle) →
          str' = str ∧ vfsFileGrow middle (u32 (str.pos + block.length)) reallocated =
            (false, node') := by
        intro middle alloc
        rw [alloc] at returned
        simp only [Bool.not_true, Bool.false_eq_true, if_false] at returned
        cases grow : vfsFileGrow middle (u32 (str.pos + block.length)) reallocated with
        | mk done grown =>
          rw [grow] at returned
          cases done with
          | false =>
            obtain ⟨-, sameStr, sameNode⟩ := eq_of_answered returned
            exact ⟨sameStr.symm, congrArg (Prod.mk false) sameNode⟩
          | true =>
            simp only [Bool.not_true, Bool.false_eq_true, if_false] at returned
            cases content : grown.content with
            | none =>
              rw [content] at returned
              contradiction
            | some buffer =>
              rw [content] at returned
              cases (eq_of_returned returned).1
      by_cases none : node.contentCapacity = 0
      · cases allocated with
        | none =>
          have alloc : vfsFileAlloc node block.length Option.none =
              (false, { node with content := Option.none }) := if_pos none
          rw [alloc] at returned
          obtain ⟨-, sameStr, sameNode⟩ := eq_of_answered returned
          rw [← sameNode]
          exact ⟨sameStr.symm, .first none rfl⟩
        | some first =>
          obtain ⟨sameStr, grow⟩ := grows _ (if_pos none)
          obtain ⟨more, full, sameNode⟩ := vfsFileGrow_failed grow
          rw [sameNode]
          exact ⟨sameStr, .second none rfl more full⟩
      · obtain ⟨sameStr, grow⟩ := grows node (vfsFileAlloc_kept none _)
        obtain ⟨more, full, sameNode⟩ := vfsFileGrow_failed grow
        rw [sameNode]
        exact ⟨sameStr, .later none more full⟩

/-- And in each of them it is. -/
theorem vfsFileWrite_runsOut (writable : str.mode &&& fileOpenWrite ≠ 0)
    (within : str.pos ≤ u32 node.size)
    (runsOut : RunsOut node str.pos block.length allocated reallocated node') :
    vfsFileWrite node str block allocated reallocated = .ok ((.eOutOfMem, 0), str, node') := by
  rw [vfsFileWrite, if_neg writable]
  dsimp only
  rw [if_neg (Nat.not_lt.mpr within)]
  cases runsOut with
  | first none full =>
    have alloc : vfsFileAlloc node block.length Option.none =
        (false, { node with content := Option.none }) := if_pos none
    rw [full, alloc]
    rfl
  | @second content none first more full =>
    have alloc : vfsFileAlloc node block.length (some content) = (true, { node with
        content := some content
        contentCapacity := block.length }) := if_pos none
    have grow : vfsFileGrow ({ node with
        content := some content
        contentCapacity := block.length } : VfsFile) (u32 (str.pos + block.length)) Option.none =
          (false, { node with content := Option.none, contentCapacity := block.length }) :=
      vfsFileGrow_none more
    rw [first, full, alloc]
    dsimp only
    rw [grow]
    rfl
  | later some more full =>
    rw [vfsFileAlloc_kept some, full]
    dsimp only
    rw [vfsFileGrow_none more]
    rfl

theorem content_none_eq (none : node.content = Option.none) :
    { node with content := Option.none } = node := by
  rw [← none]

/-- What is left of the node is the node unless it had a buffer. -/
theorem RunsOut.kept (runsOut : RunsOut node str.pos block.length allocated reallocated node')
    (writable : str.mode &&& fileOpenWrite ≠ 0) (within : str.pos ≤ u32 node.size)
    (safe : ¬ LosesBuffer node str block.length allocated reallocated) : node' = node := by
  cases runsOut with
  | first none full =>
    by_contra changed
    refine safe ⟨writable, within, ?_⟩
    rw [if_pos none]
    exact .inl ⟨full, fun unbuffered => changed (content_none_eq unbuffered)⟩
  | @second content none first more full =>
    by_contra changed
    refine safe ⟨writable, within, ?_⟩
    rw [if_pos none]
    refine .inr ⟨by simp [first], more, full, ?_⟩
    by_contra unchanged
    obtain ⟨unbuffered, empty⟩ := not_or.mp unchanged
    rw [not_not.mp empty, ← none] at changed
    exact changed (content_none_eq (not_not.mp unbuffered))
  | later some more full =>
    by_contra changed
    refine safe ⟨writable, within, ?_⟩
    rw [if_neg some]
    exact ⟨more, full, fun unbuffered => changed (content_none_eq unbuffered)⟩

theorem not_writeAtomic_of_loses (block : List (BitVec 8))
    (loses : LosesBuffer node str block.length allocated reallocated) :
    ¬ WriteAtomic node str (vfsFileWrite node str block allocated reallocated) := by
  intro atomic
  obtain ⟨writable, within, loses⟩ := loses
  have same : ∀ left, RunsOut node str.pos block.length allocated reallocated left →
      left = node := fun left runsOut =>
    (atomic 0 str left (vfsFileWrite_runsOut writable within runsOut)).1
  by_cases none : node.contentCapacity = 0
  · rw [if_pos none] at loses
    cases loses with
    | inl first => exact first.2 (congrArg VfsFile.content (same _ (.first none first.1))).symm
    | inr second =>
      obtain ⟨first, more, full, lost⟩ := second
      obtain ⟨content, first⟩ := Option.ne_none_iff_exists'.mp first
      have left := same _ (.second none first more full)
      cases lost with
      | inl buffered => exact buffered (congrArg VfsFile.content left).symm
      | inr some => exact some ((congrArg VfsFile.contentCapacity left).trans none)
  · rw [if_neg none] at loses
    obtain ⟨more, full, buffered⟩ := loses
    exact buffered (congrArg VfsFile.content (same _ (.later none more full))).symm

/-- For every file, stream, block and outcome of the allocations: a write that returns
`E_OUTOFMEM` has changed nothing if and only if it is not one that needs memory, gets none and
loses the content buffer of the file. -/
theorem vfsFileWrite_atomic_iff (node : VfsFile) (str : KStream) (block : List (BitVec 8))
    (allocated reallocated : Option Block) :
    WriteAtomic node str (vfsFileWrite node str block allocated reallocated) ↔
      ¬ LosesBuffer node str block.length allocated reallocated := by
  constructor
  · intro atomic loses
    exact not_writeAtomic_of_loses block loses atomic
  · intro safe written str' node' returned
    obtain ⟨writable, within, sameStr, runsOut⟩ := vfsFileWrite_outOfMem returned
    exact ⟨runsOut.kept writable within safe, sameStr⟩

/-- Without its buffer a file can neither be read nor be written where the write needs no
larger one. -/
theorem stuck_without_buffer {blockSize : Nat} (lost : node.content = none)
    (some : node.contentCapacity ≠ 0) (within : str.pos ≤ u32 node.size) :
    (str.mode &&& fileOpenRead ≠ 0 → 0 < blockSize → str.pos < u32 node.size →
      str.pos + blockSize < 2 ^ 32 → vfsFileRead node str blockSize = .error .stuck) ∧
    (str.mode &&& fileOpenWrite ≠ 0 → u32 (str.pos + block.length) ≤ node.contentCapacity →
      vfsFileWrite node str block allocated reallocated = .error .stuck) := by
  constructor
  · intro readable positive inside noWrap
    have size := u32_lt node.size
    have effective : (if u32 (str.pos + blockSize) > u32 node.size then
        sub32 (u32 node.size) str.pos else blockSize) ≠ 0 := by
      rw [u32_of_lt noWrap, sub32_of_le within size]
      split <;> omega
    rw [vfsFileRead, if_neg readable]
    dsimp only
    rw [if_neg (Nat.not_lt.mpr within), if_neg effective, lost]
  · intro writable enough
    rw [vfsFileWrite, if_neg writable]
    dsimp only
    rw [if_neg (Nat.not_lt.mpr within), vfsFileAlloc_kept some]
    dsimp only
    rw [vfsFileGrow_kept (Nat.not_lt.mpr enough), lost]
    rfl

end

/-- A byte written behind the three, with no memory for a larger buffer: the content is lost,
and the next read of the file is undefined. -/
theorem vfsFileWrite_not_atomic :
    ∃ node, vfsFileWrite threeBytes ⟨3, 3⟩ [4] none none = .ok ((.eOutOfMem, 0), ⟨3, 3⟩, node) ∧
      node.content = none ∧ vfsFileRead node ⟨1, 0⟩ 3 = .error .stuck ∧
      ¬ WriteAtomic threeBytes ⟨3, 3⟩ (vfsFileWrite threeBytes ⟨3, 3⟩ [4] none none) :=
  ⟨_, rfl, rfl, rfl, not_writeAtomic_of_loses [4]
    ⟨by decide, by decide, by decide, rfl, Option.some_ne_none _⟩⟩

end Antonix.Vfs
