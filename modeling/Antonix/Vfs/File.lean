import Mathlib.Logic.Function.Basic
import Antonix.Types
import Antonix.Lib.Buffer
import Antonix.Lib.Transition

/-! # Files of the VFS (`vfs.c`)

The content of a file is a memory block that grows by `krealloc`.  What an
allocation returns is an argument: no block, or a block that holds anything.  The
locks only make `vfs_file_seek` atomic and are left out. -/

namespace Antonix.Vfs

open Buffer Function Transition

/-- `FILE_OPEN_READ` -/
abbrev fileOpenRead : Nat := 0x01

/-- `FILE_OPEN_WRITE` -/
abbrev fileOpenWrite : Nat := 0x02

/-- `KSTREAM_ORIGIN_CURRENT` -/
abbrev kstreamOriginCurrent : Int := 0x00

/-- `KSTREAM_ORIGIN_BEGINNING` -/
abbrev kstreamOriginBeginning : Int := 0x01

/-- `KSTREAM_ORIGIN_END` -/
abbrev kstreamOriginEnd : Int := 0x02

/-- A block of memory, byte by byte. -/
abbrev Block := Nat → BitVec 8

/-- `K_VFS_NODE`, what a file uses. -/
structure VfsFile where
  size : Nat
  content : Option Block
  contentCapacity : Nat

/-- A file as `vfs_create` leaves it. -/
def VfsFile.created : VfsFile where
  size := 0
  content := none
  contentCapacity := 0

/-- `K_STREAM` -/
structure KStream where
  mode : Nat
  pos : Nat

/-- `krealloc` of a block of `capacity` bytes to a larger `fresh` one. -/
def krealloc (content : Option Block) (capacity : Nat) (fresh : Block) : Block :=
  match content with
  | none => fresh
  | some content => fun i => if i < capacity then content i else fresh i

/-- `vfs_file_read`: the status, the bytes copied to `out_buf` and `bytes_read`. -/
def vfsFileRead (node : VfsFile) (str : KStream) (blockSize : Nat) :
    Except Halt ((HResult × List (BitVec 8) × Nat) × KStream) :=
  if str.mode &&& fileOpenRead = 0 then .ok ((.eFail, [], 0), str)
  else
    let nodeSize := u32 node.size
    if str.pos > nodeSize then .error (.panic "File pos is beyond it's size.")
    else
      let effective :=
        if u32 (str.pos + blockSize) > nodeSize then sub32 nodeSize str.pos else blockSize
      if effective = 0 then .ok ((.eEndOfStr, [], 0), str)
      else
        match node.content with
        | none => .error .stuck
        | some content =>
          .ok ((.sOk, readAt content str.pos effective, effective),
            { str with pos := u32 (str.pos + effective) })

/-- The first content buffer of a file, with whether there is one now. -/
def vfsFileAlloc (node : VfsFile) (blockSize : Nat) (allocated : Option Block) : Bool × VfsFile :=
  if node.contentCapacity = 0 then
    match allocated with
    | none => (false, { node with content := none })
    | some content => (true, { node with content := some content, contentCapacity := blockSize })
  else (true, node)

/-- Grow the content buffer to 1.2 times the required capacity, if it is smaller than required. -/
def vfsFileGrow (node : VfsFile) (required : Nat) (reallocated : Option Block) : Bool × VfsFile :=
  if required > node.contentCapacity then
    let newCap := u32 (required + u32 (required * 2) / 10)
    match reallocated with
    | none => (false, { node with content := none })
    | some fresh =>
      (true, { node with
        content := some (krealloc node.content node.contentCapacity fresh)
        contentCapacity := newCap })
  else (true, node)

/-- `vfs_file_write` of the bytes `block`: the status and `bytes_written`. -/
def vfsFileWrite (node : VfsFile) (str : KStream) (block : List (BitVec 8))
    (allocated reallocated : Option Block) :
    Except Halt ((HResult × Nat) × KStream × VfsFile) :=
  if str.mode &&& fileOpenWrite = 0 then .ok ((.eFail, 0), str, node)
  else
    let nodeSize := u32 node.size
    if str.pos > nodeSize then .error (.panic "vfs_file_write(): File pos is beyond it's size.")
    else
      let (done, node) := vfsFileAlloc node block.length allocated
      if !done then .ok ((.eOutOfMem, 0), str, node)
      else
        let (done, node) := vfsFileGrow node (u32 (str.pos + block.length)) reallocated
        if !done then .ok ((.eOutOfMem, 0), str, node)
        else
          match node.content with
          | none => .error .stuck
          | some content =>
            let pos := u32 (str.pos + block.length)
            .ok ((.sOk, block.length), { str with pos := pos },
              { node with
                content := some (writeAt content str.pos block)
                size := if pos > node.size then pos else node.size })

/-- The position that a seek asks for. -/
def seekTarget (nodeSize pos : Nat) (offset origin : Int) : Option Int :=
  if origin = kstreamOriginBeginning then some (i32 offset)
  else if origin = kstreamOriginCurrent then some (i32 (pos + offset))
  else if origin = kstreamOriginEnd then some (i32 (i32 nodeSize - offset))
  else none

/-- `vfs_file_seek` -/
def vfsFileSeek (node : VfsFile) (s : KStream) (pos origin : Int) : HResult × KStream :=
  match seekTarget node.size s.pos pos origin with
  | none => (.eInvalidArg, s)
  | some newPos =>
    if newPos < 0 ∨ newPos > i32 node.size then (.eInvalidArg, s)
    else (.sOk, { s with pos := newPos.toNat })

/-- `vfs_file_tell` -/
def vfsFileTell (s : KStream) : Nat := s.pos

/-! ## Calls -/

/-- One file and the streams that are open on it. -/
structure FileState where
  node : VfsFile
  streams : Nat → KStream

/-- A new file with a stream of each mode given, at position 0 as `vfs_open` leaves it. -/
def FileState.opened (modes : Nat → Nat) : FileState where
  node := .created
  streams := fun i => { mode := modes i, pos := 0 }

/-- The calls on the stream `i`. -/
inductive FileCall where
  | read (i blockSize : Nat)
  | write (i : Nat) (block : List (BitVec 8))
  | seek (i : Nat) (pos origin : Int)
  | tell (i : Nat)

/-- What a call hands back. -/
inductive FileAnswer where
  | read (hr : HResult) (data : List (BitVec 8)) (bytesRead : Nat)
  | write (hr : HResult) (bytesWritten : Nat)
  | seek (hr : HResult)
  | tell (pos : Nat)

def fileCall (s : FileState) (allocated reallocated : Option Block) :
    FileCall → Except Halt (FileAnswer × FileState)
  | .read i blockSize => do
    let ((hr, data, bytesRead), str) ← vfsFileRead s.node (s.streams i) blockSize
    .ok (.read hr data bytesRead, { s with streams := update s.streams i str })
  | .write i block => do
    let ((hr, bytesWritten), str, node) ←
      vfsFileWrite s.node (s.streams i) block allocated reallocated
    .ok (.write hr bytesWritten, { node := node, streams := update s.streams i str })
  | .seek i pos origin =>
    let (hr, str) := vfsFileSeek s.node (s.streams i) pos origin
    .ok (.seek hr, { s with streams := update s.streams i str })
  | .tell i => .ok (.tell (vfsFileTell (s.streams i)), s)

/-- A call that returns; its allocations succeed. -/
def FileStep (s : FileState) (op : FileCall × FileAnswer) (t : FileState) : Prop :=
  ∃ allocated reallocated, fileCall s (some allocated) (some reallocated) op.1 = .ok (op.2, t)

/-- Block sizes are positive and end below `2 ^ 31`. -/
def InRange (s : FileState) : FileCall → Prop
  | .read i blockSize => 0 < blockSize ∧ (s.streams i).pos + blockSize < 2 ^ 31
  | .write i block => 0 < block.length ∧ (s.streams i).pos + block.length < 2 ^ 31
  | .seek _ _ _ | .tell _ => True

/-! ## A byte array with cursors -/

/-- The abstract file: its bytes, and a cursor per stream that is never beyond the end. -/
structure ByteFile where
  data : List (BitVec 8)
  cursors : Nat → Nat
  bounded : ∀ i, cursors i ≤ data.length

namespace ByteFile

/-- No bytes. -/
def empty : ByteFile where
  data := []
  cursors := fun _ => 0
  bounded := fun _ => Nat.le_refl 0

/-- Move one cursor. -/
def moveTo (file : ByteFile) (i p : Nat) (inside : p ≤ file.data.length) : ByteFile where
  data := file.data
  cursors := update file.cursors i p
  bounded := by
    intro j
    by_cases same : j = i
    · subst same
      rw [update_self]
      exact inside
    · rw [update_of_ne same]
      exact file.bounded j

/-- The bytes from a cursor on, up to `n`. -/
def chunk (file : ByteFile) (i n : Nat) : List (BitVec 8) :=
  (file.data.drop (file.cursors i)).take n

theorem chunk_inside (file : ByteFile) (i n : Nat) :
    file.cursors i + (file.chunk i n).length ≤ file.data.length := by
  have bounded := file.bounded i
  rw [chunk, List.length_take, List.length_drop]
  omega

/-- Replace the bytes from a cursor on, and move it behind them. -/
def overwrite (file : ByteFile) (i : Nat) (block : List (BitVec 8)) : ByteFile where
  data := splice file.data (file.cursors i) block
  cursors := update file.cursors i (file.cursors i + block.length)
  bounded := by
    intro j
    rw [length_splice (file.bounded i)]
    by_cases same : j = i
    · subst same
      rw [update_self]
      exact Nat.le_max_right _ _
    · rw [update_of_ne same]
      exact Nat.le_trans (file.bounded j) (Nat.le_max_left _ _)

end ByteFile

/-- The same calls on a byte array, for streams of the modes given. -/
def byteFileCall (modes : Nat → Nat) (file : ByteFile) : FileCall → FileAnswer × ByteFile
  | .read i n =>
    if modes i &&& fileOpenRead = 0 then (.read .eFail [] 0, file)
    else if file.chunk i n = [] then (.read .eEndOfStr [] 0, file)
    else
      (.read .sOk (file.chunk i n) (file.chunk i n).length,
        file.moveTo i (file.cursors i + (file.chunk i n).length) (file.chunk_inside i n))
  | .write i block =>
    if modes i &&& fileOpenWrite = 0 then (.write .eFail 0, file)
    else (.write .sOk block.length, file.overwrite i block)
  | .seek i pos origin =>
    match seekTarget file.data.length (file.cursors i) pos origin with
    | none => (.seek .eInvalidArg, file)
    | some p =>
      if inside : 0 ≤ p ∧ p ≤ file.data.length then
        (.seek .sOk, file.moveTo i p.toNat (by omega))
      else (.seek .eInvalidArg, file)
  | .tell i => (.tell (file.cursors i), file)

/-! ## The file holds the bytes -/

/-- The node and the streams hold the bytes and the cursors. -/
structure Represents (modes : Nat → Nat) (s : FileState) (file : ByteFile) : Prop where
  small : file.data.length < 2 ^ 31
  size : s.node.size = file.data.length
  capacity : file.data.length ≤ s.node.contentCapacity
  content : s.node.contentCapacity ≠ 0 →
    ∃ content, s.node.content = some content ∧ readAt content 0 file.data.length = file.data
  streams : ∀ i, s.streams i = { mode := modes i, pos := file.cursors i }

/-- The node has a content buffer that holds the bytes. -/
def Backed (node : VfsFile) (data : List (BitVec 8)) : Prop :=
  ∃ content, node.content = some content ∧ readAt content 0 data.length = data ∧
    data.length ≤ node.contentCapacity

section

variable {modes : Nat → Nat} {s : FileState} {file : ByteFile}

/-- The first block of a file is a buffer for its bytes: there are none yet. -/
theorem vfsFileAlloc_backed (rep : Represents modes s file) (blockSize : Nat) (allocated : Block) :
    ∃ node, vfsFileAlloc s.node blockSize (some allocated) = (true, node) ∧
      Backed node file.data ∧ node.size = s.node.size := by
  by_cases none : s.node.contentCapacity = 0
  · -- without a capacity there is nothing to keep
    have nothing : file.data = [] := by
      have capacity := rep.capacity
      rw [none, Nat.le_zero] at capacity
      exact List.length_eq_zero_iff.mp capacity
    refine ⟨{ s.node with content := some allocated, contentCapacity := blockSize },
      by simp [vfsFileAlloc, none], ⟨allocated, rfl, ?_, ?_⟩, rfl⟩
    · rw [nothing]
      rfl
    · rw [nothing]
      exact Nat.zero_le _
  · obtain ⟨content, isContent, holds⟩ := rep.content none
    exact ⟨s.node, by simp [vfsFileAlloc, none], ⟨content, isContent, holds, rep.capacity⟩, rfl⟩

/-- A grown buffer holds the same bytes. -/
theorem vfsFileGrow_backed {node : VfsFile} {data : List (BitVec 8)} (backed : Backed node data)
    (required : Nat) (small : required < 2 ^ 31) (fresh : Block) :
    ∃ node', vfsFileGrow node required (some fresh) = (true, node') ∧ Backed node' data ∧
      required ≤ node'.contentCapacity ∧ node'.size = node.size := by
  obtain ⟨content, isContent, holds, capacity⟩ := backed
  by_cases more : required > node.contentCapacity
  · have newCap : u32 (required + u32 (required * 2) / 10) = required + required * 2 / 10 := by
      rw [u32_of_lt (x := required * 2) (by omega), u32_of_lt (by omega)]
    refine ⟨{ node with
        content := some (krealloc node.content node.contentCapacity fresh)
        contentCapacity := u32 (required + u32 (required * 2) / 10) },
      by simp [vfsFileGrow, more], ⟨_, rfl, ?_, ?_⟩, ?_, rfl⟩
    · -- what `krealloc` copies covers the bytes of the file
      conv_rhs => rw [← holds]
      apply readAt_congr
      intro i short
      rw [isContent, krealloc]
      exact if_pos (by omega)
    · change data.length ≤ u32 _
      rw [newCap]
      omega
    · change required ≤ u32 _
      rw [newCap]
      omega
  · exact ⟨node, by simp [vfsFileGrow, more], ⟨content, isContent, holds, capacity⟩,
      Nat.not_lt.mp more, rfl⟩

/-- A file whose bytes are in a content buffer of the node. -/
theorem Backed.represents {node : VfsFile} {streams : Nat → KStream}
    (backed : Backed node file.data) (small : file.data.length < 2 ^ 31)
    (size : node.size = file.data.length)
    (cursors : ∀ i, streams i = { mode := modes i, pos := file.cursors i }) :
    Represents modes { node := node, streams := streams } file := by
  obtain ⟨content, isContent, holds, capacity⟩ := backed
  exact ⟨small, size, capacity, fun _ => ⟨content, isContent, holds⟩, cursors⟩

theorem Represents.update_streams (rep : Represents modes s file) (i p j : Nat) :
    update s.streams i { mode := modes i, pos := p } j =
      { mode := modes j, pos := update file.cursors i p j } := by
  by_cases same : j = i
  · subst same
    rw [update_self, update_self]
  · rw [update_of_ne same, update_of_ne same, rep.streams j]

/-- Moving a stream moves its cursor. -/
theorem Represents.moveTo (rep : Represents modes s file) (i p : Nat)
    (inside : p ≤ file.data.length) :
    Represents modes { s with streams := update s.streams i { mode := modes i, pos := p } }
      (file.moveTo i p inside) where
  small := rep.small
  size := rep.size
  capacity := rep.capacity
  content := rep.content
  streams := rep.update_streams i p

theorem streams_kept (s : FileState) (i : Nat) :
    { s with streams := update s.streams i (s.streams i) } = s := by
  rw [update_eq_self]

/-- What is read from a stream is what the file has from the cursor on. -/
theorem Represents.read (rep : Represents modes s file) (i n : Nat) (positive : 0 < n)
    (small : file.cursors i + n < 2 ^ 31) :
    vfsFileRead s.node (s.streams i) n =
      if modes i &&& fileOpenRead = 0 then .ok ((.eFail, [], 0), s.streams i)
      else if file.chunk i n = [] then .ok ((.eEndOfStr, [], 0), s.streams i)
      else .ok ((.sOk, file.chunk i n, (file.chunk i n).length),
        { mode := modes i, pos := file.cursors i + (file.chunk i n).length }) := by
  have bounded := file.bounded i
  have dataSmall := rep.small
  have length : (file.chunk i n).length = min n (file.data.length - file.cursors i) := by
    rw [ByteFile.chunk, List.length_take, List.length_drop]
  have effective : (if u32 (file.cursors i + n) > file.data.length then
      sub32 file.data.length (file.cursors i) else n) = (file.chunk i n).length := by
    rw [u32_of_lt (by omega), sub32_of_le bounded (by omega), length]
    split <;> omega
  rw [vfsFileRead, rep.streams i, rep.size, u32_of_lt (x := file.data.length) (by omega)]
  dsimp only
  rw [if_neg (Nat.not_lt.mpr bounded), effective]
  by_cases unreadable : modes i &&& fileOpenRead = 0
  · rw [if_pos unreadable, if_pos unreadable]
  · rw [if_neg unreadable, if_neg unreadable]
    by_cases atEnd : file.chunk i n = []
    · rw [if_pos atEnd, atEnd, List.length_nil, if_pos rfl]
    · have some : (file.chunk i n).length ≠ 0 := fun none => atEnd (List.length_eq_zero_iff.mp none)
      -- a file with bytes has a buffer
      have capacity := rep.capacity
      obtain ⟨content, isContent, holds⟩ := rep.content (by omega)
      have data : readAt content (file.cursors i) (file.chunk i n).length = file.chunk i n := by
        have rest : file.data.drop (file.cursors i) =
            readAt content (file.cursors i) (file.data.length - file.cursors i) := by
          conv_lhs => rw [← holds]
          rw [drop_readAt bounded, Nat.zero_add]
        rw [length, ByteFile.chunk, rest]
        by_cases enough : n ≤ file.data.length - file.cursors i
        · rw [Nat.min_eq_left enough, take_readAt enough]
        · rw [Nat.min_eq_right (by omega), List.take_of_length_le (by rw [length_readAt]; omega)]
      rw [if_neg some, if_neg atEnd, isContent]
      dsimp only
      rw [data, u32_of_lt (by omega)]

/-- A write to a writable stream goes through. -/
theorem Represents.write (rep : Represents modes s file) (i : Nat) (block : List (BitVec 8))
    (small : file.cursors i + block.length < 2 ^ 31) (allocated reallocated : Block)
    (writable : modes i &&& fileOpenWrite ≠ 0) :
    ∃ node, vfsFileWrite s.node (s.streams i) block (some allocated) (some reallocated) =
        .ok ((.sOk, block.length),
          { mode := modes i, pos := file.cursors i + block.length }, node) ∧
      Backed node (file.overwrite i block).data ∧
      node.size = (file.overwrite i block).data.length := by
  have bounded := file.bounded i
  have dataSmall := rep.small
  obtain ⟨first, alloc, backed, sameSize⟩ := vfsFileAlloc_backed rep block.length allocated
  have required : u32 (file.cursors i + block.length) = file.cursors i + block.length :=
    u32_of_lt (by omega)
  obtain ⟨grown, grow, ⟨content, isContent, holds, capacity⟩, enough, sameSize'⟩ :=
    vfsFileGrow_backed backed (file.cursors i + block.length) small reallocated
  have size : grown.size = file.data.length := by rw [sameSize', sameSize, rep.size]
  have newSize : (if file.cursors i + block.length > file.data.length then
      file.cursors i + block.length else file.data.length) =
        (file.overwrite i block).data.length := by
    rw [ByteFile.overwrite, length_splice bounded]
    split <;> omega
  refine ⟨{ grown with
      content := some (writeAt content (file.cursors i) block)
      size := (file.overwrite i block).data.length }, ?_, ⟨_, rfl, ?_, ?_⟩, rfl⟩
  · rw [vfsFileWrite, rep.streams i, rep.size, u32_of_lt (x := file.data.length) (by omega)]
    dsimp only
    rw [if_neg writable, if_neg (Nat.not_lt.mpr bounded), alloc]
    simp only [Bool.not_true, Bool.false_eq_true, if_false, required, grow, isContent, size,
      newSize]
  · rw [ByteFile.overwrite, length_splice bounded, readAt_writeAt_splice bounded, holds]
  · -- the buffer was grown for the end of the write
    change (file.overwrite i block).data.length ≤ grown.contentCapacity
    rw [← newSize]
    split <;> omega

/-- Every call in range returns, with the answer of the byte array. -/
theorem fileCall_represents (rep : Represents modes s file) {call : FileCall}
    (inRange : InRange s call) (allocated reallocated : Block) :
    ∃ t, fileCall s (some allocated) (some reallocated) call =
        .ok ((byteFileCall modes file call).1, t) ∧
      Represents modes t (byteFileCall modes file call).2 := by
  cases call with
  | read i n =>
    have small : file.cursors i + n < 2 ^ 31 := by simpa [rep.streams i] using inRange.2
    simp only [fileCall, byteFileCall, rep.read i n inRange.1 small]
    by_cases unreadable : modes i &&& fileOpenRead = 0
    · simp only [if_pos unreadable]
      exact ⟨s, by simp [bind, Except.bind], rep⟩
    · simp only [if_neg unreadable]
      by_cases atEnd : file.chunk i n = []
      · simp only [if_pos atEnd]
        exact ⟨s, by simp [bind, Except.bind], rep⟩
      · simp only [if_neg atEnd]
        exact ⟨_, rfl, rep.moveTo i _ _⟩
  | write i block =>
    have small : file.cursors i + block.length < 2 ^ 31 := by simpa [rep.streams i] using inRange.2
    by_cases unwritable : modes i &&& fileOpenWrite = 0
    · have refused : vfsFileWrite s.node (s.streams i) block (some allocated) (some reallocated) =
          .ok ((.eFail, 0), s.streams i, s.node) := by
        rw [vfsFileWrite, rep.streams i]
        exact if_pos unwritable
      simp only [fileCall, byteFileCall, refused, if_pos unwritable]
      refine ⟨_, rfl, ?_⟩
      rw [streams_kept]
      exact rep
    · obtain ⟨node, written, backed, size⟩ :=
        rep.write i block small allocated reallocated unwritable
      simp only [fileCall, byteFileCall, written, if_neg unwritable]
      have bounded := file.bounded i
      have newSmall : (file.overwrite i block).data.length < 2 ^ 31 := by
        have dataSmall := rep.small
        rw [ByteFile.overwrite, length_splice bounded]
        omega
      exact ⟨_, rfl, backed.represents newSmall size (rep.update_streams i _)⟩
  | seek i pos origin =>
    have length : i32 file.data.length = file.data.length := i32_of_small rep.small
    have cursor : (s.streams i).pos = file.cursors i := by rw [rep.streams i]
    simp only [fileCall, byteFileCall, vfsFileSeek, rep.size, length, cursor]
    cases target : seekTarget file.data.length (file.cursors i) pos origin with
    | none =>
      refine ⟨_, rfl, ?_⟩
      rw [streams_kept]
      exact rep
    | some p =>
      by_cases inside : 0 ≤ p ∧ p ≤ file.data.length
      · simp only [dif_pos inside, if_neg (show ¬ (p < 0 ∨ p > file.data.length) by omega)]
        refine ⟨_, rfl, ?_⟩
        rw [rep.streams i]
        exact rep.moveTo i p.toNat (by omega)
      · simp only [dif_neg inside, if_pos (show p < 0 ∨ p > file.data.length by omega)]
        refine ⟨_, rfl, ?_⟩
        rw [streams_kept]
        exact rep
  | tell i =>
    refine ⟨s, ?_, rep⟩
    simp [fileCall, byteFileCall, vfsFileTell, rep.streams i]

/-- The positions and the sizes of every reachable state are in order. -/
theorem Represents.bounds (rep : Represents modes s file) (i : Nat) :
    (s.streams i).pos ≤ s.node.size ∧ s.node.size ≤ s.node.contentCapacity := by
  rw [rep.streams i, rep.size]
  exact ⟨file.bounded i, rep.capacity⟩

end

end Antonix.Vfs
