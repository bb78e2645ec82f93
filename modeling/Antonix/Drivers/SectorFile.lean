import Antonix.Types
import Antonix.Lib.Buffer

/-! # Files that are read sector by sector

`fat16.c` and `iso9660.c` hold the same code for reading a file at any byte, with a
cache of one sector in each stream.  It is modelled once, over what the drivers do
differently: the size of a sector, the size of the file and the function that reads
whole sectors.  What a `kmalloc` returns is an argument.  The mutex of a stream makes
its calls atomic and is left out. -/

namespace Antonix.Drivers

open Buffer

/-- A block of memory, byte by byte. -/
abbrev Block := Nat → BitVec 8

/-- What was written to `out_buf`: nothing, or a byte, at every offset. -/
abbrev OutBuf := Nat → Option (BitVec 8)

/-- The file that a stream is open on: `bytes_per_sector` or `ISO9660_SECTOR_SIZE`, the size
in the directory entry, and `fat16_read_file_content` or `iso9660_file_read_block`, with the
bytes that it puts to its `dst`. -/
structure SectorFile where
  blockSize : Nat
  size : Nat
  readContent : Nat → Nat → Except Halt (HResult × List (BitVec 8))

/-- The cache of `FAT16_STR_CONTEXT` and `ISO9660_STR_CONTEXT`. -/
structure StrCache where
  cap : Nat
  startAddr : Nat
  size : Nat
  buff : Option Block
  invalid : Bool

/-- A cache as `kcalloc` returns it. -/
def StrCache.zeroed : StrCache where
  cap := 0
  startAddr := 0
  size := 0
  buff := none
  invalid := false

/-- `memcpy` from the cache buffer. -/
def copyCached (buff : Option Block) (offs len : Nat) : Except Halt (List (BitVec 8)) :=
  match buff with
  | none => if len = 0 then .ok [] else .error .stuck
  | some buff => .ok (readAt buff offs len)

/-- `memcpy` to `out_buf`. -/
def put (dst : OutBuf) (index : Nat) (bytes : List (BitVec 8)) : OutBuf :=
  writeAt dst index (bytes.map some)

/-- The buffer of `fat16_cache_blocks` with room for `bytes`. -/
def roomFor (sc : StrCache) (bytes : Nat) (alloc : Option Block) : Option StrCache :=
  if sc.cap < bytes then
    match alloc with
    | none => none
    | some fresh => some { sc with buff := some fresh, cap := bytes, invalid := true }
  else some sc

/-- `fat16_cache_blocks` and `iso9660_cache_blocks` -/
def cacheBlocks (f : SectorFile) (alloc : Option Block) (sc : StrCache) (startAddr blockCnt : Nat) :
    Except Halt (HResult × StrCache) :=
  if startAddr % f.blockSize ≠ 0 ∨ blockCnt = 0 then .ok (.eInvalidArg, sc)
  else
    let bytes := u32 (blockCnt * f.blockSize)
    match roomFor sc bytes alloc with
    | none => .ok (.eOutOfMem, { sc with buff := none })
    | some sc => do
      let (hr, content) ← f.readContent startAddr bytes
      let sc := { sc with buff := sc.buff.map fun buff => writeAt buff 0 content }
      if hr.failed then .ok (hr, sc)
      else .ok (.sOk, { sc with startAddr := startAddr, size := bytes, invalid := false })

/-- The locals of `fat16_read_subblock`, with the stream's cache and what was written to `dst`. -/
structure Transfer where
  sc : StrCache
  dst : OutBuf
  writeIndex : Nat
  readIndex : Nat
  size : Nat

/-- The first sector, where the read does not start with it. -/
def readHead (f : SectorFile) (alloc : Option Block) (x : Transfer) :
    Except Halt (HResult × Transfer) :=
  if x.readIndex % f.blockSize ≠ 0 then do
    let offs := x.readIndex % f.blockSize
    let (hr, sc) ← cacheBlocks f alloc x.sc (sub32 x.readIndex offs) 1
    if hr.failed then .ok (hr, { x with sc := sc })
    else
      let rest := sub32 f.blockSize offs
      let bytes ← copyCached sc.buff offs rest
      .ok (.sOk, {
        sc := sc
        dst := put x.dst x.writeIndex bytes
        writeIndex := u32 (x.writeIndex + rest)
        readIndex := u32 (x.readIndex + rest)
        size := sub32 x.size rest })
  else .ok (.sOk, x)

/-- The aligned sectors. -/
def readMiddle (f : SectorFile) (x : Transfer) : Except Halt (HResult × Transfer) :=
  if x.readIndex % f.blockSize ≠ 0 then .error (.panic "fat16_read_subblock(): unexpected.")
  else do
    let bytes := u32 (x.size / f.blockSize * f.blockSize)
    let (hr, content) ← f.readContent x.readIndex bytes
    let dst := put x.dst x.writeIndex content
    if hr.failed then .ok (hr, { x with dst := dst })
    else
      .ok (.sOk, {
        sc := x.sc
        dst := dst
        writeIndex := u32 (x.writeIndex + bytes)
        readIndex := u32 (x.readIndex + bytes)
        size := sub32 x.size bytes })

/-- The last sector, where the read ends inside of it. -/
def readTail (f : SectorFile) (alloc : Option Block) (x : Transfer) :
    Except Halt (HResult × Transfer) :=
  if x.size ≥ f.blockSize then .error (.panic "fat16_read_subblock(): unexpected(2).")
  else if x.size > 0 then do
    let (hr, sc) ← cacheBlocks f alloc x.sc x.readIndex 1
    if hr.failed then .ok (hr, { x with sc := sc })
    else
      let bytes ← copyCached sc.buff 0 x.size
      .ok (.sOk, { x with sc := sc, dst := put x.dst x.writeIndex bytes })
  else .ok (.sOk, x)

/-- What the cache does not hold.  A sector size of 0 is a division by zero. -/
def readMissing (f : SectorFile) (alloc : Option Block) (x : Transfer) :
    Except Halt (HResult × Transfer) :=
  if f.blockSize = 0 then .error .stuck
  else do
    let (hr, x) ← readHead f alloc x
    if hr.failed then .ok (hr, x)
    else
      let (hr, x) ← readMiddle f x
      if hr.failed then .ok (hr, x)
      else readTail f alloc x

/-- `fat16_read_subblock` and `iso9660_file_read_buffer`, into an `out_buf` that is not
written yet. -/
def readSubblock (f : SectorFile) (alloc : Option Block) (sc : StrCache) (startAddr size : Nat) :
    Except Halt (HResult × Transfer) :=
  let start : Transfer := ⟨sc, fun _ => none, 0, startAddr, size⟩
  if !sc.invalid ∧ startAddr ≥ sc.startAddr ∧ startAddr ≤ u32 (sc.startAddr + sc.size) then do
    let cacheOffs := sub32 startAddr sc.startAddr
    if u32 (startAddr + size) ≤ u32 (sc.startAddr + sc.size) then
      let bytes ← copyCached sc.buff cacheOffs size
      .ok (.sOk, { start with dst := put start.dst 0 bytes })
    else
      let written := sub32 sc.size cacheOffs
      let bytes ← copyCached sc.buff cacheOffs written
      readMissing f alloc {
        sc := sc
        dst := put start.dst 0 bytes
        writeIndex := written
        readIndex := u32 (startAddr + written)
        size := sub32 size written }
  else readMissing f alloc start

/-! ## Stream calls -/

/-- `K_STREAM` with its private data. -/
structure FileStream where
  pos : Nat
  cache : StrCache

/-- A stream as `fat16_open` and `iso9660_open` return it. -/
def FileStream.opened : FileStream := ⟨0, .zeroed⟩

/-- What a read answers: the status, `bytes_read` if it is set, and `out_buf`. -/
structure ReadAnswer where
  hr : HResult
  bytesRead : Option Nat
  outBuf : OutBuf

/-- The `effective_size` of a read. -/
def effectiveSize (f : SectorFile) (pos blockSize : Nat) : Nat :=
  if u32 (blockSize + pos) ≥ f.size then sub32 f.size pos else blockSize

/-- `fat16_file_read` and `iso9660_file_read`; `outBuf` says whether `out_buf` is not null. -/
def fileRead (f : SectorFile) (alloc : Option Block) (str : FileStream) (blockSize : Nat)
    (outBuf : Bool) : Except Halt (ReadAnswer × FileStream) :=
  if blockSize = 0 then .ok (⟨.eInvalidArg, none, fun _ => none⟩, str)
  else if !outBuf then .ok (⟨.ePointer, none, fun _ => none⟩, str)
  else
    let effective := effectiveSize f str.pos blockSize
    if effective = 0 then .ok (⟨.eEndOfStr, some 0, fun _ => none⟩, str)
    else do
      let (hr, x) ← readSubblock f alloc str.cache str.pos effective
      if hr.failed then .ok (⟨hr, none, x.dst⟩, { str with cache := x.sc })
      else .ok (⟨hr, some effective, x.dst⟩, ⟨u32 (str.pos + effective), x.sc⟩)

/-- `KSTREAM_ORIGIN_CURRENT`, `KSTREAM_ORIGIN_BEGINNING` and `KSTREAM_ORIGIN_END` -/
inductive SeekOrigin where
  | current
  | beginning
  | fromEnd
  deriving DecidableEq, Repr

/-- The `new_pos` of a seek. -/
def newPos (f : SectorFile) (pos : Nat) (offset : Int) : SeekOrigin → Int
  | .beginning => i32 offset
  | .current => i32 (pos + offset)
  | .fromEnd => i32 (f.size - offset)

/-- `fat16_file_seek` and `iso9660_file_seek`; no origin is one that the code does not know. -/
def fileSeek (f : SectorFile) (str : FileStream) (pos : Int) (origin : Option SeekOrigin) :
    HResult × FileStream :=
  match origin with
  | none => (.eInvalidArg, str)
  | some origin =>
    let target := newPos f str.pos pos origin
    if target < 0 ∨ target > i32 f.size then (.eInvalidArg, str)
    else (.sOk, { str with pos := target.toNat })

/-- `fat16_file_tell` and `iso9660_file_tell` -/
def fileTell (str : FileStream) : Nat := str.pos

end Antonix.Drivers
