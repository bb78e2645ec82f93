import Antonix.Lib.LittleEndian
import Antonix.Drivers.FileContent
import Antonix.Vfs.FileLimits
import Antonix.Streams.Seek

/-! # Probing for an executable (`elf.c`, `kstdio.c`)

`elf_probe` reads a header where the stream stands and goes back.  It takes what the
`seek` of the stream returns for the new position, as `kstream.h` has it; what the
routines return is a status, so that it goes back without an error from position 0
only.  What is on the stack where `hdr` is, is an argument. -/

namespace Antonix.Streams

open Buffer Vfs Drivers

/-! ## Streams -/

/-- The routines of a `K_STREAM` over what the stream points to. -/
structure StreamMethods (σ : Type) where
  read : σ → Nat → Except Halt (ReadAnswer × σ)
  seek : σ → Int → Int → Nat × σ
  tell : σ → Nat

/-- `k_fread` -/
def kFread {σ : Type} (m : StreamMethods σ) (str : σ) (blockSize : Nat) := m.read str blockSize

/-- `k_fseek` -/
def kFseek {σ : Type} (m : StreamMethods σ) (str : σ) (pos origin : Int) := m.seek str pos origin

/-- `k_ftell` -/
def kFtell {σ : Type} (m : StreamMethods σ) (str : σ) := m.tell str

/-- The routines that `vfs_open` assigns for a file. -/
def vfsMethods (node : VfsFile) : StreamMethods KStream where
  read str blockSize := do
    let ((hr, data, bytesRead), str) ← vfsFileRead node str blockSize
    .ok (⟨hr, some bytesRead, put (fun _ => none) 0 data⟩, str)
  seek str pos origin := (vfsFileSeek node str pos origin).map HResult.code id
  tell := vfsFileTell

/-- The routines that `fat16_open` and `iso9660_open` assign; `alloc` is what a `kmalloc` of
the read returns. -/
def sectorMethods (f : SectorFile) (alloc : Option Drivers.Block) : StreamMethods FileStream where
  read str blockSize := fileRead f alloc str blockSize true
  seek str pos origin := (fileSeek f str pos (seekOrigin origin)).map HResult.code id
  tell := fileTell

section

variable {node : VfsFile} {f : SectorFile} {alloc : Option Drivers.Block}

theorem vfsMethods_seek (str : KStream) (pos origin : Int) :
    (vfsMethods node).seek str pos origin =
      (vfsFileSeek node str pos origin).map HResult.code id := rfl

theorem vfsMethods_tell (str : KStream) : (vfsMethods node).tell str = str.pos := rfl

theorem sectorMethods_seek (str : FileStream) (pos origin : Int) :
    (sectorMethods f alloc).seek str pos origin =
      (fileSeek f str pos (seekOrigin origin)).map HResult.code id := rfl

theorem sectorMethods_tell (str : FileStream) : (sectorMethods f alloc).tell str = str.pos := rfl

end

/-! ## The header -/

/-- `K_ELF_HEADER_32`, the fields that `elf_probe` reads. -/
structure KElfHeader32 where
  magic : List (BitVec 8)
  elfClass : BitVec 8
  littleEndian : BitVec 8
  arch : Nat
  deriving DecidableEq

/-- `sizeof(K_ELF_HEADER_32)` -/
abbrev elfHeaderSize : Nat := 52

abbrev elfMagic : List (BitVec 8) := [0x7F, 0x45, 0x4C, 0x46]

/-- `ELF_CLASS_32BIT` -/
abbrev elfClass32bit : BitVec 8 := 0x01

/-- `ELF_ARCH_X86` -/
abbrev elfArchX86 : Nat := 0x03

/-- The header in a buffer. -/
def elfHeader (hdr : ByteMem) : KElfHeader32 where
  magic := readAt hdr 0 4
  elfClass := hdr 4
  littleEndian := hdr 5
  arch := hdr.load16 18

/-- The tests of `elf_probe` on a header that was read. -/
def elfCheck (hdr : KElfHeader32) : HResult :=
  if hdr.magic ≠ elfMagic then .eInvalidData
  else if hdr.elfClass ≠ elfClass32bit then .eFail
  else if hdr.littleEndian ≠ 1 then .eFail
  else if hdr.arch ≠ elfArchX86 then .eFail
  else .sOk

/-- `elf_probe` -/
def elfProbe {σ : Type} (m : StreamMethods σ) (stack : ByteMem) (s : σ) :
    Except Halt (HResult × σ) := do
  let pos := kFtell m s
  let (answer, s) ← kFread m s elfHeaderSize
  let hdr : ByteMem := fun i => (answer.outBuf i).getD (stack i)
  let hr :=
    if answer.hr.failed ∨ answer.bytesRead ≠ some elfHeaderSize then .eFail
    else elfCheck (elfHeader hdr)
  let (newPos, s) := kFseek m s pos kstreamOriginBeginning
  if newPos ≠ pos then .ok (.eFail, s) else .ok (hr, s)

/-! ## What a probe is for -/

/-- Bytes that start with the header of a 32-bit little-endian x86 executable. -/
def HasElfHeader (bytes : List (BitVec 8)) : Prop :=
  elfHeaderSize ≤ bytes.length ∧ bytes.take 4 = elfMagic ∧ LittleEndian.field 4 1 bytes = 1 ∧
    LittleEndian.field 5 1 bytes = 1 ∧ LittleEndian.field 18 2 bytes = 3

instance (bytes : List (BitVec 8)) : Decidable (HasElfHeader bytes) :=
  inferInstanceAs (Decidable (_ ∧ _ ∧ _ ∧ _ ∧ _))

section

variable {σ : Type}

/-- A stream that can be positioned anywhere in its `size` bytes. -/
def Seekable (m : StreamMethods σ) (str : σ) (size : Nat) : Prop :=
  ∀ p ≤ size, (m.seek str p kstreamOriginBeginning).1 = HResult.sOk.code

/-- The read of the header returns and writes no further than `hdr` goes. -/
def ReadStays (m : StreamMethods σ) (s : σ) : Prop :=
  ∃ answer s', m.read s elfHeaderSize = .ok (answer, s') ∧
    ∀ i, elfHeaderSize ≤ i → answer.outBuf i = none

/-- The read of the header succeeds with all its bytes. -/
def ReadSucceeds (m : StreamMethods σ) (s : σ) : Prop :=
  ∃ answer s', m.read s elfHeaderSize = .ok (answer, s') ∧ answer.hr.failed = false ∧
    answer.bytesRead = some elfHeaderSize

/-- The probe says whether the bytes `rest` from the position on start with a header, and
leaves the stream where it was. -/
def ProbeLaw (m : StreamMethods σ) (stack : ByteMem) (s : σ) (rest : List (BitVec 8)) : Prop :=
  ReadStays m s ∧ ∃ hr s', elfProbe m stack s = .ok (hr, s') ∧ (hr = .sOk ↔ HasElfHeader rest) ∧
    m.tell s' = m.tell s

/-- What a stream of these files keeps to: a seek to where it stood brings it back, with the
status `S_OK`, and a read that succeeds has the bytes of the file. -/
structure KeepsToFile (m : StreamMethods σ) (s : σ) (rest : List (BitVec 8)) : Prop where
  restores : ∀ answer s', m.read s elfHeaderSize = .ok (answer, s') →
    ∃ s'', m.seek s' (m.tell s) kstreamOriginBeginning = (HResult.sOk.code, s'') ∧
      m.tell s'' = m.tell s
  honest : ∀ answer s', m.read s elfHeaderSize = .ok (answer, s') → answer.hr.failed = false →
    answer.bytesRead = some elfHeaderSize → (∀ i, elfHeaderSize ≤ i → answer.outBuf i = none) →
    elfHeaderSize ≤ rest.length ∧ ∀ i < elfHeaderSize, answer.outBuf i = rest[i]?

variable {m : StreamMethods σ} {stack : ByteMem} {s : σ} {rest : List (BitVec 8)}

theorem readAt_of_getElem? {hdr : ByteMem} {offset count : Nat} (inside : offset + count ≤ 52)
    (long : 52 ≤ rest.length) (same : ∀ i < 52, some (hdr i) = rest[i]?) :
    readAt hdr offset count = (rest.drop offset).take count := by
  have length : ((rest.drop offset).take count).length = count := by
    rw [List.length_take, List.length_drop]
    omega
  apply List.ext_getElem (by rw [length_readAt, length])
  intro i left right
  rw [length_readAt] at left
  rw [getElem_readAt, List.getElem_take, List.getElem_drop]
  have here := same (offset + i) (by omega)
  rw [List.getElem?_eq_getElem (by omega)] at here
  exact Option.some.inj here

theorem elfCheck_eq_sOk {hdr : KElfHeader32} :
    elfCheck hdr = .sOk ↔ hdr.magic = elfMagic ∧ hdr.elfClass = elfClass32bit ∧
      hdr.littleEndian = 1 ∧ hdr.arch = elfArchX86 := by
  rw [elfCheck]
  grind

theorem numberOf_one (byte : BitVec 8) : LittleEndian.numberOf [byte] = 1 ↔ byte = 1 := by
  simp [LittleEndian.numberOf, BitVec.toNat_eq]

/-- The tests pass exactly when the bytes in the buffer are a header. -/
theorem elfCheck_iff_hasElfHeader {hdr : ByteMem} (long : 52 ≤ rest.length)
    (same : ∀ i < 52, some (hdr i) = rest[i]?) :
    elfCheck (elfHeader hdr) = .sOk ↔ HasElfHeader rest := by
  have magic : readAt hdr 0 4 = rest.take 4 := readAt_of_getElem? (by decide) long same
  have elfClass : LittleEndian.field 4 1 rest = 1 ↔ hdr 4 = 1 := by
    rw [LittleEndian.field, ← readAt_of_getElem? (by decide) long same]
    exact numberOf_one _
  have endian : LittleEndian.field 5 1 rest = 1 ↔ hdr 5 = 1 := by
    rw [LittleEndian.field, ← readAt_of_getElem? (by decide) long same]
    exact numberOf_one _
  have arch : LittleEndian.field 18 2 rest = hdr.load16 18 := by
    rw [LittleEndian.field, ← readAt_of_getElem? (by decide) long same]
    simp [readAt, List.range_succ, LittleEndian.numberOf, ByteMem.load16]
  rw [elfCheck_eq_sOk, HasElfHeader, elfClass, endian, arch, ← magic]
  exact (and_iff_right long).symm

/-! ## The probe -/

/-- The probe compares the position it had with what the seek back returns. -/
theorem elfProbe_of_read {answer : ReadAnswer} {s' s'' : σ} {code : Nat}
    (read : m.read s elfHeaderSize = .ok (answer, s'))
    (sought : m.seek s' (m.tell s) kstreamOriginBeginning = (code, s'')) :
    elfProbe m stack s =
      .ok (if code ≠ m.tell s then .eFail
        else if answer.hr.failed ∨ answer.bytesRead ≠ some elfHeaderSize then .eFail
        else elfCheck (elfHeader fun i => (answer.outBuf i).getD (stack i)), s'') := by
  simp only [elfProbe, kFtell, kFread, kFseek, read, bind, Except.bind, sought]
  by_cases differ : code ≠ m.tell s
  · rw [if_pos differ, if_pos differ]
  · rw [if_neg differ, if_neg differ]

/-- Where the stream goes back to the position it had, its position is taken for a status. -/
theorem elfProbe_eq (keeps : KeepsToFile m s rest) {answer : ReadAnswer} {s' : σ}
    (read : m.read s elfHeaderSize = .ok (answer, s')) :
    ∃ s'', m.tell s'' = m.tell s ∧ elfProbe m stack s =
      .ok (if m.tell s ≠ 0 then .eFail
        else if answer.hr.failed ∨ answer.bytesRead ≠ some elfHeaderSize then .eFail
        else elfCheck (elfHeader fun i => (answer.outBuf i).getD (stack i)), s'') := by
  obtain ⟨s'', sought, back⟩ := keeps.restores answer s' read
  have status : HResult.sOk.code ≠ m.tell s ↔ m.tell s ≠ 0 := ne_comm
  exact ⟨s'', back, by simp only [elfProbe_of_read read sought, status]⟩

/-- A probe is right if and only if the read stays in the buffer and, where there is a header,
the stream stands at its start and the read succeeds. -/
theorem probeLaw_iff (keeps : KeepsToFile m s rest) (stack : ByteMem) :
    ProbeLaw m stack s rest ↔
      ReadStays m s ∧ (HasElfHeader rest → m.tell s = 0 ∧ ReadSucceeds m s) := by
  rw [ProbeLaw]
  apply and_congr_right
  intro stays
  obtain ⟨answer, s', read, inside⟩ := stays
  obtain ⟨s'', back, probed⟩ := @elfProbe_eq σ m stack s rest keeps answer s' read
  have succeeds : ReadSucceeds m s ↔
      answer.hr.failed = false ∧ answer.bytesRead = some elfHeaderSize := by
    constructor
    · intro succeeds
      obtain ⟨answer', t, read', good⟩ := succeeds
      obtain ⟨rfl, -⟩ := eq_of_returned (read.symm.trans read')
      exact good
    · intro good
      exact ⟨answer, s', read, good⟩
  -- the status that the probe would return from position 0
  have checked : ∀ good : answer.hr.failed = false ∧ answer.bytesRead = some elfHeaderSize,
      elfCheck (elfHeader fun i => (answer.outBuf i).getD (stack i)) = .sOk ↔
        HasElfHeader rest := by
    intro good
    obtain ⟨long, bytes⟩ := keeps.honest answer s' read good.1 good.2 inside
    apply elfCheck_iff_hasElfHeader long
    intro i below
    have here := bytes i below
    rw [List.getElem?_eq_getElem (Nat.lt_of_lt_of_le below long)] at here ⊢
    rw [here]
    rfl
  have refused : ¬ (answer.hr.failed = false ∧ answer.bytesRead = some elfHeaderSize) →
      (answer.hr.failed = true ∨ answer.bytesRead ≠ some elfHeaderSize) := by
    intro bad
    by_contra good
    obtain ⟨notFailed, count⟩ := not_or.mp good
    exact bad ⟨by simpa using notFailed, not_not.mp count⟩
  rw [succeeds]
  constructor
  · intro law header
    obtain ⟨hr, t, probed', verdict, -⟩ := law
    rw [probed] at probed'
    obtain ⟨status, -⟩ := eq_of_returned probed'
    rw [verdict.mpr header] at status
    by_cases start : m.tell s = 0
    · refine ⟨start, ?_⟩
      by_contra bad
      rw [if_neg (not_not_intro start), if_pos (refused bad)] at status
      contradiction
    · rw [if_pos start] at status
      contradiction
  · intro meets
    refine ⟨_, s'', probed, ?_, back⟩
    by_cases start : m.tell s = 0
    · rw [if_neg (not_not_intro start)]
      by_cases good : answer.hr.failed = false ∧ answer.bytesRead = some elfHeaderSize
      · rw [if_neg (by simp [good])]
        exact checked good
      · rw [if_pos (refused good)]
        refine iff_of_false (by decide) fun header => good (meets header).2
    · rw [if_pos start]
      exact iff_of_false (by decide) fun header => start (meets header).1

end

/-! ## Files of the VFS -/

section

variable {node : VfsFile} {data : List (BitVec 8)} {str : KStream}

theorem seekTarget_beginning (size pos : Nat) (offset : Int) :
    seekTarget size pos offset kstreamOriginBeginning = some (i32 offset) := if_pos rfl

theorem vfsFileSeek_back (small : node.size < 2 ^ 31) {p : Nat} (inside : p ≤ node.size) :
    vfsFileSeek node str p kstreamOriginBeginning = (.sOk, { str with pos := p }) := by
  have target : i32 p = p := i32_of_small (by omega)
  have size : i32 node.size = node.size := i32_of_small small
  rw [vfsFileSeek, seekTarget_beginning, target, size]
  dsimp only
  rw [if_neg (by omega), Int.toNat_natCast]

/-- Positions of a file can be sought when its size is positive as an `int32_t`. -/
theorem vfs_seekable_iff (fits : node.size < 2 ^ 32) :
    Seekable (vfsMethods node) str node.size ↔ node.size < 2 ^ 31 := by
  constructor
  · intro seekable
    by_contra large
    have negative : i32 node.size < 0 := by
      simp only [i32, Int.bmod_def]
      omega
    have refused : vfsFileSeek node str node.size kstreamOriginBeginning = (.eInvalidArg, str) := by
      rw [vfsFileSeek, seekTarget_beginning]
      exact if_pos (.inl negative)
    have last : ((vfsFileSeek node str node.size kstreamOriginBeginning).map HResult.code id).1 =
        HResult.sOk.code := seekable node.size (Nat.le_refl _)
    rw [refused] at last
    cases last
  · intro small p inside
    change ((vfsFileSeek node str p kstreamOriginBeginning).map HResult.code id).1 = _
    rw [vfsFileSeek_back small inside]
    rfl

/-- What the read of the header answers, when the stream is open for reading. -/
theorem vfs_read_header (holds : node.Holds data) (small : data.length < 2 ^ 31)
    (within : str.pos ≤ data.length) (readable : str.mode &&& fileOpenRead ≠ 0) :
    ∃ str', (vfsMethods node).read str elfHeaderSize = .ok
      (⟨if min 52 (data.length - str.pos) = 0 then .eEndOfStr else .sOk,
        some (min 52 (data.length - str.pos)),
        put (fun _ => none) 0 ((data.drop str.pos).take 52)⟩, str') := by
  refine ⟨{ str with pos := str.pos + min 52 (data.length - str.pos) }, ?_⟩
  change (vfsFileRead node str 52 >>= _) = _
  rw [vfsFileRead_clamped holds within readable (by omega)]
  rfl

theorem vfs_read_refused (unreadable : str.mode &&& fileOpenRead = 0) :
    (vfsMethods node).read str elfHeaderSize =
      .ok (⟨.eFail, some 0, put (fun _ => none) 0 []⟩, str) := by
  change (vfsFileRead node str 52 >>= _) = _
  rw [vfsFileRead_unreadable unreadable]
  rfl

theorem put_beyond {bytes : List (BitVec 8)} {i : Nat} (beyond : bytes.length ≤ i) :
    put (fun _ => none) 0 bytes i = none :=
  writeAt_outside (.inr (by rwa [List.length_map, Nat.zero_add]))

theorem put_inside {bytes : List (BitVec 8)} {i : Nat} (inside : i < bytes.length) :
    put (fun _ => none) 0 bytes i = some bytes[i] := by
  have written := @writeAt_inside _ (fun _ => none) 0 i (bytes.map some)
    (by rwa [List.length_map])
  rwa [Nat.zero_add, List.getElem_map] at written

theorem vfs_readStays (holds : node.Holds data) (small : data.length < 2 ^ 31)
    (within : str.pos ≤ data.length) : ReadStays (vfsMethods node) str := by
  by_cases unreadable : str.mode &&& fileOpenRead = 0
  · exact ⟨_, _, vfs_read_refused unreadable, fun i _ => @put_beyond [] i (Nat.zero_le i)⟩
  · obtain ⟨str', read⟩ := vfs_read_header holds small within unreadable
    refine ⟨_, _, read, fun i beyond => put_beyond ?_⟩
    rw [List.length_take]
    exact Nat.le_trans (Nat.min_le_left _ _) beyond

theorem vfs_readSucceeds_iff (holds : node.Holds data) (small : data.length < 2 ^ 31)
    (within : str.pos ≤ data.length) :
    ReadSucceeds (vfsMethods node) str ↔
      str.mode &&& fileOpenRead ≠ 0 ∧ elfHeaderSize ≤ data.length - str.pos := by
  by_cases unreadable : str.mode &&& fileOpenRead = 0
  · refine iff_of_false (fun succeeds => ?_) (fun both => both.1 unreadable)
    obtain ⟨answer, str', read, succeeded, -⟩ := succeeds
    rw [vfs_read_refused unreadable] at read
    obtain ⟨rfl, -⟩ := eq_of_returned read
    contradiction
  · obtain ⟨str', read⟩ := vfs_read_header holds small within unreadable
    constructor
    · intro succeeds
      obtain ⟨answer, t, read', -, count⟩ := succeeds
      obtain ⟨rfl, -⟩ := eq_of_returned (read.symm.trans read')
      have all : min 52 (data.length - str.pos) = 52 := Option.some.inj count
      exact ⟨unreadable, by dsimp only [elfHeaderSize]; omega⟩
    · intro enough
      have all : min 52 (data.length - str.pos) = 52 := Nat.min_eq_left enough.2
      rw [all] at read
      exact ⟨_, str', read, rfl, rfl⟩

theorem vfs_keepsToFile (holds : node.Holds data) (small : data.length < 2 ^ 31)
    (within : str.pos ≤ data.length) :
    KeepsToFile (vfsMethods node) str (data.drop str.pos) where
  restores answer str' _ := by
    have nodeSmall : node.size < 2 ^ 31 := by rwa [holds.size]
    have inside : str.pos ≤ node.size := by rwa [holds.size]
    refine ⟨{ str' with pos := str.pos }, ?_, rfl⟩
    rw [vfsMethods_tell, vfsMethods_seek, vfsFileSeek_back nodeSmall inside, Prod.map_apply, id]
  honest answer str' read succeeded count _ := by
    have succeeds : ReadSucceeds (vfsMethods node) str := ⟨answer, str', read, succeeded, count⟩
    obtain ⟨readable, long⟩ := (vfs_readSucceeds_iff holds small within).mp succeeds
    obtain ⟨t, read'⟩ := vfs_read_header holds small within readable
    obtain ⟨rfl, -⟩ := eq_of_returned (read'.symm.trans read)
    refine ⟨by rwa [List.length_drop], fun i below => ?_⟩
    have taken : i < ((data.drop str.pos).take 52).length := by
      dsimp only [elfHeaderSize] at below long
      rw [List.length_take, List.length_drop]
      omega
    have inside : i < (data.drop str.pos).length :=
      Nat.lt_of_lt_of_le taken (List.length_take_le' _ _)
    change put (fun _ => none) 0 ((data.drop str.pos).take 52) i = _
    rw [put_inside taken, List.getElem_take, List.getElem?_eq_getElem inside]

end

/-! ## Files of the drivers -/

section

variable {f : SectorFile} {content : Drivers.Block} {complete : Nat → Nat → Prop}
  {alloc : Option Drivers.Block} {str : FileStream}

theorem fileSeek_back (small : f.size < 2 ^ 31) {p : Nat} (inside : p ≤ f.size) :
    fileSeek f str p (seekOrigin kstreamOriginBeginning) = (.sOk, { str with pos := p }) := by
  have origin : seekOrigin kstreamOriginBeginning = some .beginning := if_pos rfl
  have target : i32 p = p := i32_of_small (by omega)
  have size : i32 f.size = f.size := i32_of_small small
  rw [origin, fileSeek, newPos, target, size, if_neg (by omega), Int.toNat_natCast]

theorem sector_small_of_seekable (fits : f.size < 2 ^ 32)
    (seekable : Seekable (sectorMethods f alloc) str f.size) : f.size < 2 ^ 31 := by
  by_contra large
  have negative : i32 f.size < 0 := by
    simp only [i32, Int.bmod_def]
    omega
  have refused : fileSeek f str f.size (seekOrigin kstreamOriginBeginning) =
      (.eInvalidArg, str) := by
    have origin : seekOrigin kstreamOriginBeginning = some .beginning := if_pos rfl
    rw [origin, fileSeek, newPos]
    exact if_pos (.inl negative)
  have last : ((fileSeek f str f.size (seekOrigin kstreamOriginBeginning)).map HResult.code id).1 =
      HResult.sOk.code := seekable f.size (Nat.le_refl _)
  rw [refused] at last
  cases last

/-- A read of the header that succeeds without writing too far is one that the driver does
right. -/
theorem sector_read_header (reads : ReadsContent f content complete)
    (inv : StreamInv f content str) {answer : ReadAnswer} {str' : FileStream}
    (read : fileRead f alloc str elfHeaderSize true = .ok (answer, str'))
    (succeeded : answer.hr.failed = false) (count : answer.bytesRead = some elfHeaderSize)
    (inside : ∀ i, elfHeaderSize ≤ i → answer.outBuf i = none) :
    elfHeaderSize ≤ f.size - str.pos ∧ ReadMeets f complete str alloc elfHeaderSize := by
  have sizeSmall := reads.sizeSmall
  have within := inv.within
  have noWrap : elfHeaderSize + str.pos < 2 ^ 32 ∨ f.size + 2 ^ 32 ≤ elfHeaderSize + str.pos := by
    change 52 + str.pos < 2 ^ 32 ∨ _
    omega
  have effective := effectiveSize_right sizeSmall within (by decide) noWrap
  by_cases nothing : min elfHeaderSize (f.size - str.pos) = 0
  · -- the end of the file
    rw [nothing] at effective
    simp only [fileRead, effective] at read
    obtain ⟨rfl, -⟩ := eq_of_returned read
    contradiction
  · rw [fileRead_eq alloc (by decide) effective nothing] at read
    obtain ⟨⟨hr, x⟩, returns, read⟩ := exists_of_bind read
    dsimp only at read
    split at read
    · obtain ⟨rfl, -⟩ := eq_of_returned read
      contradiction
    · rename_i notFailed
      obtain ⟨rfl, -⟩ := eq_of_returned read
      have all : min elfHeaderSize (f.size - str.pos) = elfHeaderSize := Option.some.inj count
      refine ⟨by omega, noWrap, .inr ?_⟩
      by_contra fails
      have wrong := readSubblock_wrong reads inv.cache
        (show str.pos + min elfHeaderSize (f.size - str.pos) ≤ f.size by omega) nothing fails
        returns
      rw [all] at wrong
      have nothingBeyond : x.dst elfHeaderSize = none := inside elfHeaderSize (Nat.le_refl _)
      have beyond := wrong.resolve_left notFailed
      rw [nothingBeyond] at beyond
      contradiction

theorem sector_read_right (reads : ReadsContent f content complete)
    (inv : StreamInv f content str) (long : elfHeaderSize ≤ f.size - str.pos)
    (meets : ReadMeets f complete str alloc elfHeaderSize) :
    ∃ answer str', fileRead f alloc str elfHeaderSize true = .ok (answer, str') ∧
      answer.hr = .sOk ∧ answer.bytesRead = some elfHeaderSize ∧
      Filled content str.pos elfHeaderSize answer.outBuf := by
  have some : elfHeaderSize ≠ 0 := by decide
  have all : min elfHeaderSize (f.size - str.pos) = elfHeaderSize := Nat.min_eq_left long
  have notEnd : str.pos ≠ f.size := by
    change 52 ≤ _ at long
    omega
  obtain ⟨-, -, -, -, law⟩ := fileRead_right reads inv some (by decide) meets
  obtain ⟨answer, str', read, status, count, -, filled⟩ := law
  rw [if_neg notEnd] at status
  rw [all] at count filled
  exact ⟨answer, str', read, status, count, filled⟩

theorem sector_keepsToFile (reads : ReadsContent f content complete)
    (inv : StreamInv f content str) :
    KeepsToFile (sectorMethods f alloc) str (readAt content str.pos (f.size - str.pos)) where
  restores answer str' _ := by
    refine ⟨{ str' with pos := str.pos }, ?_, rfl⟩
    rw [sectorMethods_tell, sectorMethods_seek, fileSeek_back reads.sizeSmall inv.within,
      Prod.map_apply, id]
  honest answer str' read succeeded count inside := by
    obtain ⟨long, meets⟩ := sector_read_header reads inv read succeeded count inside
    obtain ⟨answer', t, read', -, -, filled⟩ := sector_read_right reads inv long meets
    obtain ⟨rfl, -⟩ := eq_of_returned (read'.symm.trans read)
    refine ⟨by rwa [length_readAt], fun i below => ?_⟩
    have short : i < (readAt content str.pos (f.size - str.pos)).length := by
      rw [length_readAt]
      omega
    rw [filled, if_pos below, List.getElem?_eq_getElem short, getElem_readAt]

theorem sector_readSucceeds_iff (reads : ReadsContent f content complete)
    (inv : StreamInv f content str) (stays : ReadStays (sectorMethods f alloc) str)
    (long : elfHeaderSize ≤ f.size - str.pos) :
    ReadSucceeds (sectorMethods f alloc) str ↔ ReadMeets f complete str alloc elfHeaderSize := by
  constructor
  · intro succeeds
    obtain ⟨answer, str', read, succeeded, count⟩ := succeeds
    obtain ⟨answer', t, read', inside⟩ := stays
    obtain ⟨rfl, -⟩ := eq_of_returned (read'.symm.trans read)
    exact (sector_read_header reads inv read succeeded count inside).2
  · intro meets
    obtain ⟨answer, str', read, status, count, -⟩ := sector_read_right reads inv long meets
    exact ⟨answer, str', read, by rw [status]; rfl, count⟩

end

/-- For every file of the VFS and every well-formed file of a FAT or ISO 9660 volume, and every
stream on it that can be sought: a probe says whether an executable starts where the stream
stands and leaves it there, if and only if there is none (and the driver's read of the header
stays in the header), or the stream stands at position 0 and its header can be read. -/
theorem elf_probe_iff {node : VfsFile} {data : List (BitVec 8)} {str : KStream}
    {image : Drivers.Block} {file : OpenFile} {fileStr : FileStream} {alloc : Option Drivers.Block}
    (stack : ByteMem) (holds : node.Holds data)
    (seekable : Seekable (vfsMethods node) str data.length) (within : str.pos ≤ data.length)
    (formed : file.WellFormed image) (fits : file.file.size < 2 ^ 32)
    (fileSeekable : Seekable (sectorMethods file.file alloc) fileStr file.file.size)
    (inv : StreamInv file.file (file.content image) fileStr) :
    (ProbeLaw (vfsMethods node) stack str (data.drop str.pos) ↔
      (HasElfHeader (data.drop str.pos) → str.pos = 0 ∧ str.mode &&& fileOpenRead ≠ 0)) ∧
    let rest := readAt (file.content image) fileStr.pos (file.file.size - fileStr.pos)
    (ProbeLaw (sectorMethods file.file alloc) stack fileStr rest ↔
      ReadStays (sectorMethods file.file alloc) fileStr ∧
        (HasElfHeader rest →
          fileStr.pos = 0 ∧ ReadMeets file.file file.Complete fileStr alloc elfHeaderSize)) := by
  constructor
  · have small : data.length < 2 ^ 31 := by
      rw [← holds.size] at seekable ⊢
      exact (vfs_seekable_iff (by rw [holds.size]; exact holds.small)).mp seekable
    rw [probeLaw_iff (vfs_keepsToFile holds small within),
      and_iff_right (vfs_readStays holds small within), vfs_readSucceeds_iff holds small within]
    apply forall_congr'
    intro header
    have long := header.1
    rw [List.length_drop] at long
    rw [and_iff_left long]
    rfl
  · intro rest
    have reads := file.reads formed (sector_small_of_seekable fits fileSeekable)
    rw [probeLaw_iff (sector_keepsToFile reads inv)]
    apply and_congr_right
    intro stays
    apply forall_congr'
    intro header
    have long := header.1
    rw [length_readAt] at long
    rw [sector_readSucceeds_iff reads inv stays long]
    rfl

/-- A file of the VFS with a header behind its first byte. -/
def elfBehindByte : List (BitVec 8) :=
  0 :: elfMagic ++ [0x01, 0x01] ++ List.replicate 12 0 ++ [0x03, 0x00] ++ List.replicate 32 0

def elfBehindByteFile : VfsFile := ⟨53, some fun i => elfBehindByte.getD i 0, 53⟩

theorem elfBehindByteFile_holds : elfBehindByteFile.Holds elfBehindByte :=
  ⟨by decide, rfl, fun _ => ⟨_, rfl, by decide⟩⟩

/-- Its first byte, and the first of ten zero bytes of an ISO 9660 volume. -/
theorem elf_probe_iff_zero :
    (ProbeLaw (vfsMethods elfBehindByteFile) (fun _ => 0) ⟨1, 0⟩ (elfBehindByte.drop 0) ↔
      (HasElfHeader (elfBehindByte.drop 0) → 0 = 0 ∧ 1 &&& fileOpenRead ≠ 0)) := by
  have seekable : Seekable (vfsMethods elfBehindByteFile) ⟨1, 0⟩ elfBehindByte.length :=
    (vfs_seekable_iff (by decide)).mpr (by decide)
  have fileSeekable : Seekable (sectorMethods tenBytes.file none) .opened tenBytes.file.size := by
    intro p inside
    rw [sectorMethods_seek, fileSeek_back (by decide) inside, Prod.map_apply]
  exact (elf_probe_iff (fun _ => 0) elfBehindByteFile_holds seekable (by decide)
    tenBytes_wellFormed (by decide) fileSeekable opened_inv).1

/-- From its second byte on the file is an executable, and `elf_probe` says `E_FAIL`. -/
theorem elf_probe_denies_header :
    HasElfHeader (elfBehindByte.drop 1) ∧
      (elfProbe (vfsMethods elfBehindByteFile) (fun _ => 0) ⟨1, 1⟩).toOption.map Prod.fst =
        some .eFail ∧
      ¬ ProbeLaw (vfsMethods elfBehindByteFile) (fun _ => 0) ⟨1, 1⟩ (elfBehindByte.drop 1) := by
  have header : HasElfHeader (elfBehindByte.drop 1) := by decide
  have probed : (elfProbe (vfsMethods elfBehindByteFile) (fun _ => 0) ⟨1, 1⟩).toOption.map
      Prod.fst = some .eFail := by decide +kernel
  refine ⟨header, probed, fun law => ?_⟩
  obtain ⟨-, hr, s', probed', verdict, -⟩ := law
  rw [probed', Except.toOption, Option.map_some, verdict.mpr header] at probed
  cases probed

end Antonix.Streams
