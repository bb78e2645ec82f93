import Antonix.Scheduler.Process
import Antonix.Streams.ElfProbe

/-! # Loading an executable (`elf.c`)

`elf_load_from_memory` creates a process, maps the kernel into it, and gives every
segment of type `PT_LOAD` memory of its own, which it writes through a window of
the current process.  The memory is an array of bytes; the buffer with the file is
apart from it, and so are the page tables and the descriptors.  A read outside the
buffer, and a write outside the window or to a page that is not present, is left
undefined.  The entry point only goes to the first frame of the main thread. -/

namespace Antonix.Elf

open Function Streams Threads

/-- The kernel, and the bytes of the physical memory. -/
structure Machine where
  kernel : KernelState
  memory : ByteMem

/-- `ELF_TYPE_EXECUTABLE` -/
abbrev elfTypeExecutable : Nat := 0x02

/-- `ELF_PT_NULL` -/
abbrev elfPtNull : Nat := 0x00

/-- `ELF_PT_LOAD` -/
abbrev elfPtLoad : Nat := 0x01

/-- `ELF_PT_PHDR` -/
abbrev elfPtPhdr : Nat := 0x06

/-- `ELF_PF_W` -/
abbrev elfPfW : Nat := 0x02

/-- `sizeof(K_ELF_PROGR_HDR_32)` -/
abbrev progrHdrSize : Nat := 32

/-- `K_ELF_PROGR_HDR_32`, the fields that the loader reads. -/
structure KElfProgrHdr32 where
  segType : Nat
  pOffset : Nat
  pVaddr : Nat
  sizeInFile : Nat
  sizeMem : Nat
  flags : Nat
  deriving DecidableEq, Repr

/-- The program header that starts at offset `ph` of the buffer. -/
def progrHdr (buff : List (BitVec 8)) (ph : Nat) : KElfProgrHdr32 where
  segType := LittleEndian.field ph 4 buff
  pOffset := LittleEndian.field (ph + 4) 4 buff
  pVaddr := LittleEndian.field (ph + 8) 4 buff
  sizeInFile := LittleEndian.field (ph + 16) 4 buff
  sizeMem := LittleEndian.field (ph + 20) 4 buff
  flags := LittleEndian.field (ph + 24) 4 buff

/-- Read `count` bytes at an offset of the buffer. -/
def readField (buff : List (BitVec 8)) (offset count : Nat) : Except Halt Nat :=
  if offset + count ≤ buff.length then .ok (LittleEndian.field offset count buff)
  else .error .stuck

/-! ## Segments -/

namespace KElfProgrHdr32

/-- `usage` of a segment -/
def usage (ph : KElfProgrHdr32) : Nat := if ph.flags &&& elfPfW = 0 then usageCode else usageData

/-- `access` of a segment -/
def access (ph : KElfProgrHdr32) : Nat :=
  if ph.flags &&& elfPfW ≠ 0 then accessReadWrite else accessRead

/-- `align_excess` -/
def alignExcess (ph : KElfProgrHdr32) : Nat := ph.pVaddr % pageSize

/-- `new_vaddr` -/
def newVaddr (ph : KElfProgrHdr32) : Nat := ph.pVaddr - ph.alignExcess

/-- `size`, made a multiple of the page size.  A multiple grows by a whole page. -/
def size (ph : KElfProgrHdr32) : Nat :=
  let size := u32 (ph.sizeMem + (ph.pVaddr - ph.newVaddr))
  u32 (size + (pageSize - size % pageSize))

/-- The bytes of the file that `memcpy` is given. -/
def fileBytes (ph : KElfProgrHdr32) (buff : List (BitVec 8)) : List (BitVec 8) :=
  (buff.drop ph.pOffset).take ph.sizeInFile

end KElfProgrHdr32

/-- Write bytes through the page tables. -/
def storeBytes (paging : Paging) : List (BitVec 8) → Nat → ByteMem → Except Halt ByteMem
  | [], _, memory => .ok memory
  | byte :: bytes, addr, memory =>
    match paging.translate addr with
    | none => .error .stuck
    | some phys => storeBytes paging bytes (u32 (addr + 1)) (update memory phys byte)

/-- The `memcpy` and the `memset` of a segment, in the window at `tempVaddr`. -/
def copySegment (paging : Paging) (buff : List (BitVec 8)) (ph : KElfProgrHdr32)
    (tempVaddr : Nat) (memory : ByteMem) : Except Halt ByteMem := do
  if (ph.fileBytes buff).length < ph.sizeInFile then .error .stuck
  else if ph.size < ph.alignExcess + ph.sizeInFile then .error .stuck
  else do
    let memory ← storeBytes paging (ph.fileBytes buff) (u32 (tempVaddr + ph.alignExcess)) memory
    if ph.sizeInFile = ph.sizeMem then .ok memory
    else
      let rest := sub32 ph.sizeMem ph.sizeInFile
      let start := u32 (tempVaddr + ph.alignExcess + ph.sizeInFile)
      if ph.size < ph.alignExcess + ph.sizeInFile + rest then .error .stuck
      else storeBytes paging (List.replicate rest 0) start memory

/-- The case `ELF_PT_LOAD` of `elf_load_from_memory` -/
def loadSegment (buff : List (BitVec 8)) (proc : Nat) (ph : KElfProgrHdr32) (m : Machine) :
    Except Halt Machine := do
  let (hr, vmm) ← vmmAllocAndMap m.kernel.vmm (some proc) ph.newVaddr ph.size
    (ph.usage ||| usageUser) ph.access
  if hr.failed then .error (.panic "Failed to allocate and map ELF segment.")
  else
    match vmmGetRegionPhysAddr vmm (some proc) ph.newVaddr with
    | .error _ => .error (.panic "Failed to find region physical address.")
    | .ok physAddr =>
      match schedGetCurrentProc m.kernel with
      | .error _ => .error (.panic "Failed to retrieve current process pcb.")
      | .ok curProc => do
        match ← vmmTempMapRegion vmm (some curProc) physAddr ph.size with
        | (_, none, _) => .error (.panic "Failed to tempmap.")
        | (_, some tempVaddr, vmm) =>
          if ph.sizeMem = 0 then .error .assertion
          else do
            let memory ← copySegment (vmm.paging curProc) buff ph tempVaddr m.memory
            let (hr, vmm) ← vmmUnmapRegion vmm (some curProc) tempVaddr
            if hr.failed then .error (.panic "Failed to unmap temp region.")
            else .ok ⟨{ m.kernel with vmm }, memory⟩

/-- One pass of the loop over the program headers. -/
def loadHeader (buff : List (BitVec 8)) (proc ph : Nat) (m : Machine) : Except Halt Machine := do
  let segType ← readField buff ph 4
  if segType = elfPtNull then .ok m
  else if segType = elfPtLoad then
    -- `flags` is the last field that is read
    if buff.length < ph + 28 then .error .stuck else loadSegment buff proc (progrHdr buff ph) m
  else if segType = elfPtPhdr then .ok m
  else .error (.panic "Unhandled program header type.")

/-- The loop over the program headers; `ph` is a 32-bit pointer. -/
def loadHeaders (buff : List (BitVec 8)) (proc : Nat) : Nat → Nat → Machine → Except Halt Machine
  | 0, _, m => .ok m
  | count + 1, ph, m => do
    let m ← loadHeader buff proc ph m
    loadHeaders buff proc count (u32 (ph + progrHdrSize)) m

/-! ## The loader -/

/-- The size of the kernel, 4 MB. -/
abbrev kernelSize : Nat := 4 * 1024 * 1024

/-- `elf_load_from_memory` up to the program headers: the pid and the process that is found. -/
def elfLoadBegin (k : KernelState) (proc t : Nat) :
    Except Halt (Except HResult (Nat × Nat) × KernelState) := do
  let (hr, pid, k) ← schedCreateProcess k proc t
  match pid with
  | none => .ok (.error hr, k)
  | some pid =>
    match Sched.schedFindProc k.sched pid with
    | .error _ => .error (.panic "elf_load_from_memory(): Failed to find process.")
    | .ok proc => do
      let (hr, vmm) ← vmmMapRegion k.vmm (some proc) 0x00000000 0xC0000000 kernelSize usageKernel
        accessReadWrite
      if hr.failed then
        .error (.panic "Failed to map region [0x0..0x00100000] to [0xC0000000..0xC0100000].")
      else .ok (.ok (pid, proc), { k with vmm })

/-- `elf_load_from_memory` with the descriptors of the process and of its main thread allocated at
`proc` and `t`: the status, and the pid where it is set. -/
def elfLoadFromMemory (m : Machine) (buff : List (BitVec 8)) (proc t : Nat) :
    Except Halt (HResult × Option Nat × Machine) := do
  let type ← readField buff 16 2
  if type ≠ elfTypeExecutable then .ok (.eFail, none, m)
  else do
    let _entry ← readField buff 24 4
    match ← elfLoadBegin m.kernel proc t with
    | (.error hr, kernel) => .ok (hr, none, { m with kernel })
    | (.ok (pid, proc), kernel) => do
      let progHdrTable ← readField buff 28 4
      let phtNumEntries ← readField buff 44 2
      let m ← loadHeaders buff proc phtNumEntries progHdrTable { m with kernel }
      let sched ← Sched.elfLoadFinish m.kernel.sched proc
      .ok (.sOk, some pid, { m with kernel := { m.kernel with sched } })

/-- `elf_execute`; `kmalloc` is the block that an allocation gets, and reading into none writes to
address 0. -/
def elfExecute {σ : Type} (methods : StreamMethods σ) (stack : ByteMem)
    (kmalloc : Nat → Option ByteMem) (m : Machine) (s : σ) (proc t : Nat) :
    Except Halt (HResult × Option Nat × Machine) := do
  let (hr, s) ← elfProbe methods stack s
  if hr.failed then .ok (hr, none, m)
  else do
    let pos := kFtell methods s
    let (_, s) := kFseek methods s 0 Vfs.kstreamOriginEnd
    let endpos := kFtell methods s
    let (_, s) := kFseek methods s pos Vfs.kstreamOriginBeginning
    let size := sub32 endpos pos
    match kmalloc size with
    | none => .error .stuck
    | some block => do
      let (answer, _) ← kFread methods s size
      let buff := (List.range size).map fun i => (answer.outBuf i).getD (block i)
      if answer.hr.failed ∨ answer.bytesRead ≠ some size then .ok (.eFail, none, m)
      else elfLoadFromMemory m buff proc t

/-! ## A first machine -/

/-- The kernel at `0xC0000000`. -/
def kernelRegion : KVmmRegion := ⟨0, 0xC0000000, kernelSize, usageKernel, accessReadWrite⟩

/-- The kernel process runs, with the kernel mapped in slot 768 of its directory. -/
def Machine.booted : Machine where
  kernel :=
    { sched :=
        { Sched.schedCreateInitialProc 1 with
          current := some 16, schedEnabled := true, threads := fun _ => ⟨1, none⟩ }
      vmm :=
        { kpmm := kpmmInit
          kernelRegions := [kernelRegion]
          procs := fun proc =>
            if proc = 1 then
              ⟨100, [kernelRegion], fun id => if id = 768 then ⟨true, true, true, 0x200⟩ else .zero⟩
            else ⟨0, [], fun _ => .zero⟩
          processArray := [1]
          tables := fun _ page => ⟨true, true, true, page⟩
          pool := List.range' 0x201 24 }
      mode := fun _ => .kernel
      threadStacks := fun _ => ⟨0, 0, 0⟩
      kernelProc := 1 }
  memory := fun _ => 0

/-- The bytes of a program header. -/
def KElfProgrHdr32.bytes (ph : KElfProgrHdr32) : List (BitVec 8) :=
  LittleEndian.bytesOf 4 ph.segType ++ LittleEndian.bytesOf 4 ph.pOffset ++
    LittleEndian.bytesOf 4 ph.pVaddr ++ LittleEndian.bytesOf 4 0 ++
    LittleEndian.bytesOf 4 ph.sizeInFile ++ LittleEndian.bytesOf 4 ph.sizeMem ++
    LittleEndian.bytesOf 4 ph.flags ++ LittleEndian.bytesOf 4 pageSize

/-- An executable with these program headers right behind its header. -/
def elfFile (headers : List KElfProgrHdr32) : List (BitVec 8) :=
  elfMagic ++ [1, 1, 1, 0] ++ LittleEndian.bytesOf 8 0 ++
    LittleEndian.bytesOf 2 elfTypeExecutable ++ LittleEndian.bytesOf 2 elfArchX86 ++
    LittleEndian.bytesOf 4 1 ++ LittleEndian.bytesOf 4 0x400000 ++ LittleEndian.bytesOf 4 52 ++
    LittleEndian.bytesOf 8 0 ++ LittleEndian.bytesOf 2 52 ++ LittleEndian.bytesOf 2 32 ++
    LittleEndian.bytesOf 2 headers.length ++ LittleEndian.bytesOf 6 0 ++
    headers.flatMap KElfProgrHdr32.bytes

end Antonix.Elf
