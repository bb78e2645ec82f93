import Antonix.Libc.Sprintf
import Antonix.Lib.LittleEndian
import Antonix.SyncObjs.Mutex
import Antonix.Vfs.Tree
import Antonix.Vga.Terminal

/-! # What system calls work on

The registers of the thread that executed `int 0x80`, and the machine that they refer to.
The pointers among them are used as they are: an access where nothing is mapped ends in
`vmm_page_fault_handler`.  The objects that they point to are apart from those of the
kernel. -/

namespace Antonix.Syscall

open Mutex

/-- The registers that the handlers look at. -/
structure Registers where
  eax : BitVec 32
  ebx : BitVec 32
  ecx : BitVec 32
  edx : BitVec 32

/-- The byte at an address, where one is mapped. -/
abbrev Memory := BitVec 32 → Option (BitVec 8)

structure Machine where
  memory : Memory
  terminal : Vga.Terminal
  vfs : Vfs.VfsState

/-- The addresses of the routines of a stream, apart from `close`. -/
structure StreamRoutines where
  read : BitVec 32
  write : BitVec 32
  seek : BitVec 32
  tell : BitVec 32
  ioctl : BitVec 32

/-- What the handlers find around them. -/
structure Host where
  /-- The ids of the current process and thread. -/
  current : Thread
  /-- What the buffer of `vga_printf` holds at first. -/
  stack : Libc.Target
  /-- What the heap returns for a stream. -/
  newStream : Option (BitVec 32)
  /-- What the heap returns for the name of a stream. -/
  newName : Option (BitVec 32)
  /-- `vfs_file_read` and the other routines for files. -/
  fileRoutines : StreamRoutines
  /-- The address of `vfs_close`. -/
  vfsClose : BitVec 32
  /-- The routines of the device at a node. -/
  deviceRoutines : Nat → StreamRoutines
  /-- `open` of a mounted driver, with the stream that it stores. -/
  fsOpen : Nat → List Char → BitVec 32 → Machine → Except Halt ((HResult × BitVec 32) × Machine)
  /-- The `ioctl` at an address, called with a stream and `DEVIO_OPEN`. -/
  ioctl : BitVec 32 → BitVec 32 → Machine → Except Halt (HResult × Machine)
  /-- The routine at an address, called with a pointer to a stream. -/
  call : BitVec 32 → BitVec 32 → Machine → Except Halt (HResult × Machine)
  /-- The machine when a mutex that is waited for has been released, if it ever is. -/
  released : BitVec 32 → Machine → Option Machine

/-- `vmm_page_fault_handler` -/
def pageFault : Halt := .panic "Shutting down..."

/-! ## Accesses through pointers -/

/-- The `n` bytes at an address. -/
def loadBytes (memory : Memory) (p : BitVec 32) : Nat → Option (List (BitVec 8))
  | 0 => some []
  | n + 1 => do
    let byte ← memory p
    let bytes ← loadBytes memory (p + 1) n
    some (byte :: bytes)

/-- Bytes are stored at an address. -/
def storeBytes (memory : Memory) (p : BitVec 32) (bytes : List (BitVec 8)) : Memory := fun a =>
  match bytes[(a - p).toNat]? with
  | some byte => some byte
  | none => memory a

/-- A pointer at an address. -/
def pointerAt (memory : Memory) (p : BitVec 32) : Option (BitVec 32) :=
  (loadBytes memory p 4).map fun bytes => BitVec.ofNat 32 (LittleEndian.numberOf bytes)

/-- The `inner_lock` of a `K_MUTEX` at an address, and its other fields. -/
def mutexAt (memory : Memory) (p : BitVec 32) : Option (Nat × KMutex) :=
  (loadBytes memory p 16).map fun bytes =>
    (LittleEndian.field 0 4 bytes,
      { lockCount := LittleEndian.field 4 4 bytes
        pid := LittleEndian.field 8 4 bytes
        tid := LittleEndian.field 12 4 bytes })

/-- Bytes are stored in the memory of a machine. -/
def Machine.store (machine : Machine) (p : BitVec 32) (bytes : List (BitVec 8)) : Machine :=
  { machine with memory := storeBytes machine.memory p bytes }

/-- A mutex is stored with its `inner_lock` open. -/
def storeMutex (machine : Machine) (p : BitVec 32) (m : KMutex) : Machine :=
  machine.store p ([0, m.lockCount, m.pid, m.tid].flatMap (LittleEndian.bytesOf 4))

/-! ## What a store leaves for a load -/

theorem loadBytes_storeBytes (memory : Memory) (p : BitVec 32) {bytes : List (BitVec 8)}
    {i n : Nat} (inside : i + n ≤ bytes.length) (small : bytes.length < 2 ^ 32) :
    loadBytes (storeBytes memory p bytes) (p + BitVec.ofNat 32 i) n =
      some ((bytes.drop i).take n) := by
  induction n generalizing i with
  | zero => rw [List.take_zero, loadBytes]
  | succ n inductionHypothesis =>
    have offset : (p + BitVec.ofNat 32 i - p).toNat = i := by
      rw [BitVec.add_comm, BitVec.add_sub_cancel, BitVec.toNat_ofNat, Nat.mod_eq_of_lt (by omega)]
    have here : storeBytes memory p bytes (p + BitVec.ofNat 32 i) = some bytes[i] := by
      rw [storeBytes, offset, List.getElem?_eq_getElem (by omega)]
    have next : p + BitVec.ofNat 32 i + 1 = p + BitVec.ofNat 32 (i + 1) := by
      rw [BitVec.ofNat_add, ← BitVec.add_assoc]
      rfl
    rw [loadBytes, here, next, inductionHypothesis (by omega),
      List.drop_eq_getElem_cons (by omega : i < bytes.length), List.take_succ_cons]
    rfl

/-- A mutex that was stored is loaded again, cut to its words. -/
theorem mutexAt_storeMutex (machine : Machine) (p : BitVec 32) (m : KMutex) :
    mutexAt (storeMutex machine p m).memory p =
      some (0, ⟨u32 m.lockCount, u32 m.pid, u32 m.tid⟩) := by
  have length : ([0, m.lockCount, m.pid, m.tid].flatMap (LittleEndian.bytesOf 4)).length = 16 :=
    LittleEndian.length_words 4 _
  have loaded : loadBytes (storeMutex machine p m).memory (p + BitVec.ofNat 32 0) 16 = _ :=
    loadBytes_storeBytes machine.memory p (by rw [length]) (by rw [length]; decide)
  have word (i : Nat) (inside : i < 4) :
      LittleEndian.field (4 * i) 4 ([0, m.lockCount, m.pid, m.tid].flatMap
        (LittleEndian.bytesOf 4)) = [0, m.lockCount, m.pid, m.tid][i] % 256 ^ 4 :=
    LittleEndian.field_words inside
  rw [List.drop_zero, List.take_of_length_le (Nat.le_of_eq length),
    show p + BitVec.ofNat 32 0 = p from BitVec.add_zero p] at loaded
  rw [mutexAt, loaded, Option.map_some, word 0 (by decide), word 1 (by decide),
    word 2 (by decide), word 3 (by decide)]
  rfl

end Antonix.Syscall
