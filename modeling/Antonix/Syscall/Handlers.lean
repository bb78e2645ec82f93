import Antonix.Drivers.Console
import Antonix.KConsole.CommandLine
import Antonix.Syscall.Machine

/-! # System calls (`syscall.c`)

`syscall_handler` takes the registers of a thread and hands them to a handler. -/

namespace Antonix.Syscall

open Mutex KConsole Vfs

/-! ## Mutexes -/

/-- `mutex_create` -/
def mutexCreateAt (p : BitVec 32) (machine : Machine) : Except Halt Machine :=
  match mutexAt machine.memory p with
  | none => .error pageFault
  | some _ => .ok (storeMutex machine p mutexCreate)

/-- `spinlock_acquire(&m->inner_lock)`: with the interrupts off, nobody opens a closed lock. -/
def acquireAt (p : BitVec 32) (machine : Machine) : Except Halt KMutex :=
  match mutexAt machine.memory p with
  | none => .error pageFault
  | some (innerLock, m) => if innerLock = 0 then .ok m else .error .stuck

/-- `mutex_lock` -/
def mutexLockAt (host : Host) (p : BitVec 32) (machine : Machine) : Except Halt Machine := do
  let m ← acquireAt p machine
  let m ← mutexLock (some host.current.pid) (some host.current.tid) m
  .ok (storeMutex machine p m)

/-- A C string as the path that it is for `vfs_parse_url`. -/
def pathOf (filename : List (BitVec 8)) : List Char :=
  filename.map fun byte => Char.ofNat byte.toNat

/-- A `K_STREAM` as `vfs_open` populates it: `mode`, `pos`, `filename`, the routines,
`priv_data`, `fs_driver`, `opaque_data` and `lock`. -/
def streamWords (fmode name : BitVec 32) (routines : StreamRoutines) (close : BitVec 32)
    (node : Nat) : List Nat :=
  [fmode.toNat, 0, name.toNat, routines.read.toNat, routines.write.toNat, routines.seek.toNat,
    routines.tell.toNat, routines.ioctl.toNat, close.toNat, node, 0, 0, 0, 0, 0, 0]

/-- The machine with the stream `str` for the node `n`, and its name. -/
def populate (host : Host) (n : Nat) (filename : List (BitVec 8)) (fmode str name : BitVec 32)
    (routines : StreamRoutines) (machine : Machine) : Machine :=
  (machine.store name (filename ++ [0])).store str
    ((streamWords fmode name routines host.vfsClose n).flatMap (LittleEndian.bytesOf 4))

/-- The routine that `k_fclose` calls for a stream of `vfs_open`. -/
theorem pointerAt_populate (host : Host) (n : Nat) (filename : List (BitVec 8))
    (fmode str name : BitVec 32) (routines : StreamRoutines) (machine : Machine) :
    pointerAt (populate host n filename fmode str name routines machine).memory (str + 32) =
      some host.vfsClose := by
  let words := streamWords fmode name routines host.vfsClose n
  have length : (words.flatMap (LittleEndian.bytesOf 4)).length = 64 :=
    LittleEndian.length_words 4 words
  have loaded : loadBytes (populate host n filename fmode str name routines machine).memory
      (str + 32) 4 = some (((words.flatMap (LittleEndian.bytesOf 4)).drop 32).take 4) :=
    loadBytes_storeBytes _ str (i := 32) (by rw [length]; decide) (by rw [length]; decide)
  have close : LittleEndian.field 32 4 (words.flatMap (LittleEndian.bytesOf 4)) =
      host.vfsClose.toNat % 256 ^ 4 :=
    @LittleEndian.field_words 4 8 words (show 8 < 16 by decide)
  have small : host.vfsClose.toNat < 256 ^ 4 := host.vfsClose.isLt
  rw [LittleEndian.field] at close
  rw [pointerAt, loaded, Option.map_some, close, Nat.mod_eq_of_lt small, BitVec.ofNat_toNat,
    BitVec.setWidth_eq]

/-- `vfs_open` from where it takes a reference to the node, which it gives back when there
is no memory for the stream. -/
def openNode (host : Host) (n : Nat) (filename : List (BitVec 8)) (fmode : BitVec 32)
    (machine : Machine) : Except Halt ((HResult × BitVec 32) × Machine) :=
  match host.newStream with
  | none => .ok ((.eFail, 0), machine)
  | some str =>
    match host.newName with
    -- `strcpy` to `NULL`
    | none => .error .stuck
    | some name =>
      let node := machine.vfs.nodes n
      if node.type = nodeTypeFile then
        .ok ((.sOk, str), populate host n filename fmode str name host.fileRoutines machine)
      else if node.type = nodeTypeBlockdevice ∨ node.type = nodeTypeChardevice then
        match node.content with
        -- the routines of no device
        | none => .error .stuck
        | some _ => do
          let routines := host.deviceRoutines n
          let (hr, machine) ← host.ioctl routines.ioctl str
            (populate host n filename fmode str name routines machine)
          if hr.failed then .error (.panic "Failed to open device.")
          else .ok ((.sOk, str), machine)
      else .error (.panic "Unknown node type.")

/-- `vfs_open`, with the stream that it stores at `out`: 0 where it stores none. -/
def vfsOpen (host : Host) (filename : List (BitVec 8)) (fmode : BitVec 32) (machine : Machine) :
    Except Halt ((HResult × BitVec 32) × Machine) := do
  match ← vfsParseUrl machine.vfs (pathOf filename) (some extPathSize) (some extPathSize) with
  | .error hr => .ok ((hr, 0), machine)
  | .ok found =>
    let node := machine.vfs.nodes found.node
    if found.isCrossingMountpoint then
      -- the driver at the mount point gets the path behind it
      match node.fsDriver with
      | .mounted drv => host.fsOpen drv found.mountedPath fmode machine
      | _ => .error .stuck
    else if node.permission ≠ nodeModeAllRwe then .ok ((.eAccessDenied, 0), machine)
    else if node.type &&& nodeTypeDirectory ≠ 0 then .ok ((.eFail, 0), machine)
    else openNode host found.node filename fmode machine

/-- `k_fclose`: the routine whose address is in the field `close` of the stream is called. -/
def kFclose (host : Host) (stream : BitVec 32) (machine : Machine) :
    Except Halt (HResult × Machine) :=
  match pointerAt machine.memory (stream + 32) with
  | none => .error pageFault
  | some close => host.call close stream machine

end Antonix.Syscall
