import Antonix.Syscall.Handlers
import Antonix.Vfs.Destination
import Antonix.Vga.Printing

/-! # When the routines behind the handlers return

The mutexes of `syncobjs.c`, the output of `vga.c` and the streams of `kstdio.c`, over
pointers that nobody has looked at. -/

namespace Antonix.Syscall

open Mutex Vga Vfs

/-- A call returns. -/
def Returns {α : Type} (call : Except Halt α) : Prop := ∃ value, call = .ok value

variable {α β : Type} {call : Except Halt α} {next : α → Except Halt β} {host : Host}
  {machine machine' : Machine} {p fmode : BitVec 32} {n : Nat} {filename : List (BitVec 8)}

theorem returns_ok (value : α) : Returns (.ok value : Except Halt α) := ⟨value, rfl⟩

/-- A sequence returns when its first call does, and the rest for what that gives. -/
theorem returns_bind :
    Returns (call >>= next) ↔ ∃ value, call = .ok value ∧ Returns (next value) := by
  constructor
  · rintro ⟨result, returned⟩
    obtain ⟨value, first, rest⟩ := exists_of_bind returned
    exact ⟨value, first, result, rest⟩
  · rintro ⟨value, rfl, result, returned⟩
    exact ⟨result, returned⟩

theorem acquireAt_eq_ok {m : KMutex} :
    acquireAt p machine = .ok m ↔ mutexAt machine.memory p = some (0, m) := by
  unfold acquireAt
  cases found : mutexAt machine.memory p with
  | none => exact iff_of_false (fun acquired => nomatch acquired) (fun same => nomatch same)
  | some locked =>
    obtain ⟨innerLock, m'⟩ := locked
    by_cases free : innerLock = 0
    · subst free
      simp
    · simp [free]

theorem mutexLockAt_returns :
    Returns (mutexLockAt host p machine) ↔ ∃ m, mutexAt machine.memory p = some (0, m) ∧
      (m.lockCount = 0 ∨ owner m = host.current) := by
  simp only [mutexLockAt, returns_bind, acquireAt_eq_ok]
  refine exists_congr fun m => and_congr_right fun _ => ?_
  constructor
  · rintro ⟨m', locked, -⟩
    exact (mutexLock_eq_ok.mp locked).1
  · intro allowed
    exact ⟨⟨u32 (m.lockCount + 1), host.current.pid, host.current.tid⟩,
      mutexLock_eq_ok.mpr ⟨allowed, rfl, rfl⟩, returns_ok _⟩

/-- A mutex can be locked when it has just been created. -/
theorem mutexLockAt_created (created : mutexCreateAt p machine = .ok machine') :
    Returns (mutexLockAt host p machine') := by
  unfold mutexCreateAt at created
  cases found : mutexAt machine.memory p with
  | none =>
    rw [found] at created
    cases created
  | some old =>
    rw [found] at created
    cases created
    exact mutexLockAt_returns.mpr ⟨_, mutexAt_storeMutex machine p mutexCreate, .inl rfl⟩

/-- A stream that `vfs_open` has populated is closed by `vfs_close`. -/
theorem kFclose_populate (str name : BitVec 32) (routines : StreamRoutines) :
    kFclose host str (populate host n filename fmode str name routines machine) =
      host.call host.vfsClose str (populate host n filename fmode str name routines machine) := by
  rw [kFclose, pointerAt_populate]

end Antonix.Syscall
