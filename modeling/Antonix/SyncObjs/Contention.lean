import Mathlib.Logic.Function.Basic
import Antonix.SyncObjs.Mutex

/-! # Contended mutexes (`syncobjs.c`)

Threads lock and unlock one mutex in any order.  Beside the mutex stands the number of locks
that each thread has open, which is what the mutex is there to keep: a thread that comes while
another has locks open must be turned back and come again, and pass once they are closed.  The
code halts the machine instead. -/

namespace Antonix.Mutex

open Function Transition

/-- One pass of `mutex_lock` with its `pass` flag; a caller that is told `false` comes again. -/
def mutexLockPass (currPid currTid : Option Nat) (m : KMutex) : Except Halt (Bool × KMutex) := do
  let (currPid, currTid) ← currentIds currPid currTid
  let pass : Bool := ¬ (m.lockCount > 0 ∧ (m.pid ≠ currPid ∨ m.tid ≠ currTid))
  if pass then
    let m := if m.lockCount = 0 then { m with pid := currPid, tid := currTid } else m
    .ok (pass, { m with lockCount := u32 (m.lockCount + 1) })
  else
    -- this stands where `pass` becomes `FALSE`, so that nobody gets to `goto retry`
    .error (.panic "...")

/-- `mutexLock` keeps no flag, because the only passes that end are those that get through. -/
theorem mutexLockPass_eq (currPid currTid : Option Nat) (m : KMutex) :
    mutexLockPass currPid currTid m = (mutexLock currPid currTid m).map (true, ·) := by
  unfold mutexLockPass mutexLock
  cases currentIds currPid currTid with
  | error halt => rfl
  | ok ids =>
    simp only [bind, Except.bind]
    by_cases contended : m.lockCount > 0 ∧ (m.pid ≠ ids.1 ∨ m.tid ≠ ids.2)
    · rw [if_pos contended]
      simp [contended, Except.map]
    · rw [if_neg contended]
      simp [contended, Except.map]

/-! ## Any threads in any order -/

/-- A mutex, and the number of locks that each thread has open. -/
structure Contest where
  mutex : KMutex
  opens : Thread → Nat

def contest : Contest where
  mutex := mutexCreate
  opens := fun _ => 0

/-- The steps that end.  No thread unlocks what it has not locked. -/
inductive ContestStep (s : Contest) : MutexOp → Contest → Prop
  | lock {thread : Thread} {pass : Bool} {m : KMutex}
      (ended : mutexLockPass (some thread.pid) (some thread.tid) s.mutex = .ok (pass, m)) :
      ContestStep s (.lock thread)
        { mutex := m
          opens := if pass then update s.opens thread (s.opens thread + 1) else s.opens }
  | unlock {thread : Thread} {m : KMutex} (locked : 0 < s.opens thread)
      (ended : mutexUnlock (some thread.pid) (some thread.tid) s.mutex = .ok m) :
      ContestStep s (.unlock thread)
        { mutex := m, opens := update s.opens thread (s.opens thread - 1) }

/-- A lock ends without a halt, and the thread is through if and only if no other has locks open;
a thread that has locks open can close one. -/
def Waits (s : Contest) : MutexOp → Prop
  | .lock thread => ∃ pass m,
      mutexLockPass (some thread.pid) (some thread.tid) s.mutex = .ok (pass, m) ∧
        (pass = true ↔ ∀ other ≠ thread, s.opens other = 0)
  | .unlock thread => 0 < s.opens thread →
      ∃ m, mutexUnlock (some thread.pid) (some thread.tid) s.mutex = .ok m

/-- No other thread has locks open when a thread locks; the 32-bit counter has not come round to
zero when one unlocks. -/
def Uncontended (s : Contest) : MutexOp → Prop
  | .lock thread => ∀ other ≠ thread, s.opens other = 0
  | .unlock thread => 0 < s.opens thread → u32 (s.opens thread) ≠ 0

/-- The mutex counts the open locks of the thread that it names, and no other has any. -/
structure Counted (s : Contest) : Prop where
  others : ∀ thread ≠ owner s.mutex, s.opens thread = 0
  count : s.mutex.lockCount = u32 (s.opens (owner s.mutex))

section

variable {s t : Contest} {thread : Thread}

theorem contest_counted : Counted contest where
  others := fun _ _ => rfl
  count := rfl

theorem Counted.owns (counted : Counted s) (locked : 0 < s.opens thread) :
    owner s.mutex = thread := by
  by_contra other
  have none := counted.others thread (Ne.symm other)
  omega

/-- The pass that a thread makes while no other has locks open. -/
theorem Counted.admits (counted : Counted s) (alone : ∀ other ≠ thread, s.opens other = 0) :
    s.mutex.lockCount = 0 ∨ owner s.mutex = thread := by
  by_cases named : owner s.mutex = thread
  · exact .inr named
  · left
    rw [counted.count, alone _ named]
    rfl

theorem mutexLockPass_eq_ok {m m' : KMutex} {pass : Bool} :
    mutexLockPass (some thread.pid) (some thread.tid) m = .ok (pass, m') ↔
      pass = true ∧ mutexLock (some thread.pid) (some thread.tid) m = .ok m' := by
  rw [mutexLockPass_eq]
  cases mutexLock (some thread.pid) (some thread.tid) m with
  | error halt => simp [Except.map]
  | ok m'' => simp [Except.map, eq_comm]

/-- A lock does what it should where nobody else has locks open, and nowhere else. -/
theorem waits_lock_iff (counted : Counted s) :
    Waits s (.lock thread) ↔ Uncontended s (.lock thread) := by
  constructor
  · intro ⟨pass, m, ended, through⟩
    -- a pass that ends has got through
    exact through.mp (mutexLockPass_eq_ok.mp ended).1
  · intro alone
    have ended : mutexLock (some thread.pid) (some thread.tid) s.mutex =
        .ok ⟨u32 (s.mutex.lockCount + 1), thread.pid, thread.tid⟩ :=
      mutexLock_eq_ok.mpr ⟨counted.admits alone, rfl, rfl⟩
    exact ⟨true, _, mutexLockPass_eq_ok.mpr ⟨rfl, ended⟩, fun _ => alone, fun _ => rfl⟩

/-- An unlock ends where the counter is not zero, and nowhere else. -/
theorem waits_unlock_iff (counted : Counted s) :
    Waits s (.unlock thread) ↔ Uncontended s (.unlock thread) := by
  apply imp_congr_right
  intro locked
  have own := counted.owns locked
  have count := counted.count
  rw [own] at count
  constructor
  · intro ⟨m, ended⟩
    rw [← count]
    exact (mutexUnlock_eq_ok.mp ended).1
  · intro counts
    rw [← count] at counts
    exact ⟨⟨sub32 s.mutex.lockCount 1, thread.pid, thread.tid⟩,
      mutexUnlock_eq_ok.mpr ⟨counts, own, rfl, rfl⟩⟩

theorem Counted.step {op : MutexOp} (counted : Counted s) (alone : Uncontended s op)
    (step : ContestStep s op t) : Counted t := by
  cases step with
  | @lock thread pass m ended =>
    obtain ⟨rfl, through⟩ := mutexLockPass_eq_ok.mp ended
    obtain ⟨admitted, named, count⟩ := mutexLock_eq_ok.mp through
    have others : ∀ other ≠ thread, s.opens other = 0 := alone
    -- what the mutex counted before is what the caller has open
    have before : s.mutex.lockCount = u32 (s.opens thread) := by
      by_cases own : owner s.mutex = thread
      · rw [← own]
        exact counted.count
      · have free := admitted.resolve_right own
        rw [free, counted.others thread (Ne.symm own)]
        rfl
    constructor
    · intro other different
      dsimp only at different ⊢
      rw [named] at different
      rw [if_pos rfl, update_of_ne different]
      exact others other different
    · dsimp only
      rw [named, count, before, if_pos rfl, update_self, u32_add_left]
  | @unlock thread m locked ended =>
    obtain ⟨counts, own, named, count⟩ := mutexUnlock_eq_ok.mp ended
    have before := counted.count
    rw [own] at before
    constructor
    · intro other different
      dsimp only at different ⊢
      rw [named] at different
      rw [update_of_ne different]
      exact counted.others other (own ▸ different)
    · dsimp only
      rw [named, count, before, update_self]
      rw [before] at counts
      unfold sub32 u32 at *
      omega

end

/-- The locks of any threads wait for each other along exactly those sequences of calls in which
they never have to. -/
theorem mutex_waits_iff (ops : List MutexOp) :
    Along ContestStep Waits contest ops ↔ Along ContestStep Uncontended contest ops := by
  refine Along.iff_of_inv (fun s => Counted s) (fun _ _ => trivial)
    (fun s op counted _ => ?_) (fun _ _ _ counted _ alone step => counted.step alone step)
    contest_counted
  cases op with
  | lock thread => exact waits_lock_iff counted
  | unlock thread => exact waits_unlock_iff counted

/-- A thread locks and is preempted; the next to come halts the machine. -/
theorem mutex_waits_not :
    ¬ ∀ ops, Along ContestStep Waits contest ops := by
  intro waits
  have first : ContestStep contest (.lock ⟨1, 1⟩)
      ⟨⟨1, 1, 1⟩, if true then update contest.opens ⟨1, 1⟩ 1 else contest.opens⟩ :=
    .lock rfl
  have second := ((waits [.lock ⟨1, 1⟩, .lock ⟨2, 2⟩]).2 _ first).1
  obtain ⟨pass, m, ended, -⟩ := second
  have halted : mutexLockPass (some 2) (some 2) ⟨1, 1, 1⟩ = .error (.panic "...") := rfl
  rw [halted] at ended
  contradiction

end Antonix.Mutex
