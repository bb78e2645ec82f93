import Antonix.Types
import Antonix.Lib.Transition

/-! # Recursive mutexes (`syncobjs.c`)

`inner_lock` makes each pass of `mutex_lock` and each `mutex_unlock` one step.  A
pass that finds the mutex in other hands panics, so that `goto retry` is never taken.

The owner's ids stay in the mutex after the last unlock; they mean something only
while `lock_count` is not zero. -/

namespace Antonix.Mutex

open Transition

/-- `K_MUTEX` -/
structure KMutex where
  lockCount : Nat
  pid : Nat
  tid : Nat
  deriving DecidableEq

/-- `mutex_create` -/
def mutexCreate : KMutex where
  lockCount := 0
  pid := 0
  tid := 0

/-- The ids of the calling thread; the scheduler may fail to give either. -/
def currentIds (currPid currTid : Option Nat) : Except Halt (Nat × Nat) :=
  match currPid, currTid with
  | none, _ => .error (.panic "mutex_lock(): Failed to retrieve current process id.")
  | some _, none => .error (.panic "mutex_lock(): Failed to retrieve current thread id.")
  | some pid, some tid => .ok (pid, tid)

/-- One pass of `mutex_lock`. -/
def mutexLock (currPid currTid : Option Nat) (m : KMutex) : Except Halt KMutex := do
  let (currPid, currTid) ← currentIds currPid currTid
  if m.lockCount > 0 ∧ (m.pid ≠ currPid ∨ m.tid ≠ currTid) then
    .error (.panic "...")
  else
    -- a free mutex takes the caller as its new owner
    let m := if m.lockCount = 0 then { m with pid := currPid, tid := currTid } else m
    .ok { m with lockCount := u32 (m.lockCount + 1) }

/-- `mutex_unlock` -/
def mutexUnlock (currPid currTid : Option Nat) (m : KMutex) : Except Halt KMutex := do
  let (currPid, currTid) ← currentIds currPid currTid
  if m.pid ≠ currPid ∨ m.tid ≠ currTid then
    .error (.panic "mutex_unlock(): Trying to unlock a non-owned mutex.")
  else if m.lockCount = 0 then
    .error (.panic
      "mutex_unlock(): Trying to unlock non-locked mutex or counter dropped below zero.")
  else .ok { m with lockCount := sub32 m.lockCount 1 }

/-! ## Threads -/

/-- A thread, by the ids that the scheduler gives it. -/
structure Thread where
  pid : Nat
  tid : Nat
  deriving DecidableEq

/-- A pass or an unlock that has completed, and the thread that made it. -/
inductive MutexOp where
  | lock (thread : Thread)
  | unlock (thread : Thread)
  deriving DecidableEq

def MutexOp.thread : MutexOp → Thread
  | .lock thread | .unlock thread => thread

/-- The steps on one mutex, by any number of threads in any order. -/
def Step (m : KMutex) (op : MutexOp) (m' : KMutex) : Prop :=
  match op with
  | .lock thread => mutexLock (some thread.pid) (some thread.tid) m = .ok m'
  | .unlock thread => mutexUnlock (some thread.pid) (some thread.tid) m = .ok m'

/-- Nesting stays below `2 ^ 32`. -/
def NestingFits (m : KMutex) : MutexOp → Prop
  | .lock _ => m.lockCount + 1 < 2 ^ 32
  | .unlock _ => m.lockCount < 2 ^ 32

/-- The number of locks that a thread has completed in a run. -/
def locks (ops : List MutexOp) (thread : Thread) : Nat := ops.countP (· = .lock thread)

/-- The number of unlocks that a thread has completed in a run. -/
def unlocks (ops : List MutexOp) (thread : Thread) : Nat := ops.countP (· = .unlock thread)

/-- The thread that the mutex names. -/
def owner (m : KMutex) : Thread where
  pid := m.pid
  tid := m.tid

/-- The number of locks that the mutex records for a thread. -/
def held (thread : Thread) (m : KMutex) : Nat := if owner m = thread then m.lockCount else 0

section

variable {m m' : KMutex} {thread : Thread}

/-- What a pass of `mutex_lock` does. -/
theorem mutexLock_eq_ok :
    mutexLock (some thread.pid) (some thread.tid) m = .ok m' ↔
      (m.lockCount = 0 ∨ owner m = thread) ∧ owner m' = thread ∧
        m'.lockCount = u32 (m.lockCount + 1) := by
  obtain ⟨pid, tid⟩ := thread
  obtain ⟨count, pid', tid'⟩ := m
  obtain ⟨count', pid'', tid''⟩ := m'
  simp only [mutexLock, currentIds, owner, Thread.mk.injEq, bind, Except.bind]
  by_cases free : count = 0
  · subst free
    simp
    tauto
  · by_cases own : pid' = pid ∧ tid' = tid
    · obtain ⟨rfl, rfl⟩ := own
      simp [free]
      tauto
    · -- the mutex is in other hands
      have other : pid' ≠ pid ∨ tid' ≠ tid := by tauto
      rw [if_pos ⟨Nat.pos_of_ne_zero free, other⟩]
      simp [free]
      tauto

/-- What `mutex_unlock` does. -/
theorem mutexUnlock_eq_ok :
    mutexUnlock (some thread.pid) (some thread.tid) m = .ok m' ↔
      m.lockCount ≠ 0 ∧ owner m = thread ∧ owner m' = thread ∧
        m'.lockCount = sub32 m.lockCount 1 := by
  obtain ⟨pid, tid⟩ := thread
  obtain ⟨count, pid', tid'⟩ := m
  obtain ⟨count', pid'', tid''⟩ := m'
  simp only [mutexUnlock, currentIds, owner, Thread.mk.injEq, bind, Except.bind]
  by_cases own : pid' = pid ∧ tid' = tid
  · obtain ⟨rfl, rfl⟩ := own
    by_cases free : count = 0
    · simp [free]
    · simp [free]
      tauto
  · have other : pid' ≠ pid ∨ tid' ≠ tid := by tauto
    rw [if_pos other]
    simp
    tauto

/-- A step is made by the thread that the mutex names after it, and, if the mutex was locked,
before it. -/
theorem Step.byOwner {op : MutexOp} (step : Step m op m') :
    owner m' = op.thread ∧ (m.lockCount ≠ 0 → owner m = op.thread) := by
  cases op with
  | lock thread =>
    obtain ⟨allowed, named, -⟩ := mutexLock_eq_ok.mp step
    exact ⟨named, allowed.resolve_left⟩
  | unlock thread =>
    obtain ⟨-, named, named', -⟩ := mutexUnlock_eq_ok.mp step
    exact ⟨named', fun _ => named⟩

/-- Every step keeps the books of every thread. -/
theorem held_step {op : MutexOp} (fits : NestingFits m op) (step : Step m op m') :
    held thread m + (if decide (op = .lock thread) then 1 else 0) =
      (if decide (op = .unlock thread) then 1 else 0) + held thread m' := by
  cases op with
  | lock by' =>
    obtain ⟨allowed, named, count⟩ := mutexLock_eq_ok.mp step
    rw [u32_of_lt fits] at count
    unfold held
    rw [named, count]
    cases allowed with
    | inl free =>
      by_cases same : by' = thread <;> simp [free, same]
    | inr own =>
      by_cases same : by' = thread <;> simp [own, same]
  | unlock by' =>
    obtain ⟨locked, own, named, count⟩ := mutexUnlock_eq_ok.mp step
    rw [sub32_of_le (by omega) fits] at count
    unfold held
    rw [own, named, count]
    by_cases same : by' = thread
    · simp only [same, if_true, decide_true, reduceCtorEq, decide_false, Bool.false_eq_true,
        if_false]
      omega
    · simp [same]

/-- In every run the mutex records, for every thread, how many of its locks are open. -/
theorem locks_eq {ops : List MutexOp}
    (run : Run (Guarded NestingFits Step) mutexCreate ops m) (thread : Thread) :
    locks ops thread = unlocks ops thread + held thread m := by
  have balance := run.balance (fun op => decide (op = .lock thread))
    (fun op => decide (op = .unlock thread)) (held thread)
    fun _ _ _ taken => held_step taken.1 taken.2
  have start : held thread mutexCreate = 0 := by
    unfold held
    split <;> rfl
  rw [start, Nat.zero_add] at balance
  exact balance

/-- A free mutex passes whoever comes next. -/
theorem mutexLock_of_free (free : m.lockCount = 0) (thread : Thread) :
    ∃ m', mutexLock (some thread.pid) (some thread.tid) m = .ok m' ∧ m'.lockCount = 1 ∧
      owner m' = thread := by
  refine ⟨⟨1, thread.pid, thread.tid⟩, mutexLock_eq_ok.mpr ⟨.inl free, rfl, ?_⟩, rfl, rfl⟩
  rw [free]
  rfl

end

/-- After any steps of any threads: no two threads have locks open; the counter is the number of
open locks of the thread that has some, and the ids name it; whoever changes the counter is the
recorded owner; when no lock is open, the next attempt of any thread succeeds. -/
theorem mutex_safe {ops : List MutexOp} {m : KMutex}
    (run : Run (Guarded NestingFits Step) mutexCreate ops m) :
    (∀ thread, unlocks ops thread ≤ locks ops thread) ∧
    (∀ thread other, unlocks ops thread < locks ops thread → unlocks ops other < locks ops other →
      thread = other) ∧
    (∀ thread, unlocks ops thread < locks ops thread →
      owner m = thread ∧ m.lockCount = locks ops thread - unlocks ops thread) ∧
    (0 < m.lockCount → m.lockCount = locks ops (owner m) - unlocks ops (owner m)) ∧
    (∀ op m', Step m op m' → m'.lockCount ≠ m.lockCount →
      owner m' = op.thread ∧ (0 < m.lockCount → owner m = op.thread)) ∧
    ((∀ thread, locks ops thread = unlocks ops thread) →
      ∀ thread : Thread, ∃ m', mutexLock (some thread.pid) (some thread.tid) m = .ok m') := by
  have books := locks_eq run
  -- a thread with open locks has them recorded, and the mutex records those of one thread
  have open_owner : ∀ thread, unlocks ops thread < locks ops thread →
      owner m = thread ∧ m.lockCount = locks ops thread - unlocks ops thread := by
    intro thread more
    have book := books thread
    unfold held at book
    split at book
    · rename_i named
      exact ⟨named, by omega⟩
    · omega
  have own := books (owner m)
  rw [held, if_pos rfl] at own
  refine ⟨?_, ?_, open_owner, ?_, ?_, ?_⟩
  · intro thread
    rw [books thread]
    exact Nat.le_add_right _ _
  · intro thread other more more'
    rw [← (open_owner thread more).1, (open_owner other more').1]
  · omega
  · intro op m' step _
    have named := step.byOwner
    exact ⟨named.1, fun locked => named.2 (Nat.ne_of_gt locked)⟩
  · -- the books of the recorded owner are even, too
    intro even thread
    have free : m.lockCount = 0 := by
      have same := even (owner m)
      omega
    obtain ⟨m', passed, -⟩ := mutexLock_of_free free thread
    exact ⟨m', passed⟩

/-- One thread locks twice and unlocks once; the mutex is still its own. -/
theorem mutex_safe_nested : owner ⟨1, 3, 4⟩ = ⟨3, 4⟩ ∧ (1 : Nat) = 2 - 1 := by
  have run : Run (Guarded NestingFits Step) mutexCreate
      [.lock ⟨3, 4⟩, .lock ⟨3, 4⟩, .unlock ⟨3, 4⟩] ⟨1, 3, 4⟩ :=
    .cons ⟨Nat.lt_of_sub_pos (by decide), rfl⟩ (.cons ⟨Nat.lt_of_sub_pos (by decide), rfl⟩
      (.cons ⟨Nat.lt_of_sub_pos (by decide), rfl⟩ (.nil _)))
  exact (mutex_safe run).2.2.1 ⟨3, 4⟩ (by decide)

end Antonix.Mutex
