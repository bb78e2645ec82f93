import Antonix.Lib.Transition
import Antonix.Scheduler.Basic

/-! # The threads of the system

A system is the state of the scheduler with what the threads are doing.  Only the
current thread executes calls; between any two of its steps the timer may tick.
`sched_create_process` runs with interrupts disabled, but `sched_create_thread` can
be preempted before it queues the thread, and `elf_load_from_memory` between
creating the process and its last statement. -/

namespace Antonix.Sched

open Function

/-- What a thread is doing. -/
inductive Activity where
  | running
  /-- in `sched_create_thread`, about to queue the thread -/
  | creating (t : Nat)
  /-- in `elf_load_from_memory` for the process, whose main thread is `main` until it exits -/
  | loading (proc : Nat) (main : Option Nat)
  deriving DecidableEq

/-- The main thread of the process has exited if `t` is it. -/
def Activity.forget (t : Nat) : Activity → Activity
  | .loading proc main => .loading proc (if main = some t then none else main)
  | activity => activity

@[simp] theorem Activity.forget_eq_creating_iff {c t : Nat} {activity : Activity} :
    activity.forget c = .creating t ↔ activity = .creating t := by
  cases activity with
  | running => simp [forget]
  | creating t' => simp [forget]
  | loading proc main => simp [forget]

theorem Activity.forget_eq_loading_iff {c proc t : Nat} {activity : Activity} :
    activity.forget c = .loading proc (some t) ↔ activity = .loading proc (some t) ∧ t ≠ c := by
  cases activity with
  | running => simp [forget]
  | creating t' => simp [forget]
  | loading proc' main =>
    by_cases exited : main = some c
    · simp [forget, exited]
      grind
    · simp [forget, exited]
      grind

structure System where
  sched : SchedState
  activity : Nat → Activity
  /-- the thread descriptors that `skheap` has allocated -/
  allocated : List Nat
  /-- the threads that have been created and have not exited -/
  created : List Nat

/-- An address that `skheap` can allocate for a thread. -/
structure System.Fresh (s : System) (t : Nat) : Prop where
  nonzero : t ≠ 0
  small : t < 2 ^ 32
  new : t ∉ s.allocated

inductive SchedOp where
  | tick
  | initThread (proc : Option Nat) (t : Nat)
  | queueThread
  | createProcess (proc t : Nat)
  | exitThread
  | elfLoadBegin (proc t : Nat)
  | elfLoadFinish
  deriving DecidableEq

/-- One step of the system.  A call that fails changes nothing and is left out, and a call that
stops the kernel is not a step. -/
inductive SchedStep : System → SchedOp → System → Prop
  | tick {s : System} {sched : SchedState} :
      schedUpdate s.sched = .ok sched →
      SchedStep s .tick { s with sched }
  | initThread {s : System} {sched : SchedState} {proc : Option Nat} {c t : Nat} :
      s.sched.current = some c → s.activity c = .running → s.Fresh t →
      schedInitThread s.sched proc t = .ok sched →
      SchedStep s (.initThread proc t)
        { s with
          sched
          activity := update s.activity c (.creating t)
          allocated := t :: s.allocated }
  | queueThread {s : System} {sched : SchedState} {c t : Nat} :
      s.sched.current = some c → s.activity c = .creating t →
      schedAddThreadToRunQueue s.sched t = .ok sched →
      SchedStep s .queueThread
        { s with
          sched
          activity := update (update s.activity c .running) t .running
          created := t :: s.created }
  | createProcess {s : System} {sched : SchedState} {c proc t pid : Nat} :
      s.sched.current = some c → s.activity c = .running → s.Fresh t →
      proc ∉ s.sched.processArray →
      schedCreateProcess s.sched proc t = .ok (.sOk, some pid, sched) →
      SchedStep s (.createProcess proc t)
        { s with
          sched
          activity := update s.activity t .running
          allocated := t :: s.allocated
          created := t :: s.created }
  | exitThread {s : System} {sched : SchedState} {c : Nat} :
      s.sched.current = some c → s.activity c = .running →
      schedExitThread s.sched c = .ok sched →
      SchedStep s .exitThread
        { s with
          sched
          activity := fun t => (s.activity t).forget c
          allocated := s.allocated.erase c
          created := s.created.erase c }
  | elfLoadBegin {s : System} {sched : SchedState} {c proc proc' t : Nat} :
      s.sched.current = some c → s.activity c = .running → s.Fresh t →
      proc ∉ s.sched.processArray →
      elfLoadBegin s.sched proc t = .ok (.ok proc', sched) →
      SchedStep s (.elfLoadBegin proc t)
        { s with
          sched
          activity := update (update s.activity c (.loading proc' (some t))) t .running
          allocated := t :: s.allocated
          created := t :: s.created }
  | elfLoadFinish {s : System} {sched : SchedState} {c proc : Nat} {main : Option Nat} :
      s.sched.current = some c → s.activity c = .loading proc main →
      elfLoadFinish s.sched proc = .ok sched →
      SchedStep s .elfLoadFinish { s with sched, activity := update s.activity c .running }

/-- The system as `sched_initialize` leaves it, waiting for the first tick. -/
inductive System.Initial : System → Prop
  | ready {kernelProc main idle : Nat} {sched : SchedState} :
      main ≠ 0 → main < 2 ^ 32 → idle ≠ 0 → idle < 2 ^ 32 → main ≠ idle →
      schedInitialize kernelProc main idle = .ok sched →
      Initial ⟨sched, fun _ => .running, [idle, main], [idle, main]⟩

/-- Following the links from `run_queue` visits every created thread but the current one, each of
them once, and ends. -/
def System.QueueSound (s : System) : Prop :=
  ∃ queue, Chains.Chain s.sched.next s.sched.runQueue queue ∧ queue.Nodup ∧
    ∀ t, t ∈ queue ↔ t ∈ s.created ∧ s.sched.current ≠ some t

end Antonix.Sched
