import Mathlib.Logic.Function.Basic
import Antonix.Lib.Transition
import Antonix.Types

/-! # Spinlocks (`syncobjs.c`, `hal.asm`, `isr.asm`)

There is one processor.  `spinlock_acquire` clears IF and `spinlock_release` puts it back,
so that the threads are not switched while a lock is held; the loop around
`atomic_update_int` is left at once or never.  IF is part of the EFLAGS that a thread has
when it runs again, and a handler ends with an `iret` that restores it. -/

namespace Antonix.Spinlock

open Function Transition

/-- What a thread has entered and not left yet: a section under a lock with the state of IF that
`spinlock_acquire` returned, or a handler with the IF that `iret` restores. -/
inductive Frame where
  | locked (l : Nat) (ifState : Bool)
  | handler (ifState : Bool)
  deriving DecidableEq

/-- The processor, with the locks and the threads. -/
structure Cpu where
  locks : Nat → Nat
  intf : Nat → Bool
  frames : Nat → List Frame
  current : Nat

/-- The current thread runs with interrupts enabled, and the others wait to leave the handler they
were switched away in, or the one that `sched_setup_thread_stack` makes up. -/
def Cpu.init (current : Nat) : Cpu where
  locks := fun _ => 0
  intf := fun t => t = current
  frames := fun t => if t = current then [] else [.handler true]
  current := current

/-- `hal_cli` -/
def halCli (s : Cpu) : Cpu := { s with intf := update s.intf s.current false }

/-- `hal_sti` -/
def halSti (s : Cpu) : Cpu := { s with intf := update s.intf s.current true }

/-- `hal_flush_pagedir`, which enables interrupts whatever they were. -/
def halFlushPagedir (s : Cpu) : Cpu := halSti (halCli s)

/-- `atomic_update_int`: the old value. -/
def atomicUpdateInt (l value : Nat) (s : Cpu) : Nat × Cpu :=
  (s.locks l, { s with locks := update s.locks l value })

/-- `spinlock_acquire`: the state of IF before. -/
def spinlockAcquire (l : Nat) (s : Cpu) : Except Halt (Bool × Cpu) :=
  let ifState := s.intf s.current
  let (old, s) := atomicUpdateInt l 1 (halCli s)
  -- with IF clear nobody else runs, and the loop finds its own 1 from now on
  if old = 0 then .ok (ifState, s) else .error .stuck

/-- `spinlock_release` -/
def spinlockRelease (l : Nat) (ifState : Bool) (s : Cpu) : Except Halt Cpu :=
  let (old, s) := atomicUpdateInt l 0 s
  if old ≠ 1 then
    .error (.panic "spinlock_realase(): Trying to release a non-locked spinlock.")
  else if ifState then .ok (halSti s)
  else .ok s

/-- The frames of the current thread. -/
def Cpu.stack (s : Cpu) : List Frame := s.frames s.current

def Cpu.setStack (s : Cpu) (frames : List Frame) : Cpu :=
  { s with frames := update s.frames s.current frames }

/-! ## Steps -/

/-- What the current thread does or what happens to it.  A trap is the interrupt that `sched_yield`
and system calls make themselves. -/
inductive CpuCall where
  | acquire (l : Nat)
  | release (l : Nat)
  | flushPagedir
  | interrupt
  | trap
  | iret
  | switchTo (t : Nat)

inductive CpuStep : Cpu → CpuCall → Cpu → Prop
  | acquire {s t : Cpu} {l : Nat} {ifState : Bool}
      (called : spinlockAcquire l s = .ok (ifState, t)) :
      CpuStep s (.acquire l) (t.setStack (.locked l ifState :: s.stack))
  /-- The lock that was taken last is released, with the value that `spinlock_acquire` gave. -/
  | release {s t : Cpu} {l : Nat} {ifState : Bool} {rest : List Frame}
      (top : s.stack = .locked l ifState :: rest)
      (called : spinlockRelease l ifState s = .ok t) :
      CpuStep s (.release l) (t.setStack rest)
  | flushPagedir {s : Cpu} : CpuStep s .flushPagedir (halFlushPagedir s)
  | interrupt {s : Cpu} (enabled : s.intf s.current = true) :
      CpuStep s .interrupt ((halCli s).setStack (.handler true :: s.stack))
  | trap {s : Cpu} :
      CpuStep s .trap ((halCli s).setStack (.handler (s.intf s.current) :: s.stack))
  | iret {s : Cpu} {ifState : Bool} {rest : List Frame} (top : s.stack = .handler ifState :: rest) :
      CpuStep s .iret ({ s with intf := update s.intf s.current ifState }.setStack rest)
  /-- `sched_update` in a handler. -/
  | switchTo {s : Cpu} {t : Nat} {ifState : Bool} {rest : List Frame}
      (top : s.stack = .handler ifState :: rest) (other : t ≠ s.current) :
      CpuStep s (.switchTo t) { s with current := t }

/-- A thread is in a section under a lock. -/
def Holds (frames : List Frame) (l : Nat) : Prop := ∃ ifState, Frame.locked l ifState ∈ frames

/-- A thread does not take a lock twice, and has none when it yields or flushes the directory. -/
def Disciplined (s : Cpu) : CpuCall → Prop
  | .acquire l => ¬ Holds s.stack l
  | .trap | .flushPagedir => ∀ l, ¬ Holds s.stack l
  | _ => True

/-! ## The invariant -/

/-- How often a thread has a lock. -/
def depth (frames : List Frame) (l : Nat) : Nat :=
  frames.countP fun frame => match frame with
    | .locked m _ => m = l
    | .handler _ => false

/-- The frames below one that IF was set in, and those below a handler, have no locks. -/
def Nested : List Frame → Prop
  | [] => True
  | .locked _ ifState :: rest => (ifState = true → ∀ l, ¬ Holds rest l) ∧ Nested rest
  | .handler _ :: rest => (∀ l, ¬ Holds rest l) ∧ Nested rest

/-- Only the current thread may have locks, and then with interrupts disabled. -/
structure Sound (s : Cpu) : Prop where
  others : ∀ t ≠ s.current, ∀ l, ¬ Holds (s.frames t) l
  parked : ∀ t ≠ s.current, ∃ ifState rest, s.frames t = .handler ifState :: rest
  enabled : s.intf s.current = true → ∀ l, ¬ Holds s.stack l
  nested : ∀ t, Nested (s.frames t)
  counted : ∀ l, s.locks l = depth s.stack l
  single : ∀ l, s.locks l ≤ 1

section

variable {s t : Cpu} {frames rest : List Frame} {l m : Nat} {ifState : Bool}

@[simp] theorem holds_nil : ¬ Holds [] l := by simp [Holds]

@[simp] theorem holds_locked : Holds (.locked m ifState :: rest) l ↔ l = m ∨ Holds rest l := by
  constructor
  · intro holds
    obtain ⟨b, member⟩ := holds
    cases member with
    | head => exact .inl rfl
    | tail _ below => exact .inr ⟨b, below⟩
  · intro holds
    cases holds with
    | inl same => exact ⟨ifState, by simp [same]⟩
    | inr below =>
      obtain ⟨b, member⟩ := below
      exact ⟨b, List.mem_cons_of_mem _ member⟩

@[simp] theorem holds_handler : Holds (.handler ifState :: rest) l ↔ Holds rest l := by
  simp [Holds]

@[simp] theorem depth_nil : depth [] l = 0 := rfl

@[simp] theorem depth_handler : depth (.handler ifState :: rest) l = depth rest l := by
  simp [depth]

theorem depth_locked_self : depth (.locked l ifState :: rest) l = depth rest l + 1 := by
  simp [depth]

theorem depth_locked_ne (other : m ≠ l) : depth (.locked m ifState :: rest) l = depth rest l := by
  simp [depth, other]

theorem depth_eq_zero_iff : depth frames l = 0 ↔ ¬ Holds frames l := by
  induction frames with
  | nil => simp
  | cons frame rest inductionHypothesis =>
    cases frame with
    | locked m ifState =>
      by_cases same : m = l
      · subst same
        simp [depth_locked_self]
      · simp [depth_locked_ne same, inductionHypothesis, Ne.symm same]
    | handler ifState => simp [inductionHypothesis]

theorem sound_init (current : Nat) : Sound (.init current) where
  others := by
    intro t other l
    have other' : t ≠ current := other
    simp [Cpu.init, other']
  parked := by
    intro t other
    have other' : t ≠ current := other
    exact ⟨true, [], by simp [Cpu.init, other']⟩
  enabled := by simp [Cpu.init, Cpu.stack]
  nested := by
    intro t
    by_cases same : t = current <;> simp [Cpu.init, same, Nested]
  counted := by simp [Cpu.init, Cpu.stack]
  single := by simp [Cpu.init]

/-! ## Steps keep it -/

/-- What only the current thread's frames, its IF and the locks decide. -/
theorem Sound.withStack (sound : Sound s) {locks : Nat → Nat} {intf : Nat → Bool}
    (enabled : intf s.current = true → ∀ l, ¬ Holds frames l) (nested : Nested frames)
    (counted : ∀ l, locks l = depth frames l) (single : ∀ l, locks l ≤ 1) :
    Sound { locks, intf, frames := update s.frames s.current frames, current := s.current } where
  others := by
    intro t other
    simp only [update_of_ne other]
    exact sound.others t other
  parked := by
    intro t other
    simp only [update_of_ne other]
    exact sound.parked t other
  enabled := by simpa [Cpu.stack] using enabled
  nested := by
    intro t
    by_cases same : t = s.current
    · subst same
      simpa using nested
    · simp only [update_of_ne same]
      exact sound.nested t
  counted := by simpa [Cpu.stack] using counted
  single := single

/-- A lock that the current thread does not have is free, and is acquired. -/
theorem Sound.acquire_eq (sound : Sound s) (fresh : ¬ Holds s.stack l) :
    spinlockAcquire l s = .ok (s.intf s.current,
      { halCli s with locks := update s.locks l 1 }) := by
  have free : s.locks l = 0 := by rw [sound.counted, depth_eq_zero_iff.mpr fresh]
  simp [spinlockAcquire, atomicUpdateInt, halCli, free]

theorem Sound.acquire (sound : Sound s) (fresh : ¬ Holds s.stack l) :
    Sound (({ halCli s with locks := update s.locks l 1 } : Cpu).setStack
      (.locked l (s.intf s.current) :: s.stack)) := by
  apply sound.withStack
  · simp [halCli]
  · exact ⟨sound.enabled, sound.nested s.current⟩
  · intro m
    by_cases same : m = l
    · subst same
      simp [depth_locked_self, depth_eq_zero_iff.mpr fresh]
    · simp [same, depth_locked_ne (Ne.symm same), sound.counted]
  · intro m
    by_cases same : m = l
    · simp [same]
    · simpa [same] using sound.single m

/-- The lock at the top is taken, so that it can be released. -/
theorem Sound.release_eq (sound : Sound s) (top : s.stack = .locked l ifState :: rest) :
    spinlockRelease l ifState s = .ok { s with
      locks := update s.locks l 0
      intf := if ifState then update s.intf s.current true else s.intf } := by
  have taken : s.locks l = 1 := by
    have counted := sound.counted l
    have single := sound.single l
    rw [top, depth_locked_self] at counted
    omega
  cases ifState <;> simp [spinlockRelease, atomicUpdateInt, halSti, taken]

/-- With a lock taken, interrupts are disabled. -/
theorem Sound.disabled (sound : Sound s) (holds : Holds s.stack l) :
    s.intf s.current = false := by
  cases enabled : s.intf s.current with
  | false => rfl
  | true => exact absurd holds (sound.enabled enabled l)

theorem Sound.release (sound : Sound s) (top : s.stack = .locked l ifState :: rest) :
    Sound (({ s with
      locks := update s.locks l 0
      intf := if ifState then update s.intf s.current true else s.intf } : Cpu).setStack rest) := by
  have nested := sound.nested s.current
  rw [← Cpu.stack, top] at nested
  have counted := sound.counted
  have disabled : s.intf s.current = false := sound.disabled (l := l) (by simp [top])
  apply sound.withStack
  · cases ifState with
    | true => exact fun _ => nested.1 rfl
    | false => simp [disabled]
  · exact nested.2
  · intro m
    have before := counted m
    have single := sound.single m
    by_cases same : m = l
    · subst same
      rw [top, depth_locked_self] at before
      simp only [update_self]
      omega
    · rw [top, depth_locked_ne (Ne.symm same)] at before
      simpa [same] using before
  · intro m
    by_cases same : m = l
    · simp [same]
    · simpa [same] using sound.single m

theorem Sound.step {call : CpuCall} (sound : Sound s) (disciplined : Disciplined s call)
    (step : CpuStep s call t) : Sound t := by
  cases step with
  | @acquire t l ifState called =>
    rw [sound.acquire_eq disciplined] at called
    obtain ⟨rfl, rfl⟩ := eq_of_returned called
    exact sound.acquire disciplined
  | release top called =>
    rw [sound.release_eq top] at called
    obtain rfl := Except.ok.inj called
    exact sound.release top
  | flushPagedir =>
    have flushed : halFlushPagedir s = { s with intf := update s.intf s.current true } := by
      simp [halFlushPagedir, halSti, halCli]
    rw [flushed]
    exact ⟨sound.others, sound.parked, fun _ => disciplined, sound.nested, sound.counted,
      sound.single⟩
  | interrupt enabled =>
    have free := sound.enabled enabled
    apply sound.withStack
    · simp [halCli]
    · exact ⟨free, sound.nested s.current⟩
    · simpa [halCli] using sound.counted
    · exact sound.single
  | trap =>
    apply sound.withStack
    · simp [halCli]
    · exact ⟨disciplined, sound.nested s.current⟩
    · simpa [halCli] using sound.counted
    · exact sound.single
  | iret top =>
    have nested := sound.nested s.current
    rw [← Cpu.stack, top] at nested
    have counted := sound.counted
    rw [top] at counted
    exact sound.withStack (fun _ => nested.1) nested.2 (by simpa using counted) sound.single
  | @switchTo u ifState rest top other =>
    have nested := sound.nested s.current
    rw [← Cpu.stack, top] at nested
    have free : ∀ t l, ¬ Holds (s.frames t) l := by
      intro t l
      by_cases same : t = s.current
      · subst same
        rw [← Cpu.stack, top]
        simpa using nested.1 l
      · exact sound.others t same l
    refine ⟨fun t _ => free t, ?_, fun _ => free u, sound.nested, ?_, sound.single⟩
    · intro t notNew
      by_cases same : t = s.current
      · subst same
        exact ⟨ifState, rest, top⟩
      · exact sound.parked t same
    · intro l
      have none : s.locks l = 0 := by
        rw [sound.counted]
        exact depth_eq_zero_iff.mpr (free s.current l)
      rw [none]
      exact (depth_eq_zero_iff.mpr (free u l)).symm

theorem sound_run {current : Nat} {ops : List CpuCall}
    (run : Run (Guarded Disciplined CpuStep) (.init current) ops s) : Sound s := by
  have kept : ∀ s op t, Sound s → Guarded Disciplined CpuStep s op t → Sound t :=
    fun s op t before step => before.step step.1 step.2
  exact run.invariant Sound kept (sound_init current)

/-! ## What the locks are for -/

theorem Sound.free (sound : Sound s) (none : ∀ l, ¬ Holds s.stack l) (l : Nat) : s.locks l = 0 := by
  rw [sound.counted]
  exact depth_eq_zero_iff.mpr (none l)

theorem Sound.holds_of_taken (sound : Sound s) (taken : s.locks l ≠ 0) : Holds s.stack l := by
  by_contra free
  rw [sound.counted, depth_eq_zero_iff.mpr free] at taken
  exact taken rfl

/-- An interrupt comes, and threads are switched, while no lock is taken. -/
theorem Sound.free_of_switch (sound : Sound s) {call : CpuCall} (step : CpuStep s call t)
    (switches : call = .interrupt ∨ ∃ u, call = .switchTo u) : s.locks l = 0 := by
  cases step with
  | interrupt enabled => exact sound.free (sound.enabled enabled) l
  | switchTo top other =>
    have nested := sound.nested s.current
    rw [← Cpu.stack, top] at nested
    apply sound.free
    intro m
    rw [top]
    simpa using nested.1 m
  | acquire called => simp at switches
  | release top called => simp at switches
  | flushPagedir => simp at switches
  | trap => simp at switches
  | iret top => simp at switches

/-- `hal_flush_pagedir` under a lock lets another thread run into the lock, and it never leaves the
loop. -/
theorem Sound.spins (sound : Sound s) (holds : Holds s.stack l) {u : Nat} (other : u ≠ s.current) :
    ∃ t, Run CpuStep s [.flushPagedir, .interrupt, .switchTo u, .iret] t ∧ t.current = u ∧
      ¬ Holds t.stack l ∧ spinlockAcquire l t = .error .stuck := by
  have taken : s.locks l ≠ 0 := by
    rw [sound.counted]
    exact fun zero => depth_eq_zero_iff.mp zero holds
  obtain ⟨ifState, rest, parked⟩ := sound.parked u other
  have enabled : (halFlushPagedir s).intf (halFlushPagedir s).current = true := by
    simp [halFlushPagedir, halSti, halCli]
  have nested := sound.nested u
  rw [parked] at nested
  let flushed := halFlushPagedir s
  let interrupted := (halCli flushed).setStack (.handler true :: flushed.stack)
  let switched := { interrupted with current := u }
  have handler : interrupted.stack = .handler true :: flushed.stack := by
    simp [interrupted, Cpu.stack, Cpu.setStack]
  have top : switched.stack = .handler ifState :: rest := by
    simpa [switched, interrupted, flushed, Cpu.stack, Cpu.setStack, halFlushPagedir, halSti, halCli,
      other] using parked
  have switch : CpuStep interrupted (.switchTo u) switched := .switchTo handler other
  refine ⟨_, .cons .flushPagedir (.cons (.interrupt enabled) (.cons switch
    (.single (.iret top)))), rfl, ?_, ?_⟩
  · simpa [Cpu.stack, Cpu.setStack] using nested.1 l
  · have kept : switched.locks l ≠ 0 := taken
    simp [spinlockAcquire, atomicUpdateInt, Cpu.setStack, halCli, kept]

end

/-- However threads that do not take a lock twice and neither yield nor flush the page directory
under one are interrupted and switched: a lock that is taken is taken once, by the current thread,
and interrupts are disabled; no interrupt comes and no thread is switched before all locks are
free; every lock that the current thread does not have is acquired at once; and a release does not
panic and puts IF back.  A page directory that is flushed under a lock can leave another thread in
the loop of `spinlock_acquire` for ever. -/
theorem spinlock_excludes {current : Nat} {ops : List CpuCall} {s : Cpu}
    (run : Run (Guarded Disciplined CpuStep) (.init current) ops s) :
    (∀ l, s.locks l ≠ 0 → s.locks l = 1 ∧ Holds s.stack l ∧ s.intf s.current = false ∧
      ∀ t ≠ s.current, ¬ Holds (s.frames t) l) ∧
    (∀ call t, CpuStep s call t → (call = .interrupt ∨ ∃ u, call = .switchTo u) →
      ∀ l, s.locks l = 0) ∧
    (∀ l, ¬ Holds s.stack l → ∃ t, spinlockAcquire l s = .ok (s.intf s.current, t)) ∧
    (∀ l ifState rest, s.stack = .locked l ifState :: rest →
      ∃ t, spinlockRelease l ifState s = .ok t ∧ t.intf s.current = ifState) ∧
    ∀ l, Holds s.stack l → ∀ u ≠ s.current,
      ∃ t, Run CpuStep s [.flushPagedir, .interrupt, .switchTo u, .iret] t ∧ t.current = u ∧
        ¬ Holds t.stack l ∧ spinlockAcquire l t = .error .stuck := by
  have sound := sound_run run
  refine ⟨?_, ?_, ?_, ?_, ?_⟩
  · intro l taken
    have holds := sound.holds_of_taken taken
    have single := sound.single l
    exact ⟨by omega, holds, sound.disabled holds, fun t other => sound.others t other l⟩
  · intro call t step switches l
    exact sound.free_of_switch step switches
  · intro l fresh
    exact ⟨_, sound.acquire_eq fresh⟩
  · intro l ifState rest top
    refine ⟨_, sound.release_eq top, ?_⟩
    have disabled : s.intf s.current = false := sound.disabled (l := l) (by simp [top])
    cases ifState <;> simp [disabled]
  · intro l holds u other
    exact sound.spins holds other

/-- Thread 0 is interrupted between two sections and thread 1 takes the lock; thread 0 would be left
in the loop if the page directory were flushed now. -/
theorem spinlock_excludes_two :
    ∃ s, s.current = 1 ∧ s.locks 5 = 1 ∧ ∃ t, t.current = 0 ∧
      Run CpuStep s [.flushPagedir, .interrupt, .switchTo 0, .iret] t ∧
      spinlockAcquire 5 t = .error .stuck := by
  have run : ∃ s, Run (Guarded Disciplined CpuStep) (.init 0)
      [.acquire 5, .release 5, .interrupt, .switchTo 1, .iret, .acquire 5] s ∧
      s.current = 1 ∧ s.locks 5 = 1 := by
    refine ⟨_, .cons ⟨?_, .acquire rfl⟩ (.cons ⟨trivial, .release rfl rfl⟩
      (.cons ⟨trivial, .interrupt rfl⟩ (.cons ⟨trivial, .switchTo rfl ?_⟩
        (.cons ⟨trivial, .iret rfl⟩ (.cons ⟨?_, .acquire rfl⟩ (.nil _)))))), rfl, rfl⟩
    · exact holds_nil
    · decide
    · exact holds_nil
  obtain ⟨s, run, isCurrent, taken⟩ := run
  obtain ⟨exclusive, -, -, -, spins⟩ := spinlock_excludes run
  obtain ⟨-, holds, -, -⟩ := exclusive 5 (by simp [taken])
  obtain ⟨t, later, switched, -, stuck⟩ := spins 5 holds 0 (by simp [isCurrent])
  exact ⟨s, isCurrent, taken, t, switched, later, stuck⟩

end Antonix.Spinlock
