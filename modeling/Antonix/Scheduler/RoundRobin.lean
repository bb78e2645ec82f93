import Mathlib.Data.List.Induction
import Antonix.Scheduler.RunQueue

/-! # A round of the scheduler

A tick puts the current thread at the end of the run queue and takes the first one
out.  The thread that is taken out keeps its link, so that a round of ticks writes
the links of all threads and leaves them as they were, but for that of the thread
that it started with. -/

namespace Antonix.Sched

open Chains Function Transition

/-- A call of `sched_update` that makes `t` the current thread. -/
def Tick (state : SchedState) (t : Nat) (state' : SchedState) : Prop :=
  schedUpdate state = .ok state' ∧ state'.current = some t

/-- Between ticks: `c` runs, the others wait in this order, and from `start` on only the links
of these threads have changed. -/
structure Rotating (start : SchedState) (c : Nat) (queue : List Nat) (state : SchedState) :
    Prop where
  enabled : state.schedEnabled = true
  current : state.current = some c
  chain : Chain state.next state.runQueue queue
  nodup : (c :: queue).Nodup
  short : queue.length ≤ 2 ^ 32
  others : ∃ next runQueue current, state = { start.setNext next with runQueue, current } ∧
    ∀ x ∉ c :: queue, next x = start.next x

section

variable {start state : SchedState} {c first last : Nat} {queue waiting before : List Nat}

theorem schedUpdate_eq {next : Nat → Option Nat} (enabled : state.schedEnabled = true)
    (current : state.current = some c) (head : state.runQueue = some first) (differ : c ≠ first)
    (appended : appendThread state.next first c = .ok next) :
    schedUpdate state =
      .ok { state.setNext next with runQueue := next first, current := some first } := by
  have other : ¬ state.current = some first := by
    rw [current]
    exact fun same => differ (Option.some.inj same)
  have switched : schedSwitchToThread { state.setNext next with runQueue := next first } first =
      .ok { state.setNext next with runQueue := next first, current := some first } := if_neg other
  rw [schedUpdate, if_neg (by simp [enabled]), head, current]
  simp only [appended, bind, Except.bind]
  exact switched

/-- One tick: the first thread of the queue takes the place of the current one. -/
theorem Rotating.tick (rotating : Rotating start c (first :: waiting) state) :
    ∃ state', Tick state first state' ∧ Rotating start first (waiting ++ [c]) state' ∧
      state'.runQueue = state'.next first := by
  have outside : c ∉ first :: waiting := (List.nodup_cons.mp rotating.nodup).1
  have head : state.runQueue = some first := by
    have chain := rotating.chain
    generalize state.runQueue = head at chain
    cases chain with
    | cons _ => rfl
  have chain := rotating.chain
  rw [head] at chain
  obtain ⟨next, appended, chain', kept⟩ :=
    appendThread_new chain (List.nodup_cons.mp rotating.nodup).2 rotating.short outside
  have differ : c ≠ first := fun same => outside (same ▸ List.mem_cons_self)
  have ticked := schedUpdate_eq rotating.enabled rotating.current head differ appended
  have tail : Chain next (next first) (waiting ++ [c]) := by
    cases chain' with
    | cons tail => exact tail
  have perm : (c :: first :: waiting).Perm (first :: (waiting ++ [c])) :=
    (List.perm_append_singleton c (first :: waiting)).symm
  refine ⟨_, ⟨ticked, rfl⟩, ?_, rfl⟩
  exact {
    enabled := rotating.enabled
    current := rfl
    chain := tail
    nodup := perm.nodup_iff.mp rotating.nodup
    short := by simpa using rotating.short
    others := by
      obtain ⟨next₀, runQueue, current, rfl, kept₀⟩ := rotating.others
      refine ⟨next, _, _, rfl, fun x elsewhere => ?_⟩
      rw [← perm.mem_iff] at elsewhere
      obtain ⟨notCurrent, notQueued⟩ := not_or.mp (mt List.mem_cons.mpr elsewhere)
      exact (kept x notQueued notCurrent).trans (kept₀ x elsewhere) }

/-- The threads of the queue run one after the other, up to the one that is named last. -/
theorem Rotating.ticks (rotating : Rotating start c (before ++ last :: waiting) state) :
    ∃ state', Run Tick state (before ++ [last]) state' ∧
      Rotating start last (waiting ++ c :: before) state' := by
  induction before using List.reverseRecOn generalizing last waiting with
  | nil =>
    obtain ⟨state', ticked, rotated, -⟩ := rotating.tick
    exact ⟨state', .single ticked, rotated⟩
  | append_singleton before y inductionHypothesis =>
    rw [List.append_assoc, List.singleton_append] at rotating
    obtain ⟨middle, run, rotated⟩ := inductionHypothesis rotating
    rw [List.cons_append] at rotated
    obtain ⟨state', ticked, rotated', -⟩ := rotated.tick
    refine ⟨state', run.append (.single ticked), ?_⟩
    rwa [List.append_assoc, List.cons_append] at rotated'

/-- After a round of ticks only the link of the current thread may have changed. -/
theorem Rotating.round (rotating : Rotating state c queue state) (nonempty : queue ≠ []) :
    ∃ state', Run Tick state (queue ++ [c]) state' ∧ Chain state'.next state'.runQueue queue ∧
      state'.current = state.current ∧
      state' = state.setNext (update state.next c state.runQueue) := by
  obtain ⟨before, last, rfl⟩ := (List.eq_nil_or_concat' queue).resolve_left nonempty
  obtain ⟨middle, run, rotated⟩ := rotating.ticks
  obtain ⟨state', ticked, again, linked⟩ := rotated.tick
  obtain ⟨next, runQueue, current, rfl, kept⟩ := again.others
  obtain ⟨head, links⟩ := rotating.chain.links_eq again.chain
  have isHead : runQueue = state.runQueue := head
  have isCurrent : current = state.current := again.current.trans rotating.current.symm
  have whole : next = update state.next c state.runQueue := by
    funext x
    by_cases isC : x = c
    · rw [isC, update_self, ← isHead]
      exact linked.symm
    · rw [update_of_ne isC]
      by_cases queued : x ∈ before ++ [last]
      · exact links x queued
      · exact kept x (by simpa [isC] using queued)
  refine ⟨_, run.append (.single ticked), again.chain, isCurrent, ?_⟩
  rw [isHead, isCurrent, whole]
  rfl

end

/-- For every run queue of `k ≥ 1` distinct threads (their addresses have 32 bits) and every
current thread that is not in it: `k + 1` ticks make the threads of the queue current in their
order, and then the thread that was; the queue and the current thread are as at the start, and
nothing has changed but the link of the current thread, which is in no queue. -/
theorem schedUpdate_round_robin {state : SchedState} {queue : List Nat} {c : Nat}
    (enabled : state.schedEnabled = true) (chain : Chain state.next state.runQueue queue)
    (nonempty : queue ≠ []) (nodup : queue.Nodup) (small : ∀ t ∈ queue, t < 2 ^ 32)
    (current : state.current = some c) (outside : c ∉ queue) :
    ∃ state', Run Tick state (queue ++ [c]) state' ∧ (queue ++ [c]).Nodup ∧
      Chain state'.next state'.runQueue queue ∧ state'.current = state.current ∧
      state' = state.setNext (update state.next c state.runQueue) := by
  have distinct : (c :: queue).Nodup := List.nodup_cons.mpr ⟨outside, nodup⟩
  have rotating : Rotating state c queue state :=
    { enabled := enabled
      current := current
      chain := chain
      nodup := distinct
      short := length_le_of_nodup nodup small
      others := ⟨state.next, state.runQueue, state.current, rfl, fun _ _ => rfl⟩ }
  obtain ⟨state', run, round⟩ := rotating.round nonempty
  exact ⟨state', run, (List.perm_append_singleton c _).nodup_iff.mpr distinct, round⟩

/-- Two threads wait, and a third one runs. -/
def twoWaiting : SchedState where
  runQueue := some 16
  current := some 48
  schedEnabled := true
  threads t := ⟨1, if t = 16 then some 32 else none⟩
  procs _ := ⟨100, fun _ => 0, 0⟩
  processArray := [1]
  freePid := 101

theorem schedUpdate_round_robin_two :
    ∃ state', Run Tick twoWaiting ([16, 32] ++ [48]) state' ∧ ([16, 32] ++ [48]).Nodup ∧
      Chain state'.next state'.runQueue [16, 32] ∧ state'.current = twoWaiting.current ∧
      state' = twoWaiting.setNext (update twoWaiting.next 48 twoWaiting.runQueue) :=
  schedUpdate_round_robin rfl (.cons (.cons .nil)) (List.cons_ne_nil _ _) (by decide) (by decide)
    rfl (by decide)

/-! ## Rounds of the system -/

section

variable {state state' : SchedState} {t : Nat}

theorem schedAddThreadToRunQueue_enabled
    (returned : schedAddThreadToRunQueue state t = .ok state') :
    state'.schedEnabled = state.schedEnabled := by
  obtain ⟨next, runQueue, rfl⟩ := schedAddThreadToRunQueue_frame returned
  rfl

theorem schedCreateThread_enabled {proc : Option Nat} {hr : HResult}
    (returned : schedCreateThread state proc t = .ok (hr, state')) :
    state'.schedEnabled = state.schedEnabled := by
  rw [schedCreateThread] at returned
  cases initialized : schedInitThread state proc t with
  | error hr' =>
    rw [initialized] at returned
    rw [(eq_of_returned returned).2]
  | ok middle =>
    rw [initialized] at returned
    obtain ⟨queued, added, answered⟩ := exists_of_bind returned
    obtain ⟨-, rfl⟩ := eq_of_returned answered
    obtain ⟨owner, -, rfl⟩ := schedInitThread_eq initialized
    exact (schedAddThreadToRunQueue_enabled added).trans rfl

theorem schedCreateProcess_enabled {proc : Nat} {hr : HResult} {pid : Option Nat}
    (returned : schedCreateProcess state proc t = .ok (hr, pid, state')) :
    state'.schedEnabled = state.schedEnabled := by
  rw [schedCreateProcess] at returned
  split at returned
  · obtain ⟨-, same⟩ := eq_of_returned returned
    rw [(Prod.mk.inj same).2]
  · obtain ⟨⟨hr', middle⟩, created, stored⟩ := exists_of_bind returned
    have enabled := schedCreateThread_enabled created
    dsimp only at stored
    split at stored
    · obtain ⟨-, same⟩ := eq_of_returned stored
      rw [← (Prod.mk.inj same).2, enabled]
      rfl
    · obtain ⟨-, same⟩ := eq_of_returned stored
      rw [← (Prod.mk.inj same).2]
      exact enabled

theorem elfLoadBegin_enabled {proc : Nat} {found : Except HResult Nat}
    (returned : elfLoadBegin state proc t = .ok (found, state')) :
    state'.schedEnabled = state.schedEnabled := by
  obtain ⟨⟨hr, pid, middle⟩, created, loaded⟩ := exists_of_bind returned
  rw [← schedCreateProcess_enabled created]
  cases pid with
  | none => rw [(eq_of_returned loaded).2]
  | some pid =>
    dsimp only at loaded
    split at loaded
    · contradiction
    · rw [(eq_of_returned loaded).2]

end

section

variable {start s s' : System} {op : SchedOp} {ops : List SchedOp} {queue : List Nat} {c : Nat}

theorem SchedStep.enabled (step : SchedStep s op s') :
    s'.sched.schedEnabled = s.sched.schedEnabled := by
  cases step with
  | tick ticked =>
    obtain ⟨next, runQueue, current, rfl⟩ := schedUpdate_frame ticked
    rfl
  | initThread _ _ _ initialized =>
    obtain ⟨owner, -, rfl⟩ := schedInitThread_eq initialized
    rfl
  | queueThread _ _ added => exact schedAddThreadToRunQueue_enabled added
  | createProcess _ _ _ _ made => exact schedCreateProcess_enabled made
  | exitThread _ _ exited =>
    obtain ⟨procs, rfl⟩ := schedExitThread_frame exited
    rfl
  | elfLoadBegin _ _ _ _ loaded => exact elfLoadBegin_enabled loaded
  | elfLoadFinish _ _ finished => exact schedAddThreadToRunQueue_enabled finished

theorem System.Initial.enabled (initial : start.Initial) : start.sched.schedEnabled = true := by
  cases initial with
  | ready _ _ _ _ _ started =>
    obtain ⟨⟨hr, state₁⟩, -, started⟩ := exists_of_bind started
    dsimp only at started
    split at started
    · contradiction
    · obtain ⟨⟨hr', state₂⟩, -, stored⟩ := exists_of_bind started
      rw [← Except.ok.inj stored]

/-- No call switches the scheduler off. -/
theorem Run.schedEnabled (initial : start.Initial) (run : Run SchedStep start ops s) :
    s.sched.schedEnabled = true :=
  run.invariant (fun s => s.sched.schedEnabled = true)
    (fun _ _ _ enabled step => step.enabled.trans enabled) initial.enabled

theorem System.Sound.rotating (sound : s.Sound queue) (enabled : s.sched.schedEnabled = true)
    (here : s.sched.current = some c) : Rotating s.sched c queue s.sched where
  enabled := enabled
  current := here
  chain := sound.chain
  nodup := System.ring_eq here queue ▸ sound.nodup
  short := sound.short
  others := ⟨s.sched.next, s.sched.runQueue, s.sched.current, rfl, fun _ _ => rfl⟩

theorem Tick.steps {state : SchedState} (ticks : Run Tick s.sched queue state) :
    Run SchedStep s (queue.map fun _ => .tick) { s with sched := state } := by
  generalize begin : s.sched = first at ticks
  induction ticks generalizing s with
  | nil =>
    subst begin
    exact .nil s
  | cons taken _ inductionHypothesis =>
    subst begin
    exact .cons (.tick taken.1) (inductionHypothesis rfl)

/-- In every state that is reached with loads that end safely, in which a thread runs and others
wait: as many ticks as there are threads run each of them once and lead back to that state. -/
theorem sched_round_robin (initial : start.Initial)
    (run : Run (Guarded (fun s op => op = .elfLoadFinish → s.FinishesSafely) SchedStep) start ops s)
    (here : s.sched.current = some c) (waiting : s.sched.runQueue ≠ none) :
    ∃ threads s', Run Tick s.sched threads s'.sched ∧ threads.Nodup ∧
      (∀ t, t ∈ threads ↔ t ∈ s.created) ∧ Run SchedStep s (threads.map fun _ => .tick) s' ∧
      s' = { s with sched := s.sched.setNext (update s.sched.next c s.sched.runQueue) } := by
  obtain ⟨queue, sound⟩ := run_sound initial run
  have plain : Run SchedStep start ops s := run.mono fun _ _ _ guarded => guarded.2
  have rotating := sound.rotating (Run.schedEnabled initial plain) here
  have nonempty : queue ≠ [] := by
    rintro rfl
    have chain := sound.chain
    generalize s.sched.runQueue = head at chain waiting
    cases chain with
    | nil => exact waiting rfl
  obtain ⟨state', ticks, -, -, rfl⟩ := rotating.round nonempty
  have perm : (queue ++ [c]).Perm (s.ring queue) := by
    rw [System.ring_eq here]
    exact List.perm_append_singleton c queue
  exact ⟨queue ++ [c], _, ticks, perm.nodup_iff.mpr sound.nodup,
    fun t => perm.mem_iff.trans (sound.mem_ring t), Tick.steps ticks, rfl⟩

end

end Antonix.Sched
