import Mathlib.Data.List.Induction
import Mathlib.Data.List.Perm.Subperm
import Mathlib.Logic.Function.Basic
import Antonix.Types
import Antonix.Lib.Transition

/-! # Events (`syncobjs.c`)

The spinlock makes `event_signal` one step and the read-and-reset of a waiter
another.  What a waiter does next depends on the state that it read and on the
clock, which may show anything. -/

namespace Antonix.Event

open Function Transition

/-- `EVENT_FLAG_AUTORESET` -/
abbrev flagAutoreset : Nat := 0x01

/-- `EVENT_STATE_UNSIGNALED` -/
abbrev stateUnsignaled : Nat := 0x00

/-- `K_EVENT` -/
structure KEvent where
  state : Nat
  autoreset : Bool

/-- `event_create` -/
def eventCreate (flags : Nat) : KEvent where
  state := 0
  autoreset := flags = flagAutoreset

/-- `event_signal` -/
def eventSignal (e : KEvent) : KEvent :=
  { e with state := u32 (e.state + 1) }

/-- What a waiter does while it holds the spinlock; it keeps the state that it read. -/
def eventPoll (e : KEvent) : Nat × KEvent :=
  if e.state ≠ stateUnsignaled ∧ e.autoreset then
    (e.state, { e with state := stateUnsignaled })
  else (e.state, e)

/-- What a waiter does with the state that it read, when the clock shows `now`: it returns, or
yields and goes round again. -/
def eventWaitforDecide (initialTime timeout state now : Nat) : Option HResult :=
  -- the start time is a `uint32_t`, but the clock and the difference are `uint64_t`
  if state = stateUnsignaled ∧ sub64 now initialTime ≥ timeout then some .eTimedOut
  else if state = stateUnsignaled then none
  else some .sOk

/-! ## Waiters -/

/-- Where a thread is in `event_waitfor`. -/
inductive Wait where
  | outside
  | polling (initialTime timeout : Nat)
  | decided (initialTime timeout state : Nat)

/-- An event and the threads that may wait for it. -/
structure System where
  event : KEvent
  waits : Nat → Wait

/-- The steps by their kind; `w` is the thread that takes it. -/
inductive EventOp where
  | signal
  | call (w : Nat)
  | poll (w state : Nat)
  | again (w : Nat)
  | leave (w : Nat) (hr : HResult)
  deriving DecidableEq

inductive Step (s : System) : EventOp → System → Prop
  | signal : Step s .signal { s with event := eventSignal s.event }
  | call {w : Nat} (timeout now : Nat) (outside : s.waits w = .outside) :
      Step s (.call w) { s with waits := update s.waits w (.polling now timeout) }
  | poll {w initialTime timeout : Nat} (polling : s.waits w = .polling initialTime timeout) :
      Step s (.poll w (eventPoll s.event).1)
        { event := (eventPoll s.event).2
          waits := update s.waits w (.decided initialTime timeout (eventPoll s.event).1) }
  | again {w initialTime timeout state : Nat} (now : Nat)
      (decided : s.waits w = .decided initialTime timeout state)
      (waiting : eventWaitforDecide initialTime timeout state now = none) :
      Step s (.again w) { s with waits := update s.waits w (.polling initialTime timeout) }
  | leave {w initialTime timeout state : Nat} {hr : HResult} (now : Nat)
      (decided : s.waits w = .decided initialTime timeout state)
      (returned : eventWaitforDecide initialTime timeout state now = some hr) :
      Step s (.leave w hr) { s with waits := update s.waits w .outside }

/-- A new auto-reset event that nobody waits for. -/
def created : System where
  event := eventCreate flagAutoreset
  waits := fun _ => .outside

/-! ## What a run has done -/

def EventOp.isPoll : EventOp → Bool
  | .poll _ _ => true
  | _ => false

/-- The number of signals since the last poll, one operation later. -/
def sinceStep (since : Nat) : EventOp → Nat
  | .signal => since + 1
  | .poll _ _ => 0
  | _ => since

/-- The number of signals since the last poll. -/
def signalsSince (ops : List EventOp) : Nat := ops.foldl sinceStep 0

/-- The thread whose call returns `S_OK`. -/
def EventOp.released : EventOp → Option Nat
  | .leave w .sOk => some w
  | _ => none

/-- The thread that reads a signal. -/
def EventOp.served : EventOp → Option Nat
  | .poll w (_ + 1) => some w
  | _ => none

/-- A thread has read a signal and has not returned yet. -/
def Wait.served : Wait → Nat
  | .decided _ _ (_ + 1) => 1
  | _ => 0

/-- The last call of `w` is under way; its polls have read nothing, or `state`. -/
def InCall (w state : Nat) (ops : List EventOp) : Prop :=
  ∃ before since, ops = before ++ .call w :: since ∧ .call w ∉ since ∧
    ∀ read, .poll w read ∈ since → read = stateUnsignaled ∨ read = state

section

variable {s t : System} {ops : List EventOp} {op : EventOp} {w state : Nat}

@[simp] theorem signalsSince_concat :
    signalsSince (ops ++ [op]) = sinceStep (signalsSince ops) op := by
  simp [signalsSince]

/-- The state counts the signals since the last poll, modulo `2 ^ 32`. -/
theorem state_eq (run : Run Step created ops t) :
    t.event.autoreset = true ∧ t.event.state = u32 (signalsSince ops) := by
  apply run.history fun ops t => t.event.autoreset = true ∧ t.event.state = u32 (signalsSince ops)
  · exact ⟨rfl, rfl⟩
  · rintro past s op t ⟨auto, count⟩ step
    rw [signalsSince_concat]
    cases step with
    | signal =>
      refine ⟨auto, ?_⟩
      simp only [eventSignal, sinceStep, count, u32_add_left]
    | poll polling =>
      -- what is left is zero, because it was reset or because it was zero before
      simp only [eventPoll, sinceStep]
      split
      · exact ⟨auto, rfl⟩
      · rename_i nothing
        refine ⟨auto, ?_⟩
        have zero : s.event.state = 0 := by simpa [auto] using nothing
        exact zero
    | call timeout now outside => exact ⟨auto, count⟩
    | again now decided waiting => exact ⟨auto, count⟩
    | leave now decided returned => exact ⟨auto, count⟩

/-- If there were signals since the last poll, one of them has no poll behind it. -/
theorem exists_signal_of_since (some : signalsSince ops ≠ 0) :
    ∃ before after, ops = before ++ .signal :: after ∧ ∀ op ∈ after, op.isPoll = false := by
  induction ops using List.reverseRecOn with
  | nil => contradiction
  | append_singleton ops op inductionHypothesis =>
    rw [signalsSince_concat] at some
    by_cases isSignal : op = .signal
    · subst isSignal
      exact ⟨ops, [], rfl, by simp⟩
    · -- a poll would have left no signal behind, so this operation is none
      have quiet : op.isPoll = false ∧ signalsSince ops ≠ 0 := by
        cases op <;> simp_all [sinceStep, EventOp.isPoll]
      obtain ⟨before, after, split, noPoll⟩ := inductionHypothesis quiet.2
      refine ⟨before, after ++ [op], by simp [split], ?_⟩
      intro op' member
      cases List.mem_append.mp member with
      | inl earlier => exact noPoll op' earlier
      | inr last =>
        rw [List.mem_singleton.mp last]
        exact quiet.1

/-- Only a state that was read as signaled lets a call return `S_OK`. -/
theorem decide_eq_sOk {initialTime timeout now : Nat} :
    eventWaitforDecide initialTime timeout state now = some .sOk ↔ state ≠ 0 := by
  unfold eventWaitforDecide
  by_cases zero : state = stateUnsignaled
  · simp [zero]
  · simp [zero]

theorem state_of_timedOut {initialTime timeout now : Nat}
    (returned : eventWaitforDecide initialTime timeout state now = some .eTimedOut) :
    state = 0 := by
  by_contra some
  rw [decide_eq_sOk.mpr some] at returned
  contradiction

/-- A thread that has read a signal returns `S_OK` once for it. -/
theorem served_step (step : Step s op t) (w : Nat) :
    (s.waits w).served + (if decide (op.served = some w) then 1 else 0) =
      (if decide (op.released = some w) then 1 else 0) + (t.waits w).served := by
  cases step with
  | signal => simp [EventOp.served, EventOp.released]
  | @call w' timeout now outside =>
    by_cases same : w = w'
    · subst same
      simp [EventOp.served, EventOp.released, outside, Wait.served]
    · simp [EventOp.served, EventOp.released, same]
  | @poll w' initialTime timeout polling =>
    by_cases same : w = w'
    · subst same
      cases read : (eventPoll s.event).1 <;>
        simp [EventOp.served, EventOp.released, polling, Wait.served]
    · cases read : (eventPoll s.event).1 <;>
        simp [EventOp.served, EventOp.released, same, Ne.symm same]
  | @again w' initialTime timeout state now decided waiting =>
    -- only a thread that has read nothing goes round again
    have zero : state = 0 := by
      by_contra some
      rw [decide_eq_sOk.mpr some] at waiting
      contradiction
    by_cases same : w = w'
    · subst same
      simp [EventOp.served, EventOp.released, decided, Wait.served, zero]
    · simp [EventOp.served, EventOp.released, same]
  | @leave w' initialTime timeout state hr now decided returned =>
    by_cases same : w = w'
    · subst same
      cases state with
      | zero =>
        have late : hr ≠ .sOk := by
          rintro rfl
          exact decide_eq_sOk.mp returned rfl
        have notReleased : (EventOp.leave w hr).released = none := by
          cases hr <;> first | rfl | contradiction
        simp [EventOp.served, notReleased, decided, Wait.served]
      | succ state =>
        rw [decide_eq_sOk.mpr (Nat.succ_ne_zero state)] at returned
        obtain rfl := Option.some.inj returned
        simp [EventOp.served, EventOp.released, decided, Wait.served]
    · have other : (EventOp.leave w' hr).released ≠ some w := by
        cases hr <;> simp [EventOp.released, Ne.symm same]
      simp [EventOp.served, other, same]

/-- Whoever has returned `S_OK` has read a signal for it. -/
theorem released_le_served (run : Run Step created ops t) (w : Nat) :
    ops.countP (fun op => op.released = some w) ≤ ops.countP (fun op => op.served = some w) := by
  have balance := run.balance (fun op => decide (op.served = some w))
    (fun op => decide (op.released = some w)) (fun s => (s.waits w).served)
    fun _ _ _ step => served_step step w
  have start : (created.waits w).served = 0 := rfl
  omega

/-- As many calls have returned `S_OK` as have read a signal, or fewer. -/
theorem countP_released_le (run : Run Step created ops t) :
    ops.countP (fun op => op.released.isSome) ≤ ops.countP (fun op => op.served.isSome) := by
  -- the threads released are a part of the threads served, with their multiplicities
  rw [← List.length_filterMap_eq_countP, ← List.length_filterMap_eq_countP]
  apply List.Subperm.length_le
  apply List.subperm_ext_iff.mpr
  intro w _
  rw [List.count_filterMap, List.count_filterMap]
  simpa only [Bool.beq_eq_decide_eq] using released_le_served run w

theorem served_step_le (step : Step s op t) (auto : s.event.autoreset = true) :
    (if op.served.isSome then 1 else 0) + (if t.event.state = 0 then 0 else 1) ≤
      (if s.event.state = 0 then 0 else 1) + (if decide (op = .signal) then 1 else 0) ∧
    t.event.autoreset = true := by
  cases step with
  | signal =>
    refine ⟨?_, auto⟩
    simp only [EventOp.served, Option.isSome_none, Bool.false_eq_true, decide_true, if_false,
      if_true]
    split <;> split <;> omega
  | poll polling =>
    by_cases zero : s.event.state = 0
    · simp [eventPoll, zero, EventOp.served, auto]
    · obtain ⟨n, succ⟩ := Nat.exists_eq_succ_of_ne_zero zero
      simp [eventPoll, succ, EventOp.served, auto]
  | call timeout now outside => simp [EventOp.served, auto]
  | again now decided waiting => simp [EventOp.served, auto]
  | leave now decided returned => simp [EventOp.served, auto]

/-- Every read of a signal takes all signals before it away, so there is one for each. -/
theorem served_le_signals (run : Run Step s ops t) (auto : s.event.autoreset = true) :
    ops.countP (fun op => op.served.isSome) + (if t.event.state = 0 then 0 else 1) ≤
      (if s.event.state = 0 then 0 else 1) + ops.countP (· = .signal) := by
  induction run with
  | nil => simp
  | cons step _ inductionHypothesis =>
    obtain ⟨here, auto'⟩ := served_step_le step auto
    have later := inductionHypothesis auto'
    simp only [List.countP_cons]
    omega

/-! ## The calls of one thread -/

theorem InCall.concat (inCall : InCall w state ops) (notCall : op ≠ .call w)
    (read : ∀ read, op = .poll w read → read = stateUnsignaled ∨ read = state) :
    InCall w state (ops ++ [op]) := by
  obtain ⟨before, since, split, noCall, reads⟩ := inCall
  refine ⟨before, since ++ [op], by simp [split], ?_, ?_⟩
  · simp only [List.mem_append, List.mem_singleton, not_or]
    exact ⟨noCall, Ne.symm notCall⟩
  · intro value member
    cases List.mem_append.mp member with
    | inl earlier => exact reads value earlier
    | inr last => exact read value (List.mem_singleton.mp last).symm

/-- What a thread inside `event_waitfor` has read so far. -/
def Reads (ops : List EventOp) (s : System) (w : Nat) : Prop :=
  match s.waits w with
  | .outside => True
  | .polling _ _ => InCall w stateUnsignaled ops
  | .decided _ _ state => InCall w state ops

theorem Reads.concat (reads : Reads ops s w) (same : t.waits w = s.waits w)
    (notCall : op ≠ .call w) (notPoll : ∀ read, op ≠ .poll w read) : Reads (ops ++ [op]) t w := by
  unfold Reads at *
  rw [same]
  cases place : s.waits w with
  | outside => trivial
  | polling initialTime timeout =>
    rw [place] at reads
    exact reads.concat notCall fun read is => absurd is (notPoll read)
  | decided initialTime timeout state =>
    rw [place] at reads
    exact reads.concat notCall fun read is => absurd is (notPoll read)

theorem reads_run (run : Run Step created ops t) (w : Nat) : Reads ops t w := by
  apply run.history fun ops t => Reads ops t w
  · exact trivial
  · intro past s op t reads step
    cases step with
    | signal => exact reads.concat rfl (by simp) (by simp)
    | @call w' timeout now outside =>
      by_cases same : w' = w
      · subst same
        simp only [Reads, update_self]
        exact ⟨past, [], rfl, by simp, by simp⟩
      · exact reads.concat (update_of_ne (Ne.symm same) _ _) (by simpa using same) (by simp)
    | @poll w' initialTime timeout polling =>
      by_cases same : w' = w
      · subst same
        simp only [Reads, polling] at reads
        simp only [Reads, update_self]
        -- the polls before have read nothing
        have wider : InCall w' (eventPoll s.event).1 past := by
          obtain ⟨before, since, split, noCall, zeros⟩ := reads
          exact ⟨before, since, split, noCall, fun read member =>
            .inl ((zeros read member).elim id id)⟩
        exact wider.concat (by simp) (by simp)
      · exact reads.concat (update_of_ne (Ne.symm same) _ _) (by simp) (by simp [same])
    | @again w' initialTime timeout state now decided waiting =>
      by_cases same : w' = w
      · subst same
        have zero : state = stateUnsignaled := by
          by_contra some
          rw [decide_eq_sOk.mpr some] at waiting
          contradiction
        simp only [Reads, decided, zero] at reads
        simp only [Reads, update_self]
        exact reads.concat (by simp) (by simp)
      · exact reads.concat (update_of_ne (Ne.symm same) _ _) (by simp) (by simp)
    | @leave w' initialTime timeout state hr now decided returned =>
      by_cases same : w' = w
      · subst same
        simp only [Reads, update_self]
      · exact reads.concat (update_of_ne (Ne.symm same) _ _) (by simp) (by simp)

/-! ## The accounts of a run -/

/-- A thread that reads a signal has one for itself: no poll lies between the two. -/
theorem exists_signal_of_poll {after : List EventOp}
    (run : Run Step created (ops ++ .poll w state :: after) t) (some : state ≠ 0) :
    ∃ before between, ops = before ++ .signal :: between ∧
      ∀ op ∈ between, op.isPoll = false := by
  obtain ⟨middle, past, rest⟩ := run.split
  cases rest with
  | cons step _ =>
    cases step with
    | poll polling =>
      apply exists_signal_of_since
      intro zero
      have count := (state_eq past).2
      rw [zero] at count
      apply some
      simp only [eventPoll]
      split <;> exact count

/-- A call that times out has read nothing. -/
theorem reads_of_timedOut {after : List EventOp}
    (run : Run Step created (ops ++ .leave w .eTimedOut :: after) t) :
    InCall w stateUnsignaled ops := by
  obtain ⟨middle, past, rest⟩ := run.split
  cases rest with
  | cons step _ =>
    cases step with
    | leave now decided returned =>
      have reads := reads_run past w
      simp only [Reads, decided, state_of_timedOut returned] at reads
      exact reads

/-- A poll that reads nothing leaves the event alone. -/
theorem event_of_poll_zero (step : Step s (.poll w 0) t) : t.event = s.event := by
  generalize label : EventOp.poll w 0 = op at step
  cases step with
  | poll polling =>
    obtain ⟨-, read⟩ := EventOp.poll.inj label
    simp only [eventPoll] at read ⊢
    split
    · rename_i signaled
      rw [if_pos signaled] at read
      exact absurd read.symm signaled.1
    · rfl
  | _ => contradiction

/-- A poll reads the number of signals since the last one, modulo `2 ^ 32`. -/
theorem poll_reads (run : Run Step created ops s) (step : Step s (.poll w state) t) :
    state = u32 (signalsSince ops) := by
  rw [← (state_eq run).2]
  cases step with
  | poll polling =>
    simp only [eventPoll]
    split <;> rfl

end

/-- After any steps on an auto-reset event by any number of threads: no more calls have returned
`S_OK` than there were signals; each read of a signal has a signal of its own, and a call returns
`S_OK` for one read; a call that times out has read nothing, and reading nothing changes nothing;
if there was a signal since the last poll, and fewer than `2 ^ 32`, the next poll lets its call
return `S_OK`. -/
theorem event_accounts {ops : List EventOp} {s : System} (run : Run Step created ops s) :
    ops.countP (fun op => op.released.isSome) ≤ ops.countP (· = .signal) ∧
    (∀ before w state after, ops = before ++ .poll w state :: after → state ≠ 0 →
      ∃ first between, before = first ++ .signal :: between ∧
        ∀ op ∈ between, op.isPoll = false) ∧
    (∀ w, ops.countP (fun op => op.released = some w) ≤
      ops.countP (fun op => op.served = some w)) ∧
    (∀ before w after, ops = before ++ .leave w .eTimedOut :: after →
      InCall w stateUnsignaled before) ∧
    (∀ w t, Step s (.poll w 0) t → t.event = s.event) ∧
    (0 < signalsSince ops → signalsSince ops < 2 ^ 32 → ∀ w state t, Step s (.poll w state) t →
      ∀ initialTime timeout now,
        eventWaitforDecide initialTime timeout state now = some .sOk) := by
  refine ⟨?_, ?_, released_le_served run, ?_, fun _ _ => event_of_poll_zero, ?_⟩
  · have reads := countP_released_le run
    have signals := served_le_signals run rfl
    have none : created.event.state = 0 := rfl
    rw [if_pos none] at signals
    omega
  · intro before w state after split some
    subst split
    exact exists_signal_of_poll run some
  · intro before w after split
    subst split
    exact reads_of_timedOut run
  · intro more fewer w state t step initialTime timeout now
    apply decide_eq_sOk.mpr
    rw [poll_reads run step, u32_of_lt fewer]
    exact Nat.ne_of_gt more

/-- Two signals release one of two waiters; the other one times out. -/
theorem event_accounts_two :
    [EventOp.call 0, .call 1, .signal, .signal, .poll 0 2, .leave 0 .sOk, .poll 1 0,
      .leave 1 .eTimedOut].countP (fun op => op.released.isSome) ≤ 2 := by
  have run : Run Step created [.call 0, .call 1, .signal, .signal, .poll 0 2, .leave 0 .sOk,
      .poll 1 0, .leave 1 .eTimedOut] _ :=
    .cons (.call 9 5 rfl) (.cons (.call 9 5 rfl) (.cons .signal (.cons .signal
      (.cons (.poll rfl) (.cons (.leave 6 rfl rfl) (.cons (.poll rfl)
        (.cons (.leave 14 rfl rfl) (.nil _))))))))
  exact (event_accounts run).1

/-- Signals can always be made. -/
theorem exists_signals (n : Nat) (s : System) :
    ∃ t, Run Step s (List.replicate n .signal) t ∧ t.waits = s.waits := by
  induction n generalizing s with
  | zero => exact ⟨s, .nil s, rfl⟩
  | succ n inductionHypothesis =>
    obtain ⟨t, run, waits⟩ := inductionHypothesis { s with event := eventSignal s.event }
    exact ⟨t, .cons .signal run, waits⟩

theorem foldl_replicate_signal (n since : Nat) :
    (List.replicate n .signal).foldl sinceStep since = since + n := by
  induction n generalizing since with
  | zero => rfl
  | succ n inductionHypothesis =>
    rw [List.replicate_succ, List.foldl_cons, inductionHypothesis, sinceStep]
    omega

/-- A signal with fewer than `2 ^ 32` further signals behind it can be lost: the last of `2 ^ 32`
signals takes the state round to zero. -/
theorem event_signal_lost :
    ¬ ∀ (before after : List EventOp) s w state t, Run Step created (before ++ .signal :: after) s →
      (∀ op ∈ after, op.isPoll = false) → after.countP (· = .signal) < 2 ^ 32 →
      Step s (.poll w state) t → state ≠ 0 := by
  intro kept
  obtain ⟨n, all⟩ : ∃ n, n + 1 = 2 ^ 32 := ⟨2 ^ 32 - 1, rfl⟩
  obtain ⟨s, run, waits⟩ := exists_signals (n + 1)
    { created with waits := update created.waits 0 (.polling 0 0) }
  have whole : Run Step created ([.call 0] ++ .signal :: List.replicate n .signal) s :=
    .cons (.call 0 0 rfl) run
  have polling : s.waits 0 = .polling 0 0 := by
    simp only [waits, update_self]
  have since : signalsSince ([.call 0] ++ .signal :: List.replicate n .signal) = 2 ^ 32 := by
    change ((List.replicate n .signal).foldl sinceStep 1) = 2 ^ 32
    rw [foldl_replicate_signal, Nat.add_comm, all]
  have lost : (eventPoll s.event).1 = 0 := by
    rw [poll_reads whole (.poll polling), since]
    rfl
  refine kept _ (List.replicate n .signal) s 0 _ _ whole ?_ ?_ (.poll polling) lost
  · intro op member
    rw [List.eq_of_mem_replicate member]
    rfl
  · calc (List.replicate n EventOp.signal).countP (· = EventOp.signal)
        ≤ (List.replicate n EventOp.signal).length := List.countP_le_length
      _ = n := List.length_replicate
      _ < 2 ^ 32 := by omega

end Antonix.Event
