import Antonix.SyncObjs.Event
import Antonix.Timer.Clock

/-! # Timeouts by the tick clock (`timer.c`, `event_waitfor` of `syncobjs.c`)

The machine of `Antonix.SyncObjs.Event` under a timer: between any two of its steps the timer may
interrupt, and whoever reads the clock reads what `timer_gettickcount` returns then.  Beside it
stand the tick counts at which the waits began, and the waits that have timed out. -/

namespace Antonix.Timer

open Function Transition Antonix.Event

/-- A call of `event_waitfor` that returned `E_TIMEDOUT`, with the tick counts around it. -/
structure TimedOut where
  entered : Nat
  left : Nat
  timeout : Nat

/-- The tick counter, an event with its waiters, and what has been noted about them. -/
structure Timed where
  ticks : Nat
  system : System
  entered : Nat → Nat
  timedOut : List TimedOut

/-- What the step of a waiter read from the clock. -/
def ReadsClock (now : Nat) (s t : System) : EventOp → Prop
  | .call w => ∃ timeout, t.waits w = .polling (u32 now) timeout
  | .again w => ∀ initialTime timeout state, s.waits w = .decided initialTime timeout state →
      eventWaitforDecide initialTime timeout state now = none
  | .leave w hr => ∀ initialTime timeout state, s.waits w = .decided initialTime timeout state →
      eventWaitforDecide initialTime timeout state now = some hr
  | .signal | .poll _ _ => True

/-- A call notes the tick count. -/
def enteredAfter (s : Timed) : EventOp → Nat → Nat
  | .call w => update s.entered w s.ticks
  | _ => s.entered

/-- A timeout is noted. -/
def timedOutAfter (s : Timed) : EventOp → List TimedOut
  | .leave w .eTimedOut =>
    match s.system.waits w with
    | .decided _ timeout _ => ⟨s.entered w, s.ticks, timeout⟩ :: s.timedOut
    | _ => s.timedOut
  | _ => s.timedOut

/-- An interrupt, below `2 ^ 54` ticks, or a step of the event and its waiters. -/
inductive TimedStep (rate : TimerRate) (s : Timed) : Option EventOp → Timed → Prop
  | tick (below : s.ticks + 1 < 2 ^ 54) :
      TimedStep rate s none { s with ticks := timerIrqHandler s.ticks }
  | event {op : EventOp} {t : System} (step : Event.Step s.system op t)
      (clock : ReadsClock (timerGettickcount rate s.ticks) s.system t op) :
      TimedStep rate s (some op)
        { s with system := t, entered := enteredAfter s op, timedOut := timedOutAfter s op }

/-- `timer_initialize`, and an event that nobody waits for. -/
def powerOn (flags : Nat) : Timed where
  ticks := 0
  system := { event := eventCreate flags, waits := fun _ => .outside }
  entered := fun _ => 0
  timedOut := []

/-- The clock has shown the milliseconds, never going back, and no wait has timed out before its
time. -/
structure KeepsTime (rate : TimerRate) (s : Timed) : Prop where
  shows : ∀ ticks ≤ s.ticks, timerGettickcount rate ticks = milliseconds rate ticks
  monotone : ∀ earlier later, earlier ≤ later → later ≤ s.ticks →
    timerGettickcount rate earlier ≤ timerGettickcount rate later
  waited : ∀ out ∈ s.timedOut,
    milliseconds rate out.entered + out.timeout ≤ milliseconds rate out.left

/-- The start time that a waiter keeps. -/
def startTime : Wait → Option Nat
  | .outside => none
  | .polling initialTime _ | .decided initialTime _ _ => some initialTime

/-- The waiters know the milliseconds at which they entered, and the waits that have timed out
were long enough. -/
structure Punctual (rate : TimerRate) (s : Timed) : Prop where
  entered : ∀ w, s.entered w ≤ s.ticks
  started : ∀ w initialTime, startTime (s.system.waits w) = some initialTime →
    initialTime = milliseconds rate (s.entered w)
  waited : ∀ out ∈ s.timedOut,
    milliseconds rate out.entered + out.timeout ≤ milliseconds rate out.left

section

variable {rate : TimerRate} {s t : Timed}

/-- A wait that times out by a clock that is right has lasted. -/
theorem waited_of_timedOut {entered ticks timeout state : Nat} (order : entered ≤ ticks)
    (right : timerGettickcount rate ticks = milliseconds rate ticks)
    (returned : eventWaitforDecide (milliseconds rate entered) timeout state
      (timerGettickcount rate ticks) = some .eTimedOut) :
    milliseconds rate entered + timeout ≤ milliseconds rate ticks := by
  have read : state = 0 := state_of_timedOut returned
  have later : timerGettickcount rate ticks < 2 ^ 32 := timerGettickcount_lt rate ticks
  have before : milliseconds rate entered ≤ milliseconds rate ticks := milliseconds_mono order
  rw [right] at returned later
  unfold eventWaitforDecide at returned
  by_cases elapsed : sub64 (milliseconds rate ticks) (milliseconds rate entered) ≥ timeout
  · rw [sub64_of_le before (by omega)] at elapsed
    omega
  · simp [read, elapsed] at returned

theorem startTime_update {w : Nat} {wait : Wait} (punctual : Punctual rate s)
    (same : startTime wait = none ∨ startTime wait = startTime (s.system.waits w)) (w' : Nat)
    {initialTime : Nat} (kept : startTime (update s.system.waits w wait w') = some initialTime) :
    initialTime = milliseconds rate (s.entered w') := by
  by_cases moved : w' = w
  · subst moved
    rw [update_self] at kept
    cases same with
    | inl none => simp [none] at kept
    | inr same => exact punctual.started w' initialTime (same ▸ kept)
  · rw [update_of_ne moved] at kept
    exact punctual.started w' initialTime kept

/-- The times that waiters keep are those at which they entered, after a step of one of them. -/
theorem Punctual.event {op : EventOp} {t : System} (punctual : Punctual rate s)
    (right : timerGettickcount rate s.ticks = milliseconds rate s.ticks)
    (step : Event.Step s.system op t)
    (clock : ReadsClock (timerGettickcount rate s.ticks) s.system t op) :
    Punctual rate
      { s with system := t, entered := enteredAfter s op, timedOut := timedOutAfter s op } := by
  cases step with
  | signal => exact ⟨punctual.entered, punctual.started, punctual.waited⟩
  | @call w timeout now outside =>
    obtain ⟨timeout', noted⟩ := clock
    dsimp only at noted
    rw [update_self] at noted
    injection noted with shown _
    rw [u32_of_lt (timerGettickcount_lt _ _), right] at shown
    refine ⟨?_, ?_, punctual.waited⟩
    · intro w'
      by_cases same : w' = w
      · simp [enteredAfter, same]
      · simp [enteredAfter, same, punctual.entered w']
    · intro w' initialTime kept
      by_cases same : w' = w
      · subst same
        simp only [update_self, startTime, Option.some.injEq] at kept
        simp only [enteredAfter, update_self]
        rw [← kept, shown]
      · simp only [update_of_ne same] at kept
        simp only [enteredAfter, update_of_ne same]
        exact punctual.started w' initialTime kept
  | @poll w initialTime timeout polling =>
    refine ⟨punctual.entered, fun w' initialTime' kept => ?_, punctual.waited⟩
    exact startTime_update punctual (.inr (by rw [polling]; rfl)) w' kept
  | @again w initialTime timeout state now decided waiting =>
    refine ⟨punctual.entered, fun w' initialTime' kept => ?_, punctual.waited⟩
    exact startTime_update punctual (.inr (by rw [decided]; rfl)) w' kept
  | @leave w initialTime timeout state hr now decided returned =>
    refine ⟨punctual.entered, fun w' initialTime' kept => ?_, ?_⟩
    · exact startTime_update punctual (.inl rfl) w' kept
    · intro out member
      by_cases late : hr = .eTimedOut
      · subst late
        simp only [timedOutAfter, decided, List.mem_cons] at member
        cases member with
        | inl new =>
          -- the wait that ends with this step
          have start := punctual.started w initialTime (by rw [decided]; rfl)
          have shown := clock initialTime timeout state decided
          rw [start] at shown
          rw [new]
          exact waited_of_timedOut (punctual.entered w) right shown
        | inr old => exact punctual.waited out old
      · have same : timedOutAfter s (.leave w hr) = s.timedOut := by
          cases hr <;> first | rfl | contradiction
        rw [same] at member
        exact punctual.waited out member

/-- The ticks stay in their bound, and until the clock fails the waiters are punctual. -/
theorem punctual_step {op : Option EventOp}
    (before : s.ticks < 2 ^ 54 ∧ (1000 * s.ticks < 2 ^ 32 → Punctual rate s))
    (step : TimedStep rate s op t) :
    t.ticks < 2 ^ 54 ∧ (1000 * t.ticks < 2 ^ 32 → Punctual rate t) := by
  obtain ⟨small, punctual⟩ := before
  cases step with
  | tick below =>
    dsimp only
    rw [timerIrqHandler_of_small small]
    refine ⟨below, fun early => ?_⟩
    have good := punctual (by omega)
    refine ⟨fun w => ?_, good.started, good.waited⟩
    have entered := good.entered w
    dsimp only
    omega
  | event step clock =>
    refine ⟨small, fun early => ?_⟩
    exact (punctual early).event ((timerGettickcount_eq_iff small).mpr early) step clock

theorem powerOn_punctual (rate : TimerRate) (flags : Nat) : Punctual rate (powerOn flags) where
  entered := fun _ => Nat.zero_le _
  started := by
    intro w initialTime kept
    contradiction
  waited := by
    intro out member
    contradiction

/-- Every run counts below `2 ^ 54`, and until the clock fails the waiters are punctual. -/
theorem punctual_of_run {flags : Nat} {ops : List (Option EventOp)}
    (run : Run (TimedStep rate) (powerOn flags) ops s) :
    s.ticks < 2 ^ 54 ∧ (1000 * s.ticks < 2 ^ 32 → Punctual rate s) :=
  run.invariant (fun s => s.ticks < 2 ^ 54 ∧ (1000 * s.ticks < 2 ^ 32 → Punctual rate s))
    (fun _ _ _ before step => punctual_step before step)
    ⟨Nat.two_pow_pos 54, fun _ => powerOn_punctual rate flags⟩

end

/-- The clock and the timeouts are right in every run that stops before the thousandfold of the
tick count fills 32 bits, and in no other. -/
theorem keepsTime_iff {rate : TimerRate} {flags : Nat} {ops : List (Option EventOp)} {s : Timed}
    (run : Run (TimedStep rate) (powerOn flags) ops s) :
    KeepsTime rate s ↔ 1000 * s.ticks < 2 ^ 32 := by
  obtain ⟨small, punctual⟩ := punctual_of_run run
  constructor
  · intro keeps
    exact (timerGettickcount_eq_iff small).mp (keeps.shows s.ticks (Nat.le_refl _))
  · intro early
    have shows : ∀ ticks ≤ s.ticks, timerGettickcount rate ticks = milliseconds rate ticks := by
      intro ticks order
      exact (timerGettickcount_eq_iff (by omega)).mpr (by omega)
    refine ⟨shows, ?_, (punctual early).waited⟩
    intro earlier later order bound
    rw [shows earlier (by omega), shows later bound]
    exact milliseconds_mono order

/-! ## Runs of the timer -/

theorem ticks_run (rate : TimerRate) (s : Timed) {count : Nat} (small : s.ticks + count < 2 ^ 54) :
    Run (TimedStep rate) s (List.replicate count none) { s with ticks := s.ticks + count } := by
  induction count generalizing s with
  | zero => exact .nil s
  | succ count inductionHypothesis =>
    have next : timerIrqHandler s.ticks = s.ticks + 1 := timerIrqHandler_of_small (by omega)
    have rest := inductionHypothesis { s with ticks := timerIrqHandler s.ticks }
      (by dsimp only; omega)
    dsimp only at rest
    rw [next, Nat.add_right_comm] at rest
    rw [List.replicate_succ]
    refine .cons (.tick (by omega)) ?_
    rw [next]
    exact rest

/-- Two milliseconds after the start. -/
theorem keepsTime_two : KeepsTime everyMillisecond { powerOn 0 with ticks := 2 } := by
  have run : Run (TimedStep everyMillisecond) (powerOn 0) [none, none]
      { powerOn 0 with ticks := 2 } :=
    .cons (.tick (by decide)) (.cons (.tick (by decide)) (.nil _))
  exact (keepsTime_iff run).mpr (by decide)

/-- A thread enters a tick before the clock goes back to zero; one millisecond later its wait of a
second has timed out. -/
theorem crossing_run : ∃ s, Run (TimedStep everyMillisecond) (powerOn 0)
    (List.replicate 4294967 none ++
      [some (.call 7), some (.poll 7 0), none, some (.leave 7 .eTimedOut)]) s ∧
    s.ticks = 4294968 ∧ ⟨4294967, 4294968, 1000⟩ ∈ s.timedOut := by
  have called : Event.Step (powerOn 0).system (.call 7)
      ⟨eventCreate 0, update (fun _ => .outside) 7 (.polling 4294967 1000)⟩ :=
    .call 1000 4294967 rfl
  have polled : Event.Step
      ⟨eventCreate 0, update (fun _ => .outside) 7 (.polling 4294967 1000)⟩ (.poll 7 0)
      ⟨eventCreate 0, update (update (fun _ => .outside) 7 (.polling 4294967 1000)) 7
        (.decided 4294967 1000 0)⟩ := .poll rfl
  -- the clock shows zero, and the difference of 64 bits is huge
  have left : Event.Step
      ⟨eventCreate 0, update (update (fun _ => .outside) 7 (.polling 4294967 1000)) 7
        (.decided 4294967 1000 0)⟩ (.leave 7 .eTimedOut)
      ⟨eventCreate 0, update (update (update (fun _ => .outside) 7 (.polling 4294967 1000)) 7
        (.decided 4294967 1000 0)) 7 .outside⟩ := .leave 0 rfl rfl
  have early : Run (TimedStep everyMillisecond) (powerOn 0) (List.replicate 4294967 none)
      { powerOn 0 with ticks := 4294967 } := by
    have run := ticks_run everyMillisecond (powerOn 0) (show 0 + 4294967 < 2 ^ 54 by decide)
    rwa [show (powerOn 0).ticks + 4294967 = 4294967 from Nat.zero_add _] at run
  have crossed (system : System) (entered : Nat → Nat) (timedOut : List TimedOut) :
      TimedStep everyMillisecond ⟨4294967, system, entered, timedOut⟩ none
        ⟨4294968, system, entered, timedOut⟩ :=
    .tick (show 4294967 + 1 < 2 ^ 54 by decide)
  refine ⟨_, early.append (.cons (.event called ⟨1000, rfl⟩) (.cons (.event polled trivial)
    (.cons (crossed _ _ _) (.cons (.event left ?_) (.nil _))))), rfl, List.mem_cons_self⟩
  intro initialTime timeout state decided
  injection decided with start limit read
  rw [← start, ← limit, ← read]
  decide +kernel

theorem keepsTime_not : ¬ ∀ (rate : TimerRate) (flags : Nat) (ops : List (Option EventOp))
    (s : Timed), Run (TimedStep rate) (powerOn flags) ops s → KeepsTime rate s := by
  intro keeps
  obtain ⟨s, run, -, member⟩ := crossing_run
  have waited := (keeps everyMillisecond 0 _ s run).waited _ member
  revert waited
  decide

end Antonix.Timer
