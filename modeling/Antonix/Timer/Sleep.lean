import Antonix.Timer.Clock

/-! # `timer_sleep` (`timer.c`)

Between two readings of the clock the timer interrupts any number of times.  The loop leaves
where `end >= now`, that is before the end time and not after it. -/

namespace Antonix.Timer

/-- What a pass of the loop does. -/
inductive SleepPass where
  | leave
  | yield
  | spin
  deriving DecidableEq

/-- A pass of `timer_sleep` that reads `now`. -/
def timerSleepPass (endTime now : Nat) : SleepPass :=
  if endTime ≥ now then .leave
  else if sub32 endTime now > 5 then .yield
  else .spin

/-- The tick count at each reading; the first is the one at entry. -/
def ticksAt (start : Nat) (interrupts : Nat → Nat) : Nat → Nat
  | 0 => start
  | reading + 1 => timerIrqHandler^[interrupts reading] (ticksAt start interrupts reading)

/-- The loop of `timer_sleep`, from a pass on; with enough fuel the number of the pass that
leaves. -/
def timerSleepLoop (rate : TimerRate) (ticks : Nat → Nat) (endTime : Nat) :
    Nat → Nat → Option Nat
  | 0, _ => none
  | fuel + 1, pass =>
    if timerSleepPass endTime (u32 (timerGettickcount rate (ticks (pass + 1)))) = .leave then
      some pass
    else timerSleepLoop rate ticks endTime fuel (pass + 1)

/-- `timer_sleep` -/
def timerSleep (rate : TimerRate) (ticks : Nat → Nat) (dwMilliseconds fuel : Nat) : Option Nat :=
  timerSleepLoop rate ticks (u32 (timerGettickcount rate (ticks 0) + dwMilliseconds)) fuel 0

/-- The passes that leave are those that read the end time or a later one, and once a pass reads
one the call has left. -/
structure Sleeps (rate : TimerRate) (ticks : Nat → Nat) (dwMilliseconds : Nat) : Prop where
  late : ∀ fuel pass, timerSleep rate ticks dwMilliseconds fuel = some pass →
    timerGettickcount rate (ticks 0) + dwMilliseconds ≤ timerGettickcount rate (ticks (pass + 1))
  wakes : ∀ pass,
    timerGettickcount rate (ticks 0) + dwMilliseconds ≤ timerGettickcount rate (ticks (pass + 1)) →
    ∃ fuel left, left ≤ pass ∧ timerSleep rate ticks dwMilliseconds fuel = some left

section

variable {rate : TimerRate} {ticks : Nat → Nat} {endTime : Nat}

theorem timerSleepPass_leave {now : Nat} : timerSleepPass endTime now = .leave ↔ now ≤ endTime := by
  unfold timerSleepPass
  by_cases early : endTime ≥ now
  · simp [early]
  · simp only [early, if_false, iff_false]
    split <;> simp

/-- The loop leaves at the first pass that reads no more than the end time. -/
theorem timerSleepLoop_eq_some {fuel pass left : Nat} :
    timerSleepLoop rate ticks endTime fuel pass = some left ↔
      pass ≤ left ∧ left < pass + fuel ∧ timerGettickcount rate (ticks (left + 1)) ≤ endTime ∧
        ∀ before, pass ≤ before → before < left →
          endTime < timerGettickcount rate (ticks (before + 1)) := by
  induction fuel generalizing pass with
  | zero =>
    simp only [timerSleepLoop, reduceCtorEq, false_iff]
    omega
  | succ fuel inductionHypothesis =>
    rw [timerSleepLoop, u32_of_lt (timerGettickcount_lt _ _)]
    by_cases early : timerGettickcount rate (ticks (pass + 1)) ≤ endTime
    · rw [if_pos (timerSleepPass_leave.mpr early), Option.some.injEq]
      constructor
      · rintro rfl
        exact ⟨by omega, by omega, early, fun before low high => by omega⟩
      · rintro ⟨low, -, -, passed⟩
        by_contra different
        have contradicted := passed pass (Nat.le_refl _) (by omega)
        omega
    · rw [if_neg (mt timerSleepPass_leave.mp early), inductionHypothesis]
      constructor
      · rintro ⟨low, high, reads, passed⟩
        refine ⟨by omega, by omega, reads, ?_⟩
        intro before from' until'
        by_cases first : before = pass
        · rw [first]
          omega
        · exact passed before (by omega) until'
      · rintro ⟨low, high, reads, passed⟩
        have later : left ≠ pass := by
          rintro rfl
          exact early reads
        exact ⟨by omega, by omega, reads, fun before from' => passed before (by omega)⟩

end

/-- A call sleeps as it should if and only if the first pass reads the end time itself. -/
theorem sleeps_iff {rate : TimerRate} {start dwMilliseconds : Nat} {interrupts : Nat → Nat}
    (fits : timerGettickcount rate start + dwMilliseconds < 2 ^ 32) :
    Sleeps rate (ticksAt start interrupts) dwMilliseconds ↔
      timerGettickcount rate (timerIrqHandler^[interrupts 0] start) =
        timerGettickcount rate start + dwMilliseconds := by
  have leaves {fuel left : Nat} := @timerSleepLoop_eq_some rate (ticksAt start interrupts)
    (timerGettickcount rate start + dwMilliseconds) fuel 0 left
  have call (fuel : Nat) : timerSleep rate (ticksAt start interrupts) dwMilliseconds fuel =
      timerSleepLoop rate (ticksAt start interrupts)
        (timerGettickcount rate start + dwMilliseconds) fuel 0 := by
    rw [timerSleep, ticksAt, u32_of_lt fits]
  have first : ticksAt start interrupts 1 = timerIrqHandler^[interrupts 0] start := rfl
  rw [← first]
  constructor
  · intro sleeps
    by_cases early : timerGettickcount rate (ticksAt start interrupts 1) ≤
        timerGettickcount rate start + dwMilliseconds
    · -- the first pass leaves, so that it must read the end time
      have left := sleeps.late 1 0 (by
        rw [call]
        exact leaves.mpr ⟨Nat.le_refl _, by omega, early, fun before low high => by omega⟩)
      exact Nat.le_antisymm early left
    · -- the first pass should leave, and does not
      obtain ⟨fuel, left, order, returned⟩ := sleeps.wakes 0 (by
        dsimp only [ticksAt] at early ⊢
        omega)
      rw [call] at returned
      have reads := (leaves.mp returned).2.2.1
      rw [Nat.le_zero.mp order] at reads
      exact absurd reads early
  · intro exact'
    have returned : timerSleep rate (ticksAt start interrupts) dwMilliseconds 1 = some 0 := by
      rw [call]
      exact leaves.mpr ⟨Nat.le_refl _, by omega, Nat.le_of_eq exact',
        fun before low high => by omega⟩
    constructor
    · intro fuel left later
      rw [call] at later
      have passed := (leaves.mp later).2.2.2 0 (Nat.zero_le _)
      have zero : left = 0 := by
        by_contra positive
        have contradicted := passed (by omega)
        rw [Nat.zero_add] at contradicted
        omega
      rw [zero]
      exact Nat.le_of_eq exact'.symm
    · intro pass reached
      exact ⟨1, 0, Nat.zero_le _, returned⟩

/-- Ten milliseconds that pass before the first pass. -/
theorem sleeps_ten : Sleeps everyMillisecond (ticksAt 0 fun _ => 10) 10 :=
  (sleeps_iff (by decide)).mpr (by decide)

/-- Ten milliseconds that do not: the call returns at once. -/
theorem sleeps_not : ¬ ∀ (rate : TimerRate) (start dwMilliseconds : Nat) (interrupts : Nat → Nat),
    timerGettickcount rate start + dwMilliseconds < 2 ^ 32 →
      Sleeps rate (ticksAt start interrupts) dwMilliseconds := by
  intro sleeps
  have returned := (sleeps everyMillisecond 0 10 (fun _ => 0) (by decide)).late 1 0 (by decide)
  revert returned
  decide

end Antonix.Timer
