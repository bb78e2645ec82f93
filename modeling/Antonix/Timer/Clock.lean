import Mathlib.Logic.Function.Iterate
import Antonix.Types

/-! # The tick clock (`timer.c`)

The timer interrupt counts ticks in 64 bits.  `timer_gettickcount` turns them into
milliseconds, and cuts the product to 32 bits before it divides. -/

namespace Antonix.Timer

/-- `__timer_rate`, in ticks per second; `timer_initialize` has divided by it. -/
structure TimerRate where
  perSecond : Nat
  positive : 0 < perSecond
  fits : perSecond < 2 ^ 32

/-- One tick each millisecond. -/
def everyMillisecond : TimerRate where
  perSecond := 1000
  positive := by decide
  fits := by decide

/-- `timer_irq_handler` -/
def timerIrqHandler (ticks : Nat) : Nat := (ticks + 1) % 2 ^ 64 % 0xFFFFFFFFFFFFFFFF

/-- `timer_gettickcount` -/
def timerGettickcount (rate : TimerRate) (ticks : Nat) : Nat :=
  u32 (1000 * ticks % 2 ^ 64) / rate.perSecond

/-- The milliseconds that a tick count stands for. -/
def milliseconds (rate : TimerRate) (ticks : Nat) : Nat := 1000 * ticks / rate.perSecond

section

variable {rate : TimerRate} {ticks : Nat}

theorem timerIrqHandler_of_small (small : ticks < 2 ^ 54) :
    timerIrqHandler ticks = ticks + 1 := by
  unfold timerIrqHandler
  omega

theorem milliseconds_mono {earlier later : Nat} (order : earlier ≤ later) :
    milliseconds rate earlier ≤ milliseconds rate later :=
  Nat.div_le_div_right (Nat.mul_le_mul_left 1000 order)

/-- Cutting a number below a divisor's worth changes its quotient. -/
theorem u32_div_eq_iff {x divisor : Nat} (positive : 0 < divisor) (fits : divisor < 2 ^ 32) :
    u32 x / divisor = x / divisor ↔ x < 2 ^ 32 := by
  constructor
  · intro same
    by_contra large
    have less : u32 x + divisor ≤ x := by
      unfold u32
      omega
    have more : u32 x / divisor + 1 ≤ x / divisor := by
      rw [← Nat.add_div_right _ positive]
      exact Nat.div_le_div_right less
    omega
  · intro small
    rw [u32_of_lt small]

/-- The clock shows the milliseconds until their thousandths fill 32 bits, and never after. -/
theorem timerGettickcount_eq_iff (small : ticks < 2 ^ 54) :
    timerGettickcount rate ticks = milliseconds rate ticks ↔ 1000 * ticks < 2 ^ 32 := by
  have product : 1000 * ticks % 2 ^ 64 = 1000 * ticks := Nat.mod_eq_of_lt (by omega)
  rw [timerGettickcount, product]
  exact u32_div_eq_iff rate.positive rate.fits

theorem timerGettickcount_lt (rate : TimerRate) (ticks : Nat) :
    timerGettickcount rate ticks < 2 ^ 32 :=
  Nat.lt_of_le_of_lt (Nat.div_le_self _ _) (u32_lt _)

/-- That many timer interrupts count that many ticks. -/
theorem timerIrqHandler_iterate {count : Nat} (small : ticks + count < 2 ^ 54) :
    timerIrqHandler^[count] ticks = ticks + count := by
  induction count with
  | zero => rfl
  | succ count inductionHypothesis =>
    rw [Function.iterate_succ_apply', inductionHypothesis (by omega),
      timerIrqHandler_of_small (by omega)]
    omega

end

end Antonix.Timer
