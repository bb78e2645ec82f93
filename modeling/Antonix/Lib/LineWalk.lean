import Mathlib.Algebra.Order.Group.Abs
import Mathlib.Algebra.Order.Ring.Int

/-! # The decision variable of a line

A line that is `dx` wide and `dy` high, both positive, is walked from one end to the
other.  In each step the decision variable `err` tells which coordinates move: the
first when `-dx < err`, the second when `err < dy`.  `ra` and `rb` are the moves that
are left along the two axes.  Along the longer axis every step moves, so the walk ends
after as many steps as the longer side has, and then both coordinates have arrived. -/

namespace LineWalk

variable {dx dy err ra rb : Int}

/-- The decision variable at the start. -/
def start (dx dy : Int) : Int := if dy < dx then dx / 2 else -(dy / 2)

/-- The moves left along the longer axis. -/
def left (dx dy ra rb : Int) : Int := if dy < dx then ra else rb

/-- The decision variable after a step. -/
def next (dx dy err : Int) : Int :=
  (if -dx < err then err - dy else err) + (if err < dy then dx else 0)

/-- A walk that is under way.  The decision variable accounts for the moves that are left, and
stays in a range as long as the side along the longer axis. -/
structure Walking (dx dy err ra rb : Int) : Prop where
  wide : 0 < dx
  high : 0 < dy
  leftX : 0 ≤ ra
  leftY : 0 ≤ rb
  balance : err = start dx dy + ra * dy - rb * dx
  flat : dy < dx → 0 ≤ err ∧ err < dx
  steep : dx ≤ dy → -dy < err ∧ err ≤ 0

/-- The moves that are left along the shorter axis are those of the ideal line, rounded. -/
def Rounds (dx dy ra rb : Int) : Prop :=
  if dy < dx then rb = (dx / 2 + ra * dy) / dx else ra = (dy / 2 + rb * dx) / dy

instance : Decidable (Rounds dx dy ra rb) :=
  inferInstanceAs (Decidable (if dy < dx then rb = (dx / 2 + ra * dy) / dx
    else ra = (dy / 2 + rb * dx) / dy))

theorem start_flat (shape : dy < dx) : start dx dy = dx / 2 := if_pos shape

theorem start_steep (shape : dx ≤ dy) : start dx dy = -(dy / 2) := if_neg (by omega)

theorem Walking.start (wide : 0 < dx) (high : 0 < dy) :
    Walking dx dy (start dx dy) dx dy where
  wide := wide
  high := high
  leftX := by omega
  leftY := by omega
  balance := by rw [mul_comm dx dy]; omega
  flat shape := by rw [start_flat shape]; omega
  steep shape := by rw [start_steep shape]; omega

namespace Walking

/-- The decision variable is as small as the longer side. -/
theorem bounds (walking : Walking dx dy err ra rb) : -dy < err ∧ err < dx := by
  have wide := walking.wide
  have high := walking.high
  by_cases shape : dy < dx
  · have range := walking.flat shape
    omega
  · have range := walking.steep (by omega)
    omega

/-- The walk keeps within half a step of the line, along the shorter axis. -/
theorem near (walking : Walking dx dy err ra rb) :
    2 * |ra * dy - rb * dx| ≤ max dx dy := by
  have balance := walking.balance
  have wide := walking.wide
  have high := walking.high
  have close : |err - LineWalk.start dx dy| ≤ max dx dy / 2 := by
    rw [abs_le]
    by_cases shape : dy < dx
    · have range := walking.flat shape
      rw [start_flat shape]
      omega
    · have range := walking.steep (by omega)
      rw [start_steep (by omega)]
      omega
  rw [show ra * dy - rb * dx = err - LineWalk.start dx dy by omega]
  omega

/-- A walk without moves along the longer axis has arrived. -/
theorem arrived (walking : Walking dx dy err ra rb) (done : left dx dy ra rb = 0) :
    ra = 0 ∧ rb = 0 := by
  have balance := walking.balance
  by_cases shape : dy < dx
  · have none : ra = 0 := by rwa [left, if_pos shape] at done
    have range := walking.flat shape
    rw [start_flat shape, none] at balance
    have few : rb * dx < 1 * dx := by omega
    have below := lt_of_mul_lt_mul_right few walking.wide.le
    have leftY := walking.leftY
    omega
  · have none : rb = 0 := by rwa [left, if_neg shape] at done
    have range := walking.steep (by omega)
    rw [start_steep (by omega), none] at balance
    have few : ra * dy < 1 * dy := by omega
    have below := lt_of_mul_lt_mul_right few walking.high.le
    have leftX := walking.leftX
    omega

/-- A step.  The coordinate along the longer axis moves; the other one only moves when it has
moves left. -/
theorem step (walking : Walking dx dy err ra rb) (unfinished : left dx dy ra rb ≠ 0) :
    Walking dx dy (next dx dy err) (if -dx < err then ra - 1 else ra)
        (if err < dy then rb - 1 else rb) ∧
      left dx dy (if -dx < err then ra - 1 else ra) (if err < dy then rb - 1 else rb) =
        left dx dy ra rb - 1 := by
  have wide := walking.wide
  have high := walking.high
  have leftX := walking.leftX
  have leftY := walking.leftY
  have balance := walking.balance
  by_cases shape : dy < dx
  · have range := walking.flat shape
    have moves : -dx < err := by omega
    rw [left, if_pos shape] at unfinished
    have farX : 1 * dy ≤ ra * dy := Int.mul_le_mul_of_nonneg_right (by omega) high.le
    rw [start_flat shape] at balance
    have shorter := sub_one_mul ra dy
    refine ⟨?_, by simp [left, shape, moves]⟩
    simp only [next, if_pos moves]
    by_cases lifts : err < dy
    · have farY : rb ≠ 0 := by
        intro none
        rw [none] at balance
        omega
      have lower := sub_one_mul rb dx
      simp only [if_pos lifts]
      exact ⟨wide, high, by omega, by omega, by rw [start_flat shape]; omega,
        fun _ => by omega, fun _ => by omega⟩
    · simp only [if_neg lifts]
      exact ⟨wide, high, by omega, by omega, by rw [start_flat shape]; omega,
        fun _ => by omega, fun _ => by omega⟩
  · have range := walking.steep (by omega)
    have lifts : err < dy := by omega
    rw [left, if_neg shape] at unfinished
    have farY : 1 * dx ≤ rb * dx := Int.mul_le_mul_of_nonneg_right (by omega) wide.le
    rw [start_steep (by omega)] at balance
    have lower := sub_one_mul rb dx
    refine ⟨?_, by simp [left, shape, lifts]⟩
    simp only [next, if_pos lifts]
    by_cases moves : -dx < err
    · have farX : ra ≠ 0 := by
        intro none
        rw [none] at balance
        omega
      have shorter := sub_one_mul ra dy
      simp only [if_pos moves]
      exact ⟨wide, high, by omega, by omega, by rw [start_steep (by omega)]; omega,
        fun _ => by omega, fun _ => by omega⟩
    · simp only [if_neg moves]
      exact ⟨wide, high, by omega, by omega, by rw [start_steep (by omega)]; omega,
        fun _ => by omega, fun _ => by omega⟩

theorem rounds (walking : Walking dx dy err ra rb) : Rounds dx dy ra rb := by
  have balance := walking.balance
  by_cases shape : dy < dx
  · have range := walking.flat shape
    rw [start_flat shape] at balance
    rw [Rounds, if_pos shape]
    exact ((Int.ediv_eq_iff_of_pos walking.wide).mpr ⟨by omega, by omega⟩).symm
  · have range := walking.steep (by omega)
    rw [start_steep (by omega)] at balance
    rw [Rounds, if_neg shape]
    exact ((Int.ediv_eq_iff_of_pos walking.high).mpr ⟨by omega, by omega⟩).symm

end Walking

section

variable {d e r : Int}

end

end LineWalk
