import Antonix.Lib.LineWalk
import Antonix.Nxgi.Pixels
import Mathlib.Algebra.Order.Ring.Abs
import Mathlib.Data.List.Chain
import Mathlib.Tactic.Ring

/-! # The loop that draws a line

The loop of `graphics_draw_line_bgra32` is the walk of `LineWalk`, whatever the two points
are, as long as their distance leaves room for the decision variable in 32 bits. -/

namespace Antonix

variable {t : NxgiBitmap} {gc : NxgiGraphicsContext} {p1 p2 p : NxgiPoint}

/-- A point between two others. -/
structure Between (p1 p2 p : NxgiPoint) : Prop where
  left : min p1.x p2.x ≤ p.x
  right : p.x ≤ max p1.x p2.x
  top : min p1.y p2.y ≤ p.y
  bottom : p.y ≤ max p1.y p2.y

/-- The point of the next turn. -/
def nextPoint (steps : LineSteps) (p : NxgiPoint) (err : Int) : NxgiPoint :=
  ⟨if -steps.dx < err then p.x + steps.sx else p.x, if err < steps.dy then p.y + steps.sy else p.y⟩

/-- The coordinates of a point are values of `int32_t`. -/
structure NxgiPoint.Fits (p : NxgiPoint) : Prop where
  x : -2 ^ 31 ≤ p.x ∧ p.x < 2 ^ 31
  y : -2 ^ 31 ≤ p.y ∧ p.y < 2 ^ 31

/-- The state of the loop: the walk to `p2`. -/
structure Stepping (steps : LineSteps) (p2 p1 : NxgiPoint) (err ra rb : Int) : Prop where
  walking : LineWalk.Walking steps.dx steps.dy err ra rb
  columns : (steps.sx = 1 ∧ p2.x = p1.x + ra) ∨ (steps.sx = -1 ∧ p2.x = p1.x - ra)
  rows : (steps.sy = 1 ∧ p2.y = p1.y + rb) ∨ (steps.sy = -1 ∧ p2.y = p1.y - rb)
  small : steps.dx ≤ 2 ^ 30 ∧ steps.dy ≤ 2 ^ 30
  source : p1.Fits
  target : p2.Fits

/-- The points that the loop visits in `n` steps from `p`. -/
def linePoints (steps : LineSteps) : Nat → NxgiPoint → Int → List NxgiPoint
  | 0, p, _ => [p]
  | n + 1, p, err =>
    p :: linePoints steps n (nextPoint steps p err) (LineWalk.next steps.dx steps.dy err)

theorem head?_linePoints (steps : LineSteps) (n : Nat) (p : NxgiPoint) (err : Int) :
    (linePoints steps n p err).head? = some p := by
  cases n <;> rfl

theorem length_linePoints (steps : LineSteps) (n : Nat) (p : NxgiPoint) (err : Int) :
    (linePoints steps n p err).length = n + 1 := by
  induction n generalizing p err with
  | zero => rfl
  | succ n inductionHypothesis => rw [linePoints, List.length_cons, inductionHypothesis]

namespace Stepping

variable {steps : LineSteps} {err ra rb : Int}

theorem between_nextPoint (stepping : Stepping steps p2 p1 err ra rb)
    (unfinished : LineWalk.left steps.dx steps.dy ra rb ≠ 0) :
    Between p1 p2 (nextPoint steps p1 err) := by
  have walked := (stepping.walking.step unfinished).1
  have columns := stepping.columns
  have rows := stepping.rows
  have leftX := stepping.walking.leftX
  have leftY := stepping.walking.leftY
  have nextX := walked.leftX
  have nextY := walked.leftY
  constructor
  all_goals
    simp only [nextPoint]
    split_ifs at nextX nextY ⊢ <;> omega

/-- The next turn is closer to the second point. -/
theorem step (stepping : Stepping steps p2 p1 err ra rb)
    (unfinished : LineWalk.left steps.dx steps.dy ra rb ≠ 0) :
    Stepping steps p2 (nextPoint steps p1 err) (LineWalk.next steps.dx steps.dy err)
      (if -steps.dx < err then ra - 1 else ra) (if err < steps.dy then rb - 1 else rb) := by
  have ⟨left, right, top, bottom⟩ := stepping.between_nextPoint unfinished
  have ⟨walking, columns, rows, small, ⟨sourceX, sourceY⟩, ⟨targetX, targetY⟩⟩ := stepping
  refine ⟨(walking.step unfinished).1, ?_, ?_, small, ⟨by omega, by omega⟩, ⟨targetX, targetY⟩⟩
  · simp only [nextPoint]
    split_ifs <;> omega
  · simp only [nextPoint]
    split_ifs <;> omega

/-- A turn that is not the last one draws a pixel and goes on from the next point. -/
theorem lineLoop_succ (stepping : Stepping steps p2 p1 err ra rb)
    (unfinished : LineWalk.left steps.dx steps.dy ra rb ≠ 0) (turns : Nat) :
    lineLoop gc t p2 steps (turns + 1) p1 err =
      (lineLoop gc t p2 steps turns (nextPoint steps p1 err)
        (LineWalk.next steps.dx steps.dy err)).map (linePixel gc t p1 :: ·) := by
  have ⟨⟨nextX, nextX'⟩, nextY, nextY'⟩ := (stepping.step unfinished).source
  have ⟨walking, columns, rows, small, source, target⟩ := stepping
  have bounds := walking.bounds
  have wide := walking.wide
  have high := walking.high
  have apart : ¬ (p1.x = p2.x ∧ p1.y = p2.y) := by
    intro same
    have noneX : ra = 0 := by omega
    have noneY : rb = 0 := by omega
    simp [LineWalk.left, noneX, noneY] at unfinished
  have lower : i32 (err - steps.dy) = err - steps.dy := i32_of_range (by omega) (by omega)
  simp only [nextPoint] at nextX nextX' nextY nextY'
  rw [lineLoop, if_neg apart]
  by_cases moves : -steps.dx < err
  · rw [if_pos moves] at nextX nextX'
    have column : i32 (p1.x + steps.sx) = p1.x + steps.sx := i32_of_range nextX nextX'
    by_cases lifts : err < steps.dy
    · rw [if_pos lifts] at nextY nextY'
      have row : i32 (p1.y + steps.sy) = p1.y + steps.sy := i32_of_range nextY nextY'
      have raised : i32 (err - steps.dy + steps.dx) = err - steps.dy + steps.dx :=
        i32_of_range (by omega) (by omega)
      simp [nextPoint, LineWalk.next, moves, lifts, lower, column, row, raised]
    · simp [nextPoint, LineWalk.next, moves, lifts, lower, column]
  · by_cases lifts : err < steps.dy
    · rw [if_pos lifts] at nextY nextY'
      have row : i32 (p1.y + steps.sy) = p1.y + steps.sy := i32_of_range nextY nextY'
      have raised : i32 (err + steps.dx) = err + steps.dx := i32_of_range (by omega) (by omega)
      simp [nextPoint, LineWalk.next, moves, lifts, row, raised]
    · omega

/-- A walk without moves along the longer axis is at the second point. -/
theorem arrived (stepping : Stepping steps p2 p1 err ra rb)
    (done : LineWalk.left steps.dx steps.dy ra rb = 0) : p1 = p2 := by
  have ⟨noneX, noneY⟩ := stepping.walking.arrived done
  have columns := stepping.columns
  have rows := stepping.rows
  exact NxgiPoint.ext (by omega) (by omega)

/-- The loop ends at the second point after as many turns as are left along the longer axis. -/
theorem lineLoop_eq (stepping : Stepping steps p2 p1 err ra rb) (gc : NxgiGraphicsContext)
    (t : NxgiBitmap) {n : Nat} (remaining : LineWalk.left steps.dx steps.dy ra rb = n)
    (turns : Nat) : lineLoop gc t p2 steps turns p1 err =
      if n < turns then some ((linePoints steps n p1 err).map (linePixel gc t)) else none := by
  induction n generalizing p1 err ra rb turns with
  | zero =>
    have same := stepping.arrived remaining
    cases turns with
    | zero => rfl
    | succ turns => simp [lineLoop, linePoints, same]
  | succ n inductionHypothesis =>
    have unfinished : LineWalk.left steps.dx steps.dy ra rb ≠ 0 := by omega
    have fewer := (stepping.walking.step unfinished).2
    cases turns with
    | zero => rfl
    | succ turns =>
      rw [stepping.lineLoop_succ unfinished,
        inductionHypothesis (stepping.step unfinished) (by omega)]
      by_cases enough : n < turns
      · rw [if_pos enough, if_pos (by omega)]
        rfl
      · rw [if_neg enough, if_neg (by omega)]
        rfl

theorem getLast?_linePoints (stepping : Stepping steps p2 p1 err ra rb) {n : Nat}
    (remaining : LineWalk.left steps.dx steps.dy ra rb = n) :
    (linePoints steps n p1 err).getLast? = some p2 := by
  induction n generalizing p1 err ra rb with
  | zero => rw [stepping.arrived remaining, linePoints, List.getLast?_singleton]
  | succ n inductionHypothesis =>
    have unfinished : LineWalk.left steps.dx steps.dy ra rb ≠ 0 := by omega
    have fewer := (stepping.walking.step unfinished).2
    have later := inductionHypothesis (stepping.step unfinished) (by omega)
    rw [linePoints, List.getLast?_cons, later]
    rfl

/-- Every point that is visited is on the way to the second one, and from it the same walk goes
on. -/
theorem of_mem (stepping : Stepping steps p2 p1 err ra rb) {n : Nat}
    (remaining : LineWalk.left steps.dx steps.dy ra rb = n) :
    ∀ p ∈ linePoints steps n p1 err,
      Between p1 p2 p ∧ ∃ err' ra' rb', Stepping steps p2 p err' ra' rb' := by
  induction n generalizing p1 err ra rb with
  | zero =>
    intro p member
    obtain rfl := List.mem_singleton.mp member
    exact ⟨⟨by omega, by omega, by omega, by omega⟩, _, _, _, stepping⟩
  | succ n inductionHypothesis =>
    have unfinished : LineWalk.left steps.dx steps.dy ra rb ≠ 0 := by omega
    have fewer := (stepping.walking.step unfinished).2
    intro p member
    cases List.mem_cons.mp member with
    | inl here =>
      subst here
      exact ⟨⟨by omega, by omega, by omega, by omega⟩, _, _, _, stepping⟩
    | inr later =>
      have ⟨⟨left, right, top, bottom⟩, walk⟩ :=
        inductionHypothesis (stepping.step unfinished) (by omega) p later
      have ⟨nextLeft, nextRight, nextTop, nextBottom⟩ := stepping.between_nextPoint unfinished
      exact ⟨⟨by omega, by omega, by omega, by omega⟩, walk⟩

/-- A whole walk makes as many steps as the longer side has. -/
theorem left_start (start : Stepping steps p2 p1 err steps.dx steps.dy) :
    LineWalk.left steps.dx steps.dy steps.dx steps.dy = (max steps.dx steps.dy).toNat := by
  have positive := start.walking.wide
  rw [LineWalk.left]
  split <;> omega

/-- Each point that is visited is next to the one before. -/
theorem adjacent (stepping : Stepping steps p2 p1 err ra rb) {n : Nat}
    (remaining : LineWalk.left steps.dx steps.dy ra rb = n) :
    (linePoints steps n p1 err).IsChain fun p q => |q.x - p.x| ≤ 1 ∧ |q.y - p.y| ≤ 1 := by
  induction n generalizing p1 err ra rb with
  | zero => exact .singleton _
  | succ n inductionHypothesis =>
    have unfinished : LineWalk.left steps.dx steps.dy ra rb ≠ 0 := by omega
    have fewer := (stepping.walking.step unfinished).2
    have later := inductionHypothesis (stepping.step unfinished) (by omega)
    have columns := stepping.columns
    have rows := stepping.rows
    have near : |(nextPoint steps p1 err).x - p1.x| ≤ 1 ∧ |(nextPoint steps p1 err).y - p1.y| ≤ 1 := by
      simp only [nextPoint, abs_le]
      split_ifs <;> omega
    rw [linePoints]
    cases n with
    | zero => exact .cons_cons near later
    | succ n => exact .cons_cons near later

end Stepping

/-- The whole way along an axis and what is left of it, with their sign. -/
theorem signed_moves {s d r first last here : Int}
    (whole : (s = 1 ∧ last = first + d) ∨ (s = -1 ∧ last = first - d))
    (left : (s = 1 ∧ last = here + r) ∨ (s = -1 ∧ last = here - r)) :
    |s| = 1 ∧ last - first = s * d ∧ last - here = s * r := by
  cases whole with
  | inl up =>
    obtain ⟨rfl, rfl⟩ := up
    exact ⟨abs_one, by omega, by omega⟩
  | inr down =>
    obtain ⟨rfl, rfl⟩ := down
    exact ⟨by rw [abs_neg, abs_one], by omega, by omega⟩

/-- How far a point is from the line, in terms of the moves that are left. -/
theorem Stepping.cross_eq {steps : LineSteps} {err ra rb err' : Int}
    (start : Stepping steps p2 p1 err steps.dx steps.dy) (here : Stepping steps p2 p err' ra rb) :
    |(p.y - p1.y) * (p2.x - p1.x) - (p.x - p1.x) * (p2.y - p1.y)| =
      |ra * steps.dy - rb * steps.dx| := by
  obtain ⟨unitX, wholeX, leftX⟩ := signed_moves start.columns here.columns
  obtain ⟨unitY, wholeY, leftY⟩ := signed_moves start.rows here.rows
  have apart : (p.y - p1.y) * (p2.x - p1.x) - (p.x - p1.x) * (p2.y - p1.y) =
      steps.sx * steps.sy * (ra * steps.dy - rb * steps.dx) := by
    rw [show p.y - p1.y = steps.sy * steps.dy - steps.sy * rb by omega,
      show p.x - p1.x = steps.sx * steps.dx - steps.sx * ra by omega, wholeX, wholeY]
    ring
  rw [apart, abs_mul, abs_mul, unitX, unitY, one_mul, one_mul]

/-- What the loop that draws a line from `p1` to `p2` does in `n` steps.  How far a point is from
the ideal line is measured along the shorter axis. -/
structure LineVisits (p1 p2 : NxgiPoint) (n : Nat) (points : List NxgiPoint) : Prop where
  steps : points.length = n + 1
  first : points.head? = some p1
  last : points.getLast? = some p2
  adjacent : points.IsChain fun p q => |q.x - p.x| ≤ 1 ∧ |q.y - p.y| ≤ 1
  inBox : ∀ p ∈ points, Between p1 p2 p
  near : ∀ p ∈ points, |(p.y - p1.y) * (p2.x - p1.x) - (p.x - p1.x) * (p2.y - p1.y)| ≤
    max |p2.x - p1.x| |p2.y - p1.y|

/-- The constants of the loop, for points that are not far apart. -/
theorem stepping_start (apartX : p1.x ≠ p2.x) (apartY : p1.y ≠ p2.y) (source : p1.Fits)
    (target : p2.Fits) (closeX : |p2.x - p1.x| ≤ 2 ^ 30) (closeY : |p2.y - p1.y| ≤ 2 ^ 30) :
    (lineSteps p1 p2).dx = |p2.x - p1.x| ∧ (lineSteps p1 p2).dy = |p2.y - p1.y| ∧
      Stepping (lineSteps p1 p2) p2 p1 (lineErr (lineSteps p1 p2)) (lineSteps p1 p2).dx
        (lineSteps p1 p2).dy := by
  rw [Int.abs_eq_natAbs] at closeX closeY
  have differenceX : i32 (p2.x - p1.x) = p2.x - p1.x := i32_of_range (by omega) (by omega)
  have differenceY : i32 (p2.y - p1.y) = p2.y - p1.y := i32_of_range (by omega) (by omega)
  have wide : (lineSteps p1 p2).dx = (p2.x - p1.x).natAbs := by rw [lineSteps, differenceX]
  have high : (lineSteps p1 p2).dy = (p2.y - p1.y).natAbs := by rw [lineSteps, differenceY]
  have err : lineErr (lineSteps p1 p2) =
      LineWalk.start (lineSteps p1 p2).dx (lineSteps p1 p2).dy := by
    rw [lineErr, LineWalk.start]
    split
    · rw [Int.tdiv_eq_ediv_of_nonneg (by omega)]
    · rw [i32_of_range (by omega) (by omega), Int.neg_tdiv, Int.tdiv_eq_ediv_of_nonneg (by omega)]
  rw [err, Int.abs_eq_natAbs, Int.abs_eq_natAbs]
  refine ⟨wide, high, .start (by omega) (by omega), ?_, ?_, by omega, source, target⟩
  · rw [wide]
    simp only [lineSteps]
    split_ifs <;> omega
  · rw [high]
    simp only [lineSteps]
    split_ifs <;> omega

/-- The loop ends at the second point, after as many steps as the longer side has: with that many
turns or fewer it has not ended yet, with more it has drawn the points that it visits. -/
theorem lineLoop_visits (apartX : p1.x ≠ p2.x) (apartY : p1.y ≠ p2.y) (source : p1.Fits)
    (target : p2.Fits) (closeX : |p2.x - p1.x| < 2 ^ 30) (closeY : |p2.y - p1.y| < 2 ^ 30)
    (gc : NxgiGraphicsContext) (t : NxgiBitmap) :
    ∃ points, LineVisits p1 p2 (max |p2.x - p1.x| |p2.y - p1.y|).toNat points ∧
      ∀ turns, lineLoop gc t p2 (lineSteps p1 p2) turns p1 (lineErr (lineSteps p1 p2)) =
        if (max |p2.x - p1.x| |p2.y - p1.y|).toNat < turns then
          some (points.map (linePixel gc t))
        else none := by
  obtain ⟨wide, high, start⟩ := stepping_start apartX apartY source target closeX.le closeY.le
  rw [← wide, ← high]
  have remaining := start.left_start
  refine ⟨linePoints (lineSteps p1 p2) _ p1 _, ?_, start.lineLoop_eq gc t remaining⟩
  constructor
  case steps => exact length_linePoints _ _ _ _
  case first => exact head?_linePoints _ _ _ _
  case last => exact start.getLast?_linePoints remaining
  case adjacent => exact start.adjacent remaining
  case inBox =>
    intro p visited
    exact (start.of_mem remaining p visited).1
  case near =>
    intro p visited
    obtain ⟨-, err, ra, rb, here⟩ := start.of_mem remaining p visited
    have close := here.walking.near
    have nonneg := abs_nonneg (ra * (lineSteps p1 p2).dy - rb * (lineSteps p1 p2).dx)
    rw [start.cross_eq here, ← wide, ← high]
    omega

/-- Five steps to the right, of which two go up. -/
theorem lineLoop_visits_shallow : ∃ points, LineVisits ⟨0, 0⟩ ⟨5, -2⟩ 5 points := by
  have black : NxgiColor := ⟨0#8, 0#8, 0#8, 0#8⟩
  obtain ⟨points, visits, -⟩ := @lineLoop_visits ⟨0, 0⟩ ⟨5, -2⟩ (by decide) (by decide)
    ⟨by decide, by decide⟩ ⟨by decide, by decide⟩ (by decide) (by decide)
    ⟨none, ⟨1, black⟩, ⟨0, 0⟩, black, ⟨0, 0, 0, 0⟩⟩ ⟨8, 32, 8, 32, .bgra32, 0⟩
  exact ⟨points, visits⟩

end Antonix
