import Antonix.Lib.PlaneSegments
import Antonix.Nxgi.Geometry
import Mathlib.Data.Real.Basic
import Mathlib.Tactic.NormNum

/-! # The intersection tests

The tests of `nxgi_geometry.c` decide with integers what happens in the plane: as long as
the products of `helper_orientation` do not overflow, they are exact. -/

namespace Antonix

open Set PlaneSegments

/-- A point of the plane. -/
def NxgiPoint.real (p : NxgiPoint) : ℝ × ℝ := (p.x, p.y)

/-- The closed segment between two points. -/
def closedSegment (p q : NxgiPoint) : Set (ℝ × ℝ) := segment ℝ p.real q.real

/-- The closed rectangle. -/
def NxgiRect.closed (r : NxgiRect) : Set (ℝ × ℝ) := Icc r.p1.real r.p2.real

/-- What `helper_orientation` computes, without a bound. -/
def orientation (p q r : NxgiPoint) : Int :=
  (q.y - p.y) * (r.x - q.x) - (q.x - p.x) * (r.y - q.y)

variable {p q r p1 q1 p2 q2 : NxgiPoint} {rect : NxgiRect}

theorem cross_real (p q r : NxgiPoint) :
    cross p.real q.real r.real = (orientation p q r : ℝ) := by
  simp only [cross, orientation, NxgiPoint.real]
  push_cast
  ring

/-- The orientation is a value of `int32_t`. -/
def OrientationFits (p q r : NxgiPoint) : Prop :=
  -2 ^ 31 ≤ orientation p q r ∧ orientation p q r < 2 ^ 31

/-- `helper_orientation` returns a code for the sign, if the sign fits. -/
theorem helperOrientation_eq (fits : OrientationFits p q r) :
    helperOrientation p q r =
      if orientation p q r = 0 then 0 else if orientation p q r > 0 then 1 else 2 := by
  have wrapped : i32 (i32 (i32 (q.y - p.y) * i32 (r.x - q.x)) -
      i32 (i32 (q.x - p.x) * i32 (r.y - q.y))) = orientation p q r := by
    rw [← i32_of_range fits.1 fits.2]
    simp only [i32, Int.bmod_sub_bmod, Int.sub_bmod_bmod, Int.mul_bmod_bmod, orientation]
    rw [Int.sub_bmod, Int.bmod_mul_bmod, Int.bmod_mul_bmod, ← Int.sub_bmod]
  simp only [helperOrientation, wrapped]

theorem helperOrientation_eq_zero_iff (fits : OrientationFits p q r) :
    helperOrientation p q r = 0 ↔ cross p.real q.real r.real = 0 := by
  rw [helperOrientation_eq fits, cross_real, Int.cast_eq_zero]
  split_ifs with zero positive
  · exact iff_of_true rfl zero
  · exact iff_of_false (by decide) zero
  · exact iff_of_false (by decide) zero

/-- Different codes are different signs. -/
theorem helperOrientation_eq_iff {p' q' r' : NxgiPoint} (fits : OrientationFits p q r)
    (fits' : OrientationFits p' q' r') : helperOrientation p q r = helperOrientation p' q' r' ↔
      SignType.sign (cross p.real q.real r.real) =
        SignType.sign (cross p'.real q'.real r'.real) := by
  have code : ∀ a : Int, SignType.sign (a : ℝ) =
      if a = 0 then 0 else if a > 0 then 1 else -1 := by
    intro a
    split_ifs with zero positive
    · rw [zero, Int.cast_zero, sign_zero]
    · exact sign_pos (Int.cast_pos.mpr positive)
    · exact sign_neg (Int.cast_lt_zero.mpr (by omega))
  rw [helperOrientation_eq fits, helperOrientation_eq fits', cross_real, cross_real, code, code]
  split_ifs <;> decide

theorem helperOnSegment_iff : helperOnSegment p q r = true ↔ InBox p.real r.real q.real := by
  simp only [helperOnSegment, InBox, NxgiPoint.real, Bool.and_eq_true, decide_eq_true_eq]
  rw [← Int.cast_min, ← Int.cast_max, ← Int.cast_min, ← Int.cast_max]
  simp only [Int.cast_le]
  tauto

/-- A special case of the test: an end of one segment is on the other. -/
theorem onSegment_iff (fits : OrientationFits p q r) :
    (helperOrientation p q r = 0 ∧ helperOnSegment p r q = true) ↔ r.real ∈ closedSegment p q := by
  rw [closedSegment, mem_segment_iff, helperOrientation_eq_zero_iff fits, helperOnSegment_iff]

/-- The four orientations of the test do not overflow. -/
structure OrientationsFit (p1 q1 p2 q2 : NxgiPoint) : Prop where
  o1 : OrientationFits p1 q1 p2
  o2 : OrientationFits p1 q1 q2
  o3 : OrientationFits p2 q2 p1
  o4 : OrientationFits p2 q2 q1

theorem nxgigSegmentSegmentIntersect_iff (fit : OrientationsFit p1 q1 p2 q2) :
    nxgigSegmentSegmentIntersect p1 q1 p2 q2 = true ↔
      (closedSegment p1 q1 ∩ closedSegment p2 q2).Nonempty := by
  have general1 := not_congr (helperOrientation_eq_iff fit.o1 fit.o2)
  have general2 := not_congr (helperOrientation_eq_iff fit.o3 fit.o4)
  have test : nxgigSegmentSegmentIntersect p1 q1 p2 q2 = true ↔
      (helperOrientation p1 q1 p2 ≠ helperOrientation p1 q1 q2 ∧
        helperOrientation p2 q2 p1 ≠ helperOrientation p2 q2 q1) ∨
      (helperOrientation p1 q1 p2 = 0 ∧ helperOnSegment p1 p2 q1 = true) ∨
      (helperOrientation p1 q1 q2 = 0 ∧ helperOnSegment p1 q2 q1 = true) ∨
      (helperOrientation p2 q2 p1 = 0 ∧ helperOnSegment p2 p1 q2 = true) ∨
      (helperOrientation p2 q2 q1 = 0 ∧ helperOnSegment p2 q1 q2 = true) := by
    simp only [nxgigSegmentSegmentIntersect, Bool.if_true_left, Bool.or_eq_true, Bool.or_false,
      decide_eq_true_eq]
  rw [test, onSegment_iff fit.o1, onSegment_iff fit.o2, onSegment_iff fit.o3, onSegment_iff fit.o4,
    ne_eq, ne_eq, general1, general2]
  exact meet_iff.symm

theorem nxgigPointInRect_iff_mem : nxgigPointInRect p rect = true ↔ p.real ∈ rect.closed := by
  rw [nxgigPointInRect_iff]
  simp only [NxgiRect.closed, mem_Icc, NxgiRect.p1, NxgiRect.p2, NxgiPoint.real, Prod.mk_le_mk,
    Int.cast_le]
  tauto

/-- The orientations of a segment and the edges of a rectangle do not overflow. -/
structure EdgesFit (l1 l2 : NxgiPoint) (r : NxgiRect) : Prop where
  top : OrientationsFit l1 l2 ⟨r.x1, r.y1⟩ ⟨r.x2, r.y1⟩
  right : OrientationsFit l1 l2 ⟨r.x2, r.y1⟩ ⟨r.x2, r.y2⟩
  bottom : OrientationsFit l1 l2 ⟨r.x2, r.y2⟩ ⟨r.x1, r.y2⟩
  left : OrientationsFit l1 l2 ⟨r.x1, r.y2⟩ ⟨r.x1, r.y1⟩

theorem nxgigLineRectIntersect_iff {l1 l2 : NxgiPoint} (fit : EdgesFit l1 l2 rect)
    (orderedX : rect.x1 ≤ rect.x2) (orderedY : rect.y1 ≤ rect.y2) :
    nxgigLineRectIntersect l1 l2 rect = true ↔
      (closedSegment l1 l2 ∩ rect.closed).Nonempty := by
  have ordered : rect.p1.real ≤ rect.p2.real :=
    ⟨Int.cast_le.mpr orderedX, Int.cast_le.mpr orderedY⟩
  simp only [nxgigLineRectIntersect, Bool.or_eq_true, Bool.and_eq_true, nxgigPointInRect_iff_mem,
    nxgigSegmentSegmentIntersect_iff fit.top, nxgigSegmentSegmentIntersect_iff fit.right,
    nxgigSegmentSegmentIntersect_iff fit.bottom, nxgigSegmentSegmentIntersect_iff fit.left]
  rw [NxgiRect.closed, closedSegment, meets_rect_iff ordered]
  simp only [or_assoc]
  rfl

/-! ## Small coordinates -/

theorem orientationFits_of_bound {a b c d : Int} (first : |q.y - p.y| ≤ a) (second : |r.x - q.x| ≤ b)
    (third : |q.x - p.x| ≤ c) (fourth : |r.y - q.y| ≤ d) (small : a * b + c * d < 2 ^ 31) :
    OrientationFits p q r := by
  have left : |(q.y - p.y) * (r.x - q.x)| ≤ a * b := by
    rw [abs_mul]
    exact mul_le_mul first second (abs_nonneg _) ((abs_nonneg _).trans first)
  have right : |(q.x - p.x) * (r.y - q.y)| ≤ c * d := by
    rw [abs_mul]
    exact mul_le_mul third fourth (abs_nonneg _) ((abs_nonneg _).trans third)
  rw [abs_le] at left right
  rw [OrientationFits, orientation]
  constructor <;> omega

/-- Coordinates of an absolute value below `2 ^ 14`. -/
structure NxgiPoint.Small (p : NxgiPoint) : Prop where
  x : |p.x| < 2 ^ 14
  y : |p.y| < 2 ^ 14

theorem NxgiPoint.Small.orientationFits (first : p.Small) (second : q.Small) (third : r.Small) :
    OrientationFits p q r := by
  have ⟨firstX, firstY⟩ := first
  have ⟨secondX, secondY⟩ := second
  have ⟨thirdX, thirdY⟩ := third
  rw [abs_lt] at firstX firstY secondX secondY thirdX thirdY
  exact @orientationFits_of_bound p q r (2 ^ 15 - 2) (2 ^ 15 - 2) (2 ^ 15 - 2) (2 ^ 15 - 2)
    (abs_le.mpr (by omega)) (abs_le.mpr (by omega)) (abs_le.mpr (by omega))
    (abs_le.mpr (by omega)) (by norm_num)

theorem NxgiPoint.Small.orientationsFit (first1 : p1.Small) (last1 : q1.Small) (first2 : p2.Small)
    (last2 : q2.Small) : OrientationsFit p1 q1 p2 q2 :=
  ⟨first1.orientationFits last1 first2, first1.orientationFits last1 last2,
    first2.orientationFits last2 first1, first2.orientationFits last2 last1⟩

/-- The tests are exact for points with small coordinates: two segments intersect when they share a
point, and a segment intersects a rectangle when it shares a point with it. -/
theorem intersect_iff_of_small :
    (∀ p1 q1 p2 q2 : NxgiPoint, p1.Small → q1.Small → p2.Small → q2.Small →
      (nxgigSegmentSegmentIntersect p1 q1 p2 q2 = true ↔
        (closedSegment p1 q1 ∩ closedSegment p2 q2).Nonempty)) ∧
    ∀ (l1 l2 : NxgiPoint) (r : NxgiRect), l1.Small → l2.Small → r.p1.Small → r.p2.Small →
      r.x1 ≤ r.x2 → r.y1 ≤ r.y2 →
      (nxgigLineRectIntersect l1 l2 r = true ↔ (closedSegment l1 l2 ∩ r.closed).Nonempty) := by
  constructor
  · intro p1 q1 p2 q2 first1 last1 first2 last2
    exact nxgigSegmentSegmentIntersect_iff (first1.orientationsFit last1 first2 last2)
  · intro l1 l2 r first last ⟨left, top⟩ ⟨right, bottom⟩ orderedX orderedY
    have leftTop : (⟨r.x1, r.y1⟩ : NxgiPoint).Small := ⟨left, top⟩
    have rightTop : (⟨r.x2, r.y1⟩ : NxgiPoint).Small := ⟨right, top⟩
    have rightBottom : (⟨r.x2, r.y2⟩ : NxgiPoint).Small := ⟨right, bottom⟩
    have leftBottom : (⟨r.x1, r.y2⟩ : NxgiPoint).Small := ⟨left, bottom⟩
    exact nxgigLineRectIntersect_iff ⟨first.orientationsFit last leftTop rightTop,
      first.orientationsFit last rightTop rightBottom,
      first.orientationsFit last rightBottom leftBottom,
      first.orientationsFit last leftBottom leftTop⟩ orderedX orderedY

/-- Two segments that share one end and are in line, and a segment that touches a corner. -/
theorem intersect_iff_of_small_touching :
    (closedSegment ⟨0, 0⟩ ⟨2, 2⟩ ∩ closedSegment ⟨2, 2⟩ ⟨5, 5⟩).Nonempty ∧
      (closedSegment ⟨-1, 1⟩ ⟨1, -1⟩ ∩ (⟨0, 0, 3, 3⟩ : NxgiRect).closed).Nonempty := by
  have small : ∀ x y : Int, |x| < 2 ^ 14 → |y| < 2 ^ 14 → (⟨x, y⟩ : NxgiPoint).Small :=
    fun _ _ column row => ⟨column, row⟩
  exact ⟨(intersect_iff_of_small.1 ⟨0, 0⟩ ⟨2, 2⟩ ⟨2, 2⟩ ⟨5, 5⟩ (small _ _ (by decide) (by decide))
      (small _ _ (by decide) (by decide)) (small _ _ (by decide) (by decide))
      (small _ _ (by decide) (by decide))).mp (by decide),
    (intersect_iff_of_small.2 ⟨-1, 1⟩ ⟨1, -1⟩ ⟨0, 0, 3, 3⟩ (small _ _ (by decide) (by decide))
      (small _ _ (by decide) (by decide)) (small _ _ (by decide) (by decide))
      (small _ _ (by decide) (by decide)) (by decide) (by decide)).mp (by decide)⟩

end Antonix
