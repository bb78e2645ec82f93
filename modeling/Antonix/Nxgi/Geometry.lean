import Antonix.Types
import Mathlib.Tactic.SplitIfs

/-! # Points and rectangles (`nxgi_geometry.c`)

Coordinates are `int32_t`: integers here, with `i32` where the source adds,
subtracts or multiplies them.  A rectangle contains its far edges in every test
of this file. -/

namespace Antonix

/-- `NXGI_POINT` -/
@[ext] structure NxgiPoint where
  x : Int
  y : Int
  deriving DecidableEq, Repr

/-- `NXGI_RECT` -/
@[ext] structure NxgiRect where
  x1 : Int
  y1 : Int
  x2 : Int
  y2 : Int
  deriving DecidableEq, Repr

/-- The member `p1` of the union in `NXGI_RECT`. -/
def NxgiRect.p1 (r : NxgiRect) : NxgiPoint := ⟨r.x1, r.y1⟩

/-- The member `p2` of the union in `NXGI_RECT`. -/
def NxgiRect.p2 (r : NxgiRect) : NxgiPoint := ⟨r.x2, r.y2⟩

/-- A rectangle with these corners. -/
def NxgiRect.ofPoints (p1 p2 : NxgiPoint) : NxgiRect := ⟨p1.x, p1.y, p2.x, p2.y⟩

/-- `RECT_WIDTH` -/
def rectWidth (r : NxgiRect) : Int := i32 (r.x2 - r.x1)

/-- `RECT_HEIGHT` -/
def rectHeight (r : NxgiRect) : Int := i32 (r.y2 - r.y1)

/-- `nxgig_clip_point` -/
def nxgigClipPoint (p : NxgiPoint) (r : NxgiRect) : NxgiPoint where
  x := if p.x < r.x1 then r.x1 else if p.x > r.x2 then r.x2 else p.x
  y := if p.y < r.y1 then r.y1 else if p.y > r.y2 then r.y2 else p.y

/-- `nxgig_point_in_rect` -/
def nxgigPointInRect (p : NxgiPoint) (r : NxgiRect) : Bool :=
  p.x ≥ r.x1 && p.x ≤ r.x2 && p.y ≥ r.y1 && p.y ≤ r.y2

/-- `nxgig_rect_intersect` -/
def nxgigRectIntersect (r1 r2 : NxgiRect) : Bool :=
  !(r2.x1 > r1.x2 || r2.x2 < r1.x1 || r2.y1 > r1.y2 || r2.y2 < r1.y1)

/-- `nxgig_rect_contains_rect` -/
def nxgigRectContainsRect (containee container : NxgiRect) : Bool :=
  nxgigPointInRect containee.p1 container && nxgigPointInRect containee.p2 container

/-- `nxgig_rects_union` -/
def nxgigRectsUnion (r1 r2 : NxgiRect) : NxgiRect where
  x1 := if r1.x1 < r2.x1 then r1.x1 else r2.x1
  y1 := if r1.y1 < r2.y1 then r1.y1 else r2.y1
  x2 := if r1.x2 > r2.x2 then r1.x2 else r2.x2
  y2 := if r1.y2 > r2.y2 then r1.y2 else r2.y2

/-- `nxgig_rect_area` -/
def nxgigRectArea (r : NxgiRect) : Nat := asU32 (rectWidth r * rectHeight r)

/-- `nxgig_point_add` -/
def nxgigPointAdd (p1 p2 : NxgiPoint) : NxgiPoint := ⟨i32 (p1.x + p2.x), i32 (p1.y + p2.y)⟩

/-- `nxgig_rect_offset` -/
def nxgigRectOffset (r : NxgiRect) (vector : NxgiPoint) : NxgiRect :=
  .ofPoints (nxgigPointAdd r.p1 vector) (nxgigPointAdd r.p2 vector)

/-- `helper_on_segment` -/
def helperOnSegment (p q r : NxgiPoint) : Bool :=
  q.x ≤ max p.x r.x && q.x ≥ min p.x r.x && q.y ≤ max p.y r.y && q.y ≥ min p.y r.y

/-- `helper_orientation` -/
def helperOrientation (p q r : NxgiPoint) : Int :=
  let val := i32 (i32 (i32 (q.y - p.y) * i32 (r.x - q.x)) - i32 (i32 (q.x - p.x) * i32 (r.y - q.y)))
  if val = 0 then 0 else if val > 0 then 1 else 2

/-- `nxgig_segment_segment_intersect` -/
def nxgigSegmentSegmentIntersect (p1 q1 p2 q2 : NxgiPoint) : Bool :=
  let o1 := helperOrientation p1 q1 p2
  let o2 := helperOrientation p1 q1 q2
  let o3 := helperOrientation p2 q2 p1
  let o4 := helperOrientation p2 q2 q1
  if o1 ≠ o2 ∧ o3 ≠ o4 then true
  else if o1 = 0 ∧ helperOnSegment p1 p2 q1 then true
  else if o2 = 0 ∧ helperOnSegment p1 q2 q1 then true
  else if o3 = 0 ∧ helperOnSegment p2 p1 q2 then true
  else if o4 = 0 ∧ helperOnSegment p2 q1 q2 then true
  else false

/-- `nxgig_line_rect_intersect` -/
def nxgigLineRectIntersect (l1 l2 : NxgiPoint) (r2 : NxgiRect) : Bool :=
  let edgeIntersect :=
    nxgigSegmentSegmentIntersect l1 l2 ⟨r2.x1, r2.y1⟩ ⟨r2.x2, r2.y1⟩ ||
    nxgigSegmentSegmentIntersect l1 l2 ⟨r2.x2, r2.y1⟩ ⟨r2.x2, r2.y2⟩ ||
    nxgigSegmentSegmentIntersect l1 l2 ⟨r2.x2, r2.y2⟩ ⟨r2.x1, r2.y2⟩ ||
    nxgigSegmentSegmentIntersect l1 l2 ⟨r2.x1, r2.y2⟩ ⟨r2.x1, r2.y1⟩
  let contain := nxgigPointInRect l1 r2 && nxgigPointInRect l2 r2
  edgeIntersect || contain

theorem nxgigPointInRect_iff {p : NxgiPoint} {r : NxgiRect} :
    nxgigPointInRect p r ↔ (r.x1 ≤ p.x ∧ p.x ≤ r.x2) ∧ r.y1 ≤ p.y ∧ p.y ≤ r.y2 := by
  simp [nxgigPointInRect, and_assoc]

/-! ## Clipping -/

/-- A coordinate limited to a range. -/
def clampTo (low high x : Int) : Int := if x < low then low else if x > high then high else x

theorem nxgigClipPoint_eq (p : NxgiPoint) (r : NxgiRect) :
    nxgigClipPoint p r = ⟨clampTo r.x1 r.x2 p.x, clampTo r.y1 r.y2 p.y⟩ := rfl

theorem clampTo_inside {low high : Int} (ordered : low ≤ high) (x : Int) :
    low ≤ clampTo low high x ∧ clampTo low high x ≤ high := by
  unfold clampTo
  split
  · omega
  · split <;> omega

theorem clampTo_mono {low high x y : Int} (ordered : low ≤ high) (below : x ≤ y) :
    clampTo low high x ≤ clampTo low high y := by
  simp only [clampTo]
  split_ifs <;> omega

theorem clampTo_of_inside {low high x : Int} (above : low ≤ x) (below : x ≤ high) :
    clampTo low high x = x := by
  rw [clampTo, if_neg (by omega), if_neg (by omega)]

end Antonix
