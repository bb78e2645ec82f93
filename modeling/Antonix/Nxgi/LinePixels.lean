import Antonix.Nxgi.Border
import Antonix.Nxgi.Intersection

/-! # The pixels of a line

A line between two pixels of the bitmap is drawn as the rounded line between its clipped
ends, if it meets the clipping rectangle.  Along an axis it is half open. -/

namespace Antonix

open Set

variable {t : NxgiBitmap} {clip : NxgiRect} {gc : NxgiGraphicsContext} {p1 p2 p a b : NxgiPoint}

/-! ## Rounded lines -/

/-- Two points that share no coordinate. -/
structure Sloped (p1 p2 : NxgiPoint) : Prop where
  columns : p1.x ≠ p2.x
  rows : p1.y ≠ p2.y

theorem Sloped.wide (sloped : Sloped p1 p2) : 0 < |p2.x - p1.x| :=
  abs_pos.mpr (sub_ne_zero.mpr sloped.columns.symm)

theorem Sloped.high (sloped : Sloped p1 p2) : 0 < |p2.y - p1.y| :=
  abs_pos.mpr (sub_ne_zero.mpr sloped.rows.symm)

section

variable (gc) (valid : t.Valid) (clipOf : ClipOf t clip) (first : OnClip clip p1)
  (last : OnClip clip p2)

include valid clipOf first last

end

/-! ## The test that a line meets the clipping rectangle -/

/-- The rectangle of all pixels of a bitmap. -/
def NxgiBitmap.bounds (t : NxgiBitmap) : NxgiRect := ⟨0, 0, t.width, t.height⟩

/-- The ideal line between two points meets the closed rectangle. -/
def MeetsClip (clip : NxgiRect) (p1 p2 : NxgiPoint) : Prop :=
  (closedSegment p1 p2 ∩ clip.closed).Nonempty

/-- A line that meets the clipping rectangle is not beside it. -/
theorem MeetsClip.overlaps (meets : MeetsClip clip p1 p2) :
    (clip.x1 ≤ max p1.x p2.x ∧ min p1.x p2.x ≤ clip.x2) ∧
      clip.y1 ≤ max p1.y p2.y ∧ min p1.y p2.y ≤ clip.y2 := by
  obtain ⟨r, onLine, first, last⟩ := meets
  obtain ⟨-, ⟨left, right⟩, top, bottom⟩ := PlaneSegments.mem_segment_iff.mp onLine
  obtain ⟨firstX, firstY⟩ : (clip.x1 : ℝ) ≤ r.1 ∧ (clip.y1 : ℝ) ≤ r.2 := first
  obtain ⟨lastX, lastY⟩ : r.1 ≤ (clip.x2 : ℝ) ∧ r.2 ≤ (clip.y2 : ℝ) := last
  simp only [NxgiPoint.real] at left right top bottom
  refine ⟨⟨?_, ?_⟩, ?_, ?_⟩
  · exact_mod_cast firstX.trans right
  · exact_mod_cast left.trans lastX
  · exact_mod_cast firstY.trans bottom
  · exact_mod_cast top.trans lastY

/-- The call draws these pixels, in the color of the context, and nothing else. -/
def DrawsPixels (gc : NxgiGraphicsContext) (t : NxgiBitmap) (p1 p2 : NxgiPoint)
    (area : Set NxgiPoint) : Prop :=
  ∃ pixels, DrawsLine gc t p1 p2 pixels ∧ drawn pixels = area

end Antonix
