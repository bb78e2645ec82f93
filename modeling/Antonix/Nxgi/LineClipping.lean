import Antonix.Nxgi.LinePixels

/-! # Clipped lines

The clipping of a line limits the coordinates of its ends, and the line between the limited
ends is drawn.  That is the part of the line in the clipping rectangle only by chance: the
new line has another slope, or is rounded in another way.  And a line along an axis is half
open, and lies on a far edge of the clipping rectangle if it was there. -/

namespace Antonix

open Set

variable {t : NxgiBitmap} {clip : NxgiRect} {gc : NxgiGraphicsContext} {p1 p2 p : NxgiPoint}

/-! ## Lines along an axis -/

/-- Clipping keeps a point between two others between their clipped points. -/
theorem Between.clipped (between : Between p1 p2 p) (onClip : OnClip clip p) :
    Between (nxgigClipPoint p1 clip) (nxgigClipPoint p2 clip) p := by
  obtain ⟨left, right, top, bottom⟩ := between
  obtain ⟨afterX, beforeX, afterY, beforeY⟩ := onClip
  simp only [nxgigClipPoint]
  constructor
  all_goals
    simp only
    split_ifs <;> omega

/-- The calls draw one area each. -/
theorem DrawsPixels.unique {area area' : Set NxgiPoint} (draws : DrawsPixels gc t p1 p2 area)
    (draws' : DrawsPixels gc t p1 p2 area') : area = area' := by
  obtain ⟨pixels, line, rfl⟩ := draws
  obtain ⟨pixels', line', rfl⟩ := draws'
  rw [(Prod.mk.inj (Except.ok.inj (line.call.symm.trans line'.call))).2]

end Antonix
