import Antonix.Nxgi.Text

/-! # Drawing inside the clipping rectangle

Filled rectangles and copies stay inside the clipping rectangle, whatever they are asked
for.  Lines, rectangles and text write to its far edges, and text that starts left of
column 0 writes to another place in memory: each has the condition under which it does
not, and a sequence of calls stays inside exactly when every call meets its condition. -/

namespace Antonix

variable {t : NxgiBitmap} {clip : NxgiRect} {gc : NxgiGraphicsContext}

/-! ## Filled rectangles -/

theorem fillRows_inside (valid : t.Valid) (clipOf : ClipOf t clip) {x1 x2 y : Int} {rows : Nat}
    (left : clip.x1 ≤ x1 ∧ x1 ≤ clip.x2) (right : clip.x1 ≤ x2 ∧ x2 ≤ clip.x2)
    (top : clip.y1 ≤ y) (bottom : y + rows ≤ clip.y2) :
    ∀ w ∈ fillRows gc t x1 x2 rows y, InsideClip t clip w := by
  have ⟨atLeft, _, width, atTop, _, height⟩ := clipOf
  have wide := valid.width_lt
  have high := valid.height_le
  obtain ⟨first, sameX1⟩ := Int.eq_ofNat_of_zero_le (show 0 ≤ x1 by omega)
  obtain ⟨last, sameX2⟩ := Int.eq_ofNat_of_zero_le (show 0 ≤ x2 by omega)
  subst sameX1 sameX2
  induction rows generalizing y with
  | zero => simp [fillRows]
  | succ rows inductionHypothesis =>
    push_cast at bottom
    obtain ⟨row, sameY⟩ := Int.eq_ofNat_of_zero_le (show 0 ≤ y by omega)
    subst sameY
    rw [fillRows, List.forall_mem_append, asU32_natCast (by omega), asU32_natCast (by omega),
      asU32_natCast (by omega)]
    constructor
    · exact (hline_inside_iff gc valid clipOf ⟨left.1, left.2, top, by simp only; omega⟩
        ⟨right.1, right.2, top, by simp only; omega⟩).mpr (.inr (by omega))
    · exact inductionHypothesis (by omega) (by omega)

theorem graphicsFillRect_inside (valid : t.Valid) (target : gc.target = some t)
    (clipOf : ClipOf t gc.clipRect) (rect : NxgiRect) :
    ∀ w ∈ (graphicsFillRect gc rect).2, InsideClip t gc.clipRect w := by
  have ⟨left1, right1, top1, bottom1⟩ := onClip_transformPoint clipOf rect.p1
  have ⟨left2, right2, top2, bottom2⟩ := onClip_transformPoint clipOf rect.p2
  simp only [graphicsFillRect, target]
  split
  · simp
  · by_cases swapped : (intrnlTransformPoint gc rect.p1).y > (intrnlTransformPoint gc rect.p2).y
    · rw [if_pos swapped]
      exact fillRows_inside valid clipOf ⟨left1, right1⟩ ⟨left2, right2⟩ top2 (by simp only; omega)
    · rw [if_neg swapped]
      exact fillRows_inside valid clipOf ⟨left1, right1⟩ ⟨left2, right2⟩ top1 (by simp only; omega)

/-! ## Copies -/

theorem bitbltRows_inside (valid : t.Valid) (clipOf : ClipOf t clip) {src : NxgiBitmap}
    (depth : src.bitsPerPixel = 32) {dst : NxgiRect} {srcPos : NxgiPoint} {rows : Nat} {j : Int}
    {memory : ByteMem} (columns : clip.x1 ≤ dst.x1 ∧ dst.x1 ≤ dst.x2 ∧ dst.x2 ≤ clip.x2)
    (top : clip.y1 ≤ dst.y1 + j) (bottom : dst.y1 + j + rows ≤ clip.y2) :
    ∀ w ∈ bitbltRows t src dst srcPos rows j memory, InsideClip t clip w := by
  have ⟨atLeft, _, width, atTop, _, height⟩ := clipOf
  have wide := valid.width_lt
  have high := valid.height_le
  have lineSize : u32 (asU32 (rectWidth dst) * src.bitsPerPixel) / 8 / 4 =
      (dst.x2 - dst.x1).toNat := by
    rw [rectWidth, i32_of_range (by omega) (by omega), depth]
    simp only [u32, asU32]
    omega
  obtain ⟨x, sameX⟩ := Int.eq_ofNat_of_zero_le (show 0 ≤ dst.x1 by omega)
  induction rows generalizing j memory with
  | zero => simp [bitbltRows]
  | succ rows inductionHypothesis =>
    push_cast at bottom
    obtain ⟨y, sameY⟩ := Int.eq_ofNat_of_zero_le (show 0 ≤ dst.y1 + j by omega)
    simp only [bitbltRows, List.forall_mem_append]
    constructor
    · intro w member
      obtain ⟨k, inRow, rfl⟩ := List.mem_map.mp member
      rw [List.mem_range, lineSize] at inRow
      refine ⟨by simp only; omega, by simp only; omega, top, by simp only; omega, ?_⟩
      have address := valid.address (x := x + k) (y := y) (by omega) (by omega)
      simp only [sameX, sameY]
      rw [i32_of_range (by omega) (by omega), asU32_natCast (by omega), asU32_natCast (by omega),
        valid.pixelPtr_inside (by omega) (by omega), show t.pBits + y * t.stride + 4 * x + 4 * k =
          t.pBits + y * t.stride + 4 * (x + k) by omega, address]
      push_cast
      rfl
    · exact inductionHypothesis (by omega) (by omega)

/-- The sums that position a copy along one axis do not overflow. -/
structure BlitSums (dst size offset : Int) : Prop where
  near : FitsI32 (dst + offset)
  far : FitsI32 (dst + size)
  farMoved : FitsI32 (dst + size + offset)

theorem graphicsBitblt_inside (valid : t.Valid) (target : gc.target = some t)
    (clipOf : ClipOf t gc.clipRect) {src : NxgiBitmap} (source : src.format = .bgra32 → src.Valid)
    {memory : ByteMem} {dstPos : NxgiPoint} {srcRect : NxgiRect} (orderedX : srcRect.x1 ≤ srcRect.x2)
    (orderedY : srcRect.y1 ≤ srcRect.y2)
    (sumsX : BlitSums dstPos.x (srcRect.x2 - srcRect.x1) gc.offset.x)
    (sumsY : BlitSums dstPos.y (srcRect.y2 - srcRect.y1) gc.offset.y) :
    ∀ w ∈ (graphicsBitblt gc memory dstPos src srcRect).2, InsideClip t gc.clipRect w := by
  have columns := clampTo_mono clipOf.orderedX
    (show dstPos.x + gc.offset.x ≤ dstPos.x + (srcRect.x2 - srcRect.x1) + gc.offset.x by omega)
  have rows := clampTo_mono clipOf.orderedY
    (show dstPos.y + gc.offset.y ≤ dstPos.y + (srcRect.y2 - srcRect.y1) + gc.offset.y by omega)
  have nearX := clampTo_inside clipOf.orderedX (dstPos.x + gc.offset.x)
  have nearY := clampTo_inside clipOf.orderedY (dstPos.y + gc.offset.y)
  have farX := clampTo_inside clipOf.orderedX (dstPos.x + (srcRect.x2 - srcRect.x1) + gc.offset.x)
  have farY := clampTo_inside clipOf.orderedY (dstPos.y + (srcRect.y2 - srcRect.y1) + gc.offset.y)
  have ⟨atLeft, _, width, atTop, _, height⟩ := clipOf
  have wide := valid.width_lt
  have high := valid.height_le
  simp only [graphicsBitblt, target]
  by_cases format : src.format = t.format
  · have srcValid := source (format.trans valid.format)
    have srcWide := srcValid.width_lt
    have srcHigh := srcValid.height_le
    rw [if_neg (not_not.mpr format)]
    split
    · simp
    · rename_i contained
      have within : nxgigRectContainsRect srcRect ⟨0, 0, src.width, src.height⟩ := by
        simpa [i32_of_small (show src.width < 2 ^ 31 by omega),
          i32_of_small (show src.height < 2 ^ 31 by omega)] using contained
      simp only [nxgigRectContainsRect, Bool.and_eq_true, nxgigPointInRect_iff, NxgiRect.p1,
        NxgiRect.p2] at within
      have widthEq : rectWidth srcRect = srcRect.x2 - srcRect.x1 :=
        i32_of_range (by omega) (by omega)
      have heightEq : rectHeight srcRect = srcRect.y2 - srcRect.y1 :=
        i32_of_range (by omega) (by omega)
      split
      · simp
      · simp only [widthEq, heightEq, i32_of_range sumsX.far.1 sumsX.far.2,
          i32_of_range sumsY.far.1 sumsY.far.2,
          intrnlTransformPoint_eq clipOf.orderedX clipOf.orderedY,
          i32_of_range sumsX.near.1 sumsX.near.2, i32_of_range sumsY.near.1 sumsY.near.2,
          i32_of_range sumsX.farMoved.1 sumsX.farMoved.2,
          i32_of_range sumsY.farMoved.1 sumsY.farMoved.2, NxgiRect.ofPoints]
        simp only [rectHeight, clipOf.i32_rows valid]
        apply bitbltRows_inside valid clipOf srcValid.depth
        all_goals
          simp only
          omega
  · rw [if_pos format]
    simp

/-! ## Lines and rectangles -/

/-- The line is not drawn, or its clipped form keeps off the far edges. -/
def LineStaysInside (gc : NxgiGraphicsContext) (p1 p2 : NxgiPoint) : Prop :=
  lineMeetsClip gc p1 p2 = true →
    ClippedLineInside gc.clipRect (intrnlTransformPoint gc p1) (intrnlTransformPoint gc p2)

theorem graphicsDrawLine_inside_iff (valid : t.Valid) (target : gc.target = some t)
    (clipOf : ClipOf t gc.clipRect) (x1 y1 x2 y2 : Nat) :
    ∃ pixels, graphicsDrawLine gc x1 y1 x2 y2 = .ok (.sOk, pixels) ∧
      ((∀ w ∈ pixels, InsideClip t gc.clipRect w) ↔
        LineStaysInside gc ⟨i32 x1, i32 y1⟩ ⟨i32 x2, i32 y2⟩) := by
  simp only [graphicsDrawLine, target, LineStaysInside]
  by_cases meets : lineMeetsClip gc ⟨i32 x1, i32 y1⟩ ⟨i32 x2, i32 y2⟩ = true
  · obtain ⟨pixels, drawn, inside⟩ := drawClippedLine_inside_iff gc valid clipOf
      (onClip_transformPoint clipOf ⟨i32 x1, i32 y1⟩)
      (onClip_transformPoint clipOf ⟨i32 x2, i32 y2⟩)
    exact ⟨pixels, by rw [if_pos meets, drawn]; rfl, by simpa [meets] using inside⟩
  · exact ⟨[], by rw [if_neg meets], by simp [meets]⟩

theorem graphicsDrawLine_points (valid : t.Valid) (target : gc.target = some t)
    (clipOf : ClipOf t gc.clipRect) {x1 y1 x2 y2 : Int} (fits1 : FitsI32 x1 ∧ FitsI32 y1)
    (fits2 : FitsI32 x2 ∧ FitsI32 y2) :
    ∃ pixels, graphicsDrawLine gc (asU32 x1) (asU32 y1) (asU32 x2) (asU32 y2) =
        .ok (.sOk, pixels) ∧
      ((∀ w ∈ pixels, InsideClip t gc.clipRect w) ↔ LineStaysInside gc ⟨x1, y1⟩ ⟨x2, y2⟩) := by
  have line := graphicsDrawLine_inside_iff valid target clipOf (asU32 x1) (asU32 y1) (asU32 x2)
    (asU32 y2)
  rw [i32_asU32 fits1.1.1 fits1.1.2, i32_asU32 fits1.2.1 fits1.2.2, i32_asU32 fits2.1.1 fits2.1.2,
    i32_asU32 fits2.2.1 fits2.2.2] at line
  exact line

/-- The four lines of a rectangle stay inside, if it has an inside that is drawn. -/
def RectStaysInside (gc : NxgiGraphicsContext) (rect : NxgiRect) : Prop :=
  rect.x1 ≠ rect.x2 → rect.y1 ≠ rect.y2 → rect.x1 ≠ rect.x2 - 1 → rect.y1 ≠ rect.y2 - 1 →
    (LineStaysInside gc ⟨rect.x1, rect.y1⟩ ⟨rect.x2 - 1, rect.y1⟩ ∧
      LineStaysInside gc ⟨rect.x2 - 1, rect.y1⟩ ⟨rect.x2 - 1, rect.y2 - 1⟩) ∧
    LineStaysInside gc ⟨rect.x2 - 1, rect.y2 - 1⟩ ⟨rect.x1, rect.y2 - 1⟩ ∧
      LineStaysInside gc ⟨rect.x1, rect.y2 - 1⟩ ⟨rect.x1, rect.y1⟩

/-- The corners that a rectangle is drawn between are values of `int32_t`. -/
structure RectSums (rect : NxgiRect) : Prop where
  left : FitsI32 rect.x1
  top : FitsI32 rect.y1
  right : FitsI32 (rect.x2 - 1)
  bottom : FitsI32 (rect.y2 - 1)

theorem graphicsDrawRect_inside_iff (valid : t.Valid) (target : gc.target = some t)
    (clipOf : ClipOf t gc.clipRect) {rect : NxgiRect} (sums : RectSums rect) :
    ∃ hr pixels, graphicsDrawRect gc rect = .ok (hr, pixels) ∧
      ((∀ w ∈ pixels, InsideClip t gc.clipRect w) ↔ RectStaysInside gc rect) := by
  have ⟨left, top, right, bottom⟩ := sums
  rw [graphicsDrawRect, if_neg (by simp [target])]
  by_cases empty : rect.x1 = rect.x2 ∨ rect.y1 = rect.y2
  · refine ⟨_, _, if_pos empty, iff_of_true (by simp) ?_⟩
    intro apartX apartY
    cases empty with
    | inl same => exact absurd same apartX
    | inr same => exact absurd same apartY
  · simp only [if_neg empty, i32_of_range right.1 right.2, i32_of_range bottom.1 bottom.2]
    by_cases flat : rect.x1 = rect.x2 - 1 ∨ rect.y1 = rect.y2 - 1
    · refine ⟨_, _, if_pos flat, iff_of_true (by simp) ?_⟩
      intro _ _ apartX apartY
      cases flat with
      | inl same => exact absurd same apartX
      | inr same => exact absurd same apartY
    · obtain ⟨above, drawnAbove, insideAbove⟩ :=
        graphicsDrawLine_points valid target clipOf ⟨left, top⟩ ⟨right, top⟩
      obtain ⟨behind, drawnBehind, insideBehind⟩ :=
        graphicsDrawLine_points valid target clipOf ⟨right, top⟩ ⟨right, bottom⟩
      obtain ⟨below, drawnBelow, insideBelow⟩ :=
        graphicsDrawLine_points valid target clipOf ⟨right, bottom⟩ ⟨left, bottom⟩
      obtain ⟨before, drawnBefore, insideBefore⟩ :=
        graphicsDrawLine_points valid target clipOf ⟨left, bottom⟩ ⟨left, top⟩
      refine ⟨.sOk, above ++ behind ++ below ++ before, ?_, ?_⟩
      · simp only [if_neg flat, drawnAbove, drawnBehind, drawnBelow, drawnBefore]
        rfl
      · simp only [not_or] at empty flat
        simp only [List.forall_mem_append, insideAbove, insideBehind, insideBelow, insideBefore,
          RectStaysInside, ne_eq, empty, flat, not_false_eq_true, true_implies, and_assoc]

/-! ## Memory -/

/-- A color changes the four bytes that it is stored in. -/
theorem storeColor_of_apart {memory : ByteMem} {a b : Nat} {c : NxgiColor} (fits : a + 4 ≤ 2 ^ 32)
    (apart : b < a ∨ a + 4 ≤ b) : storeColor memory a c b = memory b := by
  simp only [storeColor]
  rw [u32_of_lt (x := a) (by omega), u32_of_lt (x := a + 1) (by omega),
    u32_of_lt (x := a + 2) (by omega), u32_of_lt (x := a + 3) (by omega),
    Function.update_of_ne (by omega), Function.update_of_ne (by omega),
    Function.update_of_ne (by omega), Function.update_of_ne (by omega)]

theorem writePixels_cons (memory : ByteMem) (w : PixelWrite) (rest : List PixelWrite) :
    writePixels memory (w :: rest) = writePixels (storeColor memory w.pixel w.color) rest := rfl

theorem writePixels_of_apart {memory : ByteMem} {pixels : List PixelWrite} {a : Nat}
    (fits : ∀ w ∈ pixels, w.pixel + 4 ≤ 2 ^ 32)
    (apart : ∀ w ∈ pixels, a < w.pixel ∨ w.pixel + 4 ≤ a) :
    writePixels memory pixels a = memory a := by
  induction pixels generalizing memory with
  | nil => rfl
  | cons w rest inductionHypothesis =>
    have ⟨fit, laterFit⟩ := List.forall_mem_cons.mp fits
    have ⟨here, later⟩ := List.forall_mem_cons.mp apart
    rw [writePixels_cons]
    exact (inductionHypothesis laterFit later).trans (storeColor_of_apart fit here)

/-- The coordinates of a pixel of the clipping rectangle, and its address. -/
theorem InsideClip.natural {w : PixelWrite} (inside : InsideClip t clip w)
    (clipOf : ClipOf t clip) : ∃ x y : Nat, w.x = x ∧ w.y = y ∧
      w.pixel = t.pBits + y * t.stride + 4 * x := by
  have ⟨left, _, top, _, pixel⟩ := inside
  have atLeft := clipOf.left
  have atTop := clipOf.top
  obtain ⟨x, sameX⟩ := Int.eq_ofNat_of_zero_le (show 0 ≤ w.x by omega)
  obtain ⟨y, sameY⟩ := Int.eq_ofNat_of_zero_le (show 0 ≤ w.y by omega)
  rw [sameX, sameY] at pixel
  exact ⟨x, y, sameX, sameY, by exact_mod_cast pixel⟩

theorem writePixels_kept (valid : t.Valid) (clipOf : ClipOf t clip) {pixels : List PixelWrite}
    (inside : ∀ w ∈ pixels, InsideClip t clip w) {memory : ByteMem} {a : Nat}
    (other : ∀ x y : Nat, clip.x1 ≤ x → x < clip.x2 → clip.y1 ≤ y → y < clip.y2 →
      a < t.pBits + y * t.stride + 4 * x ∨ t.pBits + y * t.stride + 4 * x + 4 ≤ a) :
    writePixels memory pixels a = memory a := by
  have width := clipOf.right
  have height := clipOf.bottom
  refine writePixels_of_apart (fun w member => ?_) fun w member => ?_
  · obtain ⟨x, y, sameX, sameY, pixel⟩ := (inside w member).natural clipOf
    have ⟨_, right, _, bottom, _⟩ := inside w member
    have fits := valid.row_fits (y := y) (by omega)
    have stride := valid.stride
    omega
  · obtain ⟨x, y, sameX, sameY, pixel⟩ := (inside w member).natural clipOf
    have ⟨left, right, top, bottom, _⟩ := inside w member
    rw [sameX] at left right
    rw [sameY] at top bottom
    rw [pixel]
    exact other x y left right top bottom

/-! ## Sequences of calls -/

/-- What a caller owes: sums that do not overflow, and for a copy an ordered source rectangle and a
bitmap that is one. -/
def GraphicsCall.Proper (gc : NxgiGraphicsContext) : GraphicsCall → Prop
  | .drawLine .. => True
  | .drawRect rect => RectSums rect
  | .fillRect _ => True
  | .bitblt dstPos src srcRect =>
    (src.format = .bgra32 → src.Valid) ∧ srcRect.x1 ≤ srcRect.x2 ∧ srcRect.y1 ≤ srcRect.y2 ∧
      BlitSums dstPos.x (srcRect.x2 - srcRect.x1) gc.offset.x ∧
      BlitSums dstPos.y (srcRect.y2 - srcRect.y1) gc.offset.y
  | .drawText pos text => TextSums gc pos text.length

/-- The condition under which a call stays inside the clipping rectangle. -/
def GraphicsCall.StaysInside (gc : NxgiGraphicsContext) : GraphicsCall → Prop
  | .drawLine x1 y1 x2 y2 => LineStaysInside gc ⟨i32 x1, i32 y1⟩ ⟨i32 x2, i32 y2⟩
  | .drawRect rect => RectStaysInside gc rect
  | .fillRect _ => True
  | .bitblt .. => True
  | .drawText pos text => gc.font.size = 1 → TextStaysInside gc text pos

/-- A call returns, and it stays inside exactly when it meets its condition. -/
theorem graphicsCall_inside_iff (valid : t.Valid) (target : gc.target = some t)
    (clipOf : ClipOf t gc.clipRect) {call : GraphicsCall} (proper : call.Proper gc)
    (memory : ByteMem) :
    ∃ hr pixels, graphicsCall gc memory call = .ok (hr, pixels) ∧
      ((∀ w ∈ pixels, InsideClip t gc.clipRect w) ↔ call.StaysInside gc) := by
  cases call with
  | drawLine x1 y1 x2 y2 =>
    obtain ⟨pixels, drawn, inside⟩ := graphicsDrawLine_inside_iff valid target clipOf x1 y1 x2 y2
    exact ⟨.sOk, pixels, drawn, inside⟩
  | drawRect rect => exact graphicsDrawRect_inside_iff valid target clipOf proper
  | fillRect rect =>
    exact ⟨_, _, rfl, iff_of_true (graphicsFillRect_inside valid target clipOf rect) trivial⟩
  | bitblt dstPos src srcRect =>
    have ⟨source, orderedX, orderedY, sumsX, sumsY⟩ := proper
    exact ⟨_, _, rfl, iff_of_true
      (graphicsBitblt_inside valid target clipOf source orderedX orderedY sumsX sumsY) trivial⟩
  | drawText pos text =>
    exact ⟨_, _, rfl, graphicsDrawText_inside_iff valid target clipOf proper⟩

theorem graphicsCalls_inside_iff (valid : t.Valid) (target : gc.target = some t)
    (clipOf : ClipOf t gc.clipRect) {calls : List GraphicsCall}
    (proper : ∀ call ∈ calls, call.Proper gc) (memory : ByteMem) :
    ∃ pixels, graphicsCalls gc calls memory = .ok (pixels, writePixels memory pixels) ∧
      ((∀ w ∈ pixels, InsideClip t gc.clipRect w) ↔ ∀ call ∈ calls, call.StaysInside gc) := by
  induction calls generalizing memory with
  | nil => exact ⟨[], rfl, by simp⟩
  | cons call rest inductionHypothesis =>
    have ⟨first, later⟩ := List.forall_mem_cons.mp proper
    obtain ⟨hr, pixels, drawn, inside⟩ := graphicsCall_inside_iff valid target clipOf first memory
    obtain ⟨others, drawnLater, insideLater⟩ :=
      inductionHypothesis later (writePixels memory pixels)
    refine ⟨pixels ++ others, ?_, ?_⟩
    · rw [graphicsCalls, drawn]
      simp only [bind, Except.bind, drawnLater]
      simp [writePixels, List.foldl_append]
    · rw [List.forall_mem_append, inside, insideLater, List.forall_mem_cons]

/-- What drawing inside the clipping rectangle means: every pixel that is written is one of the
rectangle and of the bitmap, and no other byte of memory changes. -/
structure DrawsInside (t : NxgiBitmap) (clip : NxgiRect) (pixels : List PixelWrite)
    (memory memory' : ByteMem) : Prop where
  inside : ∀ w ∈ pixels, InsideClip t clip w
  inBitmap : ∀ w ∈ pixels, (0 ≤ w.x ∧ w.x < t.width) ∧ 0 ≤ w.y ∧ w.y < t.height
  kept : ∀ a, (∀ x y : Nat, clip.x1 ≤ x → x < clip.x2 → clip.y1 ≤ y → y < clip.y2 →
      a < t.pBits + y * t.stride + 4 * x ∨ t.pBits + y * t.stride + 4 * x + 4 ≤ a) →
    memory' a = memory a

/-- A sequence of calls on a context whose clipping rectangle was set draws inside it exactly when
every call meets its condition. -/
theorem drawing_stays_inside (valid : t.Valid) (target : gc.target = some t) {r : NxgiRect}
    (orderedX : r.x1 ≤ r.x2) (orderedY : r.y1 ≤ r.y2) {calls : List GraphicsCall}
    (proper : ∀ call ∈ calls, call.Proper (graphicsSetClipRect gc t r)) (memory : ByteMem) :
    ∃ pixels memory', graphicsCalls (graphicsSetClipRect gc t r) calls memory =
        .ok (pixels, memory') ∧
      (DrawsInside t (graphicsSetClipRect gc t r).clipRect pixels memory memory' ↔
        ∀ call ∈ calls, call.StaysInside (graphicsSetClipRect gc t r)) := by
  have clipOf : ClipOf t (graphicsSetClipRect gc t r).clipRect :=
    clipOf_graphicsSetClipRect valid orderedX orderedY
  obtain ⟨pixels, drawn, inside⟩ := graphicsCalls_inside_iff valid
    (show (graphicsSetClipRect gc t r).target = some t from target) clipOf proper memory
  refine ⟨pixels, writePixels memory pixels, drawn, ?_⟩
  constructor
  · intro draws
    exact inside.mp draws.inside
  · intro stays
    have pixelsInside := inside.mpr stays
    have ⟨atLeft, _, width, atTop, _, height⟩ := clipOf
    exact {
      inside := pixelsInside
      inBitmap := by
        intro w member
        have ⟨left, right, top, bottom, _⟩ := pixelsInside w member
        omega
      kept := fun a other => writePixels_kept valid clipOf pixelsInside other }

/-- A bitmap of four columns and two rows. -/
def smallBitmap : NxgiBitmap where
  width := 4
  stride := 16
  height := 2
  bitsPerPixel := 32
  format := .bgra32
  pBits := 0x100000

theorem smallBitmap_valid : smallBitmap.Valid where
  format := rfl
  depth := rfl
  wide := by decide
  high := by decide
  row := by decide
  stride := by decide
  fits := by decide

/-- A context that draws white on it. -/
def smallContext : NxgiGraphicsContext where
  target := some smallBitmap
  font := ⟨1, ⟨255#8, 255#8, 255#8, 255#8⟩⟩
  offset := ⟨0, 0⟩
  color := ⟨255#8, 255#8, 255#8, 255#8⟩
  clipRect := ⟨0, 0, 4, 2⟩

/-- A line between two pixels of the first row, behind a rectangle that is larger than the
bitmap. -/
theorem drawing_stays_inside_filled :
    ∃ pixels memory',
      graphicsCalls (graphicsSetClipRect smallContext smallBitmap ⟨-1, -1, 9, 9⟩)
        [.fillRect ⟨-5, -5, 7, 7⟩, .drawLine 0 0 3 0] (fun _ => 0#8) = .ok (pixels, memory') ∧
      DrawsInside smallBitmap ⟨0, 0, 4, 2⟩ pixels (fun _ => 0#8) memory' := by
  have proper : ∀ call ∈ [GraphicsCall.fillRect ⟨-5, -5, 7, 7⟩, .drawLine 0 0 3 0],
      call.Proper (graphicsSetClipRect smallContext smallBitmap ⟨-1, -1, 9, 9⟩) := by
    simp [GraphicsCall.Proper]
  obtain ⟨pixels, memory', drawn, inside⟩ := drawing_stays_inside smallBitmap_valid
    (show smallContext.target = some smallBitmap from rfl) (by decide) (by decide) proper
    (fun _ => 0#8)
  have clip : (graphicsSetClipRect smallContext smallBitmap ⟨-1, -1, 9, 9⟩).clipRect =
      ⟨0, 0, 4, 2⟩ := by decide
  rw [clip] at inside
  refine ⟨pixels, memory', drawn, inside.mpr ?_⟩
  rw [List.forall_mem_cons, List.forall_mem_singleton]
  refine ⟨trivial, fun _ => ?_⟩
  have source : intrnlTransformPoint (graphicsSetClipRect smallContext smallBitmap ⟨-1, -1, 9, 9⟩)
      ⟨i32 (0 : Nat), i32 (0 : Nat)⟩ = ⟨0, 0⟩ := rfl
  have target : intrnlTransformPoint (graphicsSetClipRect smallContext smallBitmap ⟨-1, -1, 9, 9⟩)
      ⟨i32 (3 : Nat), i32 (0 : Nat)⟩ = ⟨3, 0⟩ := rfl
  rw [clip, source, target]
  constructor
  · intro column
    exact absurd column (by decide)
  · intro row
    decide
  · intro columns apart
    exact absurd rfl apart

/-- The second end of the line is on the far edges, behind the last row of the bitmap. -/
theorem drawing_not_inside :
    ∃ pixels memory',
      graphicsCalls (graphicsSetClipRect smallContext smallBitmap ⟨0, 0, 4, 2⟩)
        [.drawLine 0 0 4 2] (fun _ => 0#8) = .ok (pixels, memory') ∧
      ¬ DrawsInside smallBitmap ⟨0, 0, 4, 2⟩ pixels (fun _ => 0#8) memory' :=
  ⟨_, _, rfl, fun draws =>
    absurd (draws.inside ⟨4, 2, 0x100030, ⟨255#8, 255#8, 255#8, 255#8⟩⟩ (by decide)).right
      (by decide)⟩

end Antonix
