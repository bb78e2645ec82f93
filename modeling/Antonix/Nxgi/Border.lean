import Antonix.Nxgi.Painting

/-! # The border of a rectangle

The four lines of `draw_rect` are half open, whichever way they are drawn, so the lower
right corner is on none of them: the method draws the border but for this pixel. -/

namespace Antonix

open Set

variable {t : NxgiBitmap} {clip : NxgiRect} {gc : NxgiGraphicsContext} {p1 p2 : NxgiPoint}

/-! ## Clipped columns and rows -/

/-- The pixels below the upper one of two points, down to the lower one. -/
def columnBetween (p1 p2 : NxgiPoint) : NxgiRect :=
  ⟨p1.x, min p1.y p2.y, p1.x + 1, max p1.y p2.y⟩

/-- The pixels right of the left one of two points, up to the right one. -/
def rowBetween (p1 p2 : NxgiPoint) : NxgiRect :=
  ⟨min p1.x p2.x, p1.y, max p1.x p2.x, p1.y + 1⟩

section

variable (gc) (valid : t.Valid) (clipOf : ClipOf t clip) (first : OnClip clip p1)
  (last : OnClip clip p2)

include valid clipOf first last

theorem drawn_clippedColumn (sameX : p1.x = p2.x) :
    ∃ pixels, drawClippedLine gc t p1 p2 = .ok pixels ∧
      drawn pixels = (columnBetween p1 p2).pixels := by
  refine ⟨_, by rw [drawClippedLine, if_pos sameX], ?_⟩
  obtain ⟨x, y1, rfl, column, row1⟩ := first.natural valid clipOf
  obtain ⟨x', y2, rfl, -, row2⟩ := last.natural valid clipOf
  rw [column, row1, row2, drawn_intrnlDrawVline (row1 ▸ asU32_lt _) (row2 ▸ asU32_lt _),
    columnBetween]

theorem drawn_clippedRow (sameY : p1.y = p2.y) :
    ∃ pixels, drawClippedLine gc t p1 p2 = .ok pixels ∧
      drawn pixels = (rowBetween p1 p2).pixels := by
  by_cases sameX : p1.x = p2.x
  · obtain ⟨pixels, line, area⟩ := drawn_clippedColumn gc valid clipOf first last sameX
    refine ⟨pixels, line, area.trans ?_⟩
    ext p
    simp only [columnBetween, rowBetween, NxgiRect.mem_pixels]
    omega
  · refine ⟨_, by rw [drawClippedLine, if_neg sameX, if_pos sameY], ?_⟩
    obtain ⟨x1, y, rfl, column1, row⟩ := first.natural valid clipOf
    obtain ⟨x2, y', rfl, column2, -⟩ := last.natural valid clipOf
    rw [column1, column2, row,
      drawn_intrnlDrawHline (column1 ▸ asU32_lt _) (column2 ▸ asU32_lt _), rowBetween]

end

theorem color_of_mem_lineLoop {steps : LineSteps} {turns : Nat} {p : NxgiPoint} {err : Int}
    {pixels : List PixelWrite} (line : lineLoop gc t p2 steps turns p err = some pixels) :
    ∀ w ∈ pixels, w.color = gc.color := by
  induction turns generalizing p err pixels with
  | zero => cases line
  | succ turns inductionHypothesis =>
    rw [lineLoop] at line
    split at line
    · obtain rfl := Option.some.inj line
      simp [linePixel]
    · obtain ⟨later, rest, rfl⟩ := Option.map_eq_some_iff.mp line
      exact List.forall_mem_cons.mpr ⟨rfl, inductionHypothesis rest⟩

/-- A line has one color. -/
theorem color_of_mem_drawClippedLine {pixels : List PixelWrite}
    (line : drawClippedLine gc t p1 p2 = .ok pixels) : ∀ w ∈ pixels, w.color = gc.color := by
  rw [drawClippedLine] at line
  split at line
  · obtain rfl := Except.ok.inj line
    exact fun w member => color_of_mem_intrnlDrawVline member
  · split at line
    · obtain rfl := Except.ok.inj line
      exact fun w member => color_of_mem_intrnlDrawHline member
    · dsimp only at line
      split at line
      · cases line
      · next drawn =>
        obtain rfl := Except.ok.inj line
        exact color_of_mem_lineLoop drawn

/-! ## Lines inside the clipping rectangle -/

/-- A point moved by a vector. -/
def NxgiPoint.moved (p v : NxgiPoint) : NxgiPoint := ⟨p.x + v.x, p.y + v.y⟩

/-- What the call for the line from `p1` to `p2` writes. -/
structure DrawsLine (gc : NxgiGraphicsContext) (t : NxgiBitmap) (p1 p2 : NxgiPoint)
    (pixels : List PixelWrite) : Prop where
  call : graphicsDrawLine gc (asU32 p1.x) (asU32 p1.y) (asU32 p2.x) (asU32 p2.y) =
    .ok (.sOk, pixels)
  places : ∀ w ∈ pixels, OwnPlace t w
  colors : ∀ w ∈ pixels, w.color = gc.color

/-- A point of the bitmap is clipped as it is. -/
theorem transformPoint_of_pixel (valid : t.Valid) (clipOf : ClipOf t gc.clipRect)
    (inside : p1.moved gc.offset ∈ t.pixels) :
    intrnlTransformPoint gc p1 = nxgigClipPoint (p1.moved gc.offset) gc.clipRect := by
  obtain ⟨⟨left, right⟩, top, bottom⟩ := inside
  have wide := valid.width_lt
  have high := valid.height_le
  simp only [NxgiPoint.moved] at left right top bottom
  rw [intrnlTransformPoint_eq clipOf.orderedX clipOf.orderedY,
    i32_of_range (x := p1.x + gc.offset.x) (by omega) (by omega),
    i32_of_range (x := p1.y + gc.offset.y) (by omega) (by omega), nxgigClipPoint_eq,
    NxgiPoint.moved]

/-- A point that is inside the clipping rectangle is not moved by the clipping. -/
theorem transformPoint_of_mem (valid : t.Valid) (clipOf : ClipOf t gc.clipRect)
    (inside : p1.moved gc.offset ∈ gc.clipRect.pixels) :
    intrnlTransformPoint gc p1 = p1.moved gc.offset := by
  obtain ⟨⟨left, right⟩, top, bottom⟩ := inside
  rw [transformPoint_of_pixel valid clipOf
    (clipOf.pixels_subset ⟨⟨left, right⟩, top, bottom⟩), nxgigClipPoint_eq,
    clampTo_of_inside left right.le, clampTo_of_inside top bottom.le]

/-- The call draws the line between the clipped ends, if the line meets the rectangle. -/
theorem graphicsDrawLine_eq (target : gc.target = some t) (source : p1.Fits) (dest : p2.Fits)
    {pixels : List PixelWrite} (line : drawClippedLine gc t (intrnlTransformPoint gc p1)
      (intrnlTransformPoint gc p2) = .ok pixels) :
    graphicsDrawLine gc (asU32 p1.x) (asU32 p1.y) (asU32 p2.x) (asU32 p2.y) =
      .ok (.sOk, if lineMeetsClip gc p1 p2 = true then pixels else []) := by
  simp only [graphicsDrawLine, target]
  rw [i32_asU32 source.x.1 source.x.2, i32_asU32 source.y.1 source.y.2,
    i32_asU32 dest.x.1 dest.x.2, i32_asU32 dest.y.1 dest.y.2, line]
  split <;> rfl

/-- A line between pixels of the clipping rectangle is drawn as it is, if it is drawn. -/
theorem draws_inside (valid : t.Valid) (target : gc.target = some t)
    (clipOf : ClipOf t gc.clipRect) (source : p1.Fits) (dest : p2.Fits)
    (first : p1.moved gc.offset ∈ gc.clipRect.pixels)
    (last : p2.moved gc.offset ∈ gc.clipRect.pixels) {area : Set NxgiPoint}
    (line : ∃ pixels, drawClippedLine gc t (p1.moved gc.offset) (p2.moved gc.offset) = .ok pixels ∧
      drawn pixels = area) :
    ∃ pixels, DrawsLine gc t p1 p2 pixels ∧ drawn pixels ⊆ area ∧
      (lineMeetsClip gc p1 p2 = true → drawn pixels = area) := by
  obtain ⟨pixels, clipped, rfl⟩ := line
  obtain ⟨⟨left1, right1⟩, top1, bottom1⟩ := first
  obtain ⟨⟨left2, right2⟩, top2, bottom2⟩ := last
  obtain ⟨pixels', clipped', inside⟩ := drawClippedLine_inside_iff gc valid clipOf
    ⟨left1, right1.le, top1, bottom1.le⟩ ⟨left2, right2.le, top2, bottom2.le⟩
  obtain rfl : pixels = pixels' := Except.ok.inj (clipped.symm.trans clipped')
  rw [← transformPoint_of_mem valid clipOf ⟨⟨left1, right1⟩, top1, bottom1⟩,
    ← transformPoint_of_mem valid clipOf ⟨⟨left2, right2⟩, top2, bottom2⟩] at clipped
  have call := graphicsDrawLine_eq target source dest clipped
  by_cases meets : lineMeetsClip gc p1 p2 = true
  · rw [if_pos meets] at call
    have stays := inside.mpr ⟨fun _ => .inr right1, fun _ => ⟨bottom1, bottom2⟩,
      fun _ _ => ⟨right1, right2⟩⟩
    exact ⟨pixels, ⟨call, fun w member => (stays w member).ownPlace clipOf,
      color_of_mem_drawClippedLine clipped⟩, subset_rfl, fun _ => rfl⟩
  · rw [if_neg meets] at call
    exact ⟨[], ⟨call, by simp, by simp⟩, by simp [drawn], fun met => absurd met meets⟩

/-- The clipping rectangle without the offset has corners of `int32_t`. -/
structure ClipMovesBack (gc : NxgiGraphicsContext) : Prop where
  offset : gc.offset.Fits
  corners : MovesInRange gc.clipRect ⟨-gc.offset.x, -gc.offset.y⟩

/-- The clipping rectangle that a line is tested against. -/
theorem ClipMovesBack.rectOffset (back : ClipMovesBack gc) (clipOf : ClipOf t gc.clipRect) :
    nxgigRectOffset gc.clipRect ⟨i32 (-gc.offset.x), i32 (-gc.offset.y)⟩ =
      gc.clipRect.moved ⟨-gc.offset.x, -gc.offset.y⟩ := by
  have ⟨⟨offsetX, offsetY⟩, ⟨left, top, right, bottom⟩⟩ := back
  have ⟨atLeft, _, _, atTop, _, _⟩ := clipOf
  simp only [FitsI32] at left top right bottom
  have backX : i32 (-gc.offset.x) = -gc.offset.x := i32_of_range (by omega) (by omega)
  have backY : i32 (-gc.offset.y) = -gc.offset.y := i32_of_range (by omega) (by omega)
  simp only [nxgigRectOffset, nxgigPointAdd, NxgiRect.p1, NxgiRect.p2, NxgiRect.ofPoints,
    NxgiRect.moved, backX, backY]
  rw [i32_of_range left.1 left.2, i32_of_range top.1 top.2, i32_of_range right.1 right.2,
    i32_of_range bottom.1 bottom.2]

/-- A line inside the clipping rectangle meets it. -/
theorem lineMeetsClip_of_mem (back : ClipMovesBack gc) (clipOf : ClipOf t gc.clipRect)
    (first : p1.moved gc.offset ∈ gc.clipRect.pixels)
    (last : p2.moved gc.offset ∈ gc.clipRect.pixels) : lineMeetsClip gc p1 p2 = true := by
  have inRect : ∀ p : NxgiPoint, p.moved gc.offset ∈ gc.clipRect.pixels →
      nxgigPointInRect p (gc.clipRect.moved ⟨-gc.offset.x, -gc.offset.y⟩) = true := by
    intro p inside
    rw [nxgigPointInRect_iff]
    simp only [NxgiPoint.moved, NxgiRect.mem_pixels, NxgiRect.moved] at inside ⊢
    omega
  rw [lineMeetsClip, back.rectOffset clipOf, nxgigLineRectIntersect, inRect p1 first,
    inRect p2 last]
  simp

theorem onClip_of_mem {p : NxgiPoint} (inside : p ∈ clip.pixels) : OnClip clip p :=
  ⟨inside.1.1, inside.1.2.le, inside.2.1, inside.2.2.le⟩

/-! ## The four lines of a rectangle -/

/-- The one-pixel border of a rectangle. -/
def NxgiRect.border (r : NxgiRect) : Set NxgiPoint :=
  {p | p ∈ r.pixels ∧ (p.x = r.x1 ∨ p.x = r.x2 - 1 ∨ p.y = r.y1 ∨ p.y = r.y2 - 1)}

/-- The lower right pixel of a rectangle. -/
def NxgiRect.corner (r : NxgiRect) : NxgiPoint := ⟨r.x2 - 1, r.y2 - 1⟩

/-- A rectangle that is at least two pixels wide and high and stays inside the clipping rectangle
with the offset. -/
structure BorderRect (gc : NxgiGraphicsContext) (r : NxgiRect) : Prop where
  first : r.p1.Fits
  last : r.p2.Fits
  wide : 2 ≤ r.x2 - r.x1
  high : 2 ≤ r.y2 - r.y1
  left : gc.clipRect.x1 ≤ r.x1 + gc.offset.x
  right : r.x2 + gc.offset.x ≤ gc.clipRect.x2
  top : gc.clipRect.y1 ≤ r.y1 + gc.offset.y
  bottom : r.y2 + gc.offset.y ≤ gc.clipRect.y2

/-- The border is drawn but for the lower right corner. -/
theorem graphicsDrawRect_drawn (valid : t.Valid) (target : gc.target = some t)
    (clipOf : ClipOf t gc.clipRect) {rect : NxgiRect} (fit : BorderRect gc rect) :
    ∃ pixels, graphicsDrawRect gc rect = .ok (.sOk, pixels) ∧ (∀ w ∈ pixels, OwnPlace t w) ∧
      (∀ w ∈ pixels, w.color = gc.color) ∧
      drawn pixels ⊆ (rect.moved gc.offset).border \ {(rect.moved gc.offset).corner} ∧
      (ClipMovesBack gc →
        drawn pixels = (rect.moved gc.offset).border \ {(rect.moved gc.offset).corner}) := by
  obtain ⟨⟨fitsX1, fitsY1⟩, ⟨fitsX2, fitsY2⟩, wide, high, left, right, top, bottom⟩ := fit
  simp only [NxgiRect.p1, NxgiRect.p2] at fitsX1 fitsY1 fitsX2 fitsY2
  have corners : ∀ x y : Int, rect.x1 ≤ x → x < rect.x2 → rect.y1 ≤ y → y < rect.y2 →
      (⟨x, y⟩ : NxgiPoint).Fits ∧ (⟨x, y⟩ : NxgiPoint).moved gc.offset ∈ gc.clipRect.pixels := by
    intro x y _ _ _ _
    refine ⟨⟨by simp only; omega, by simp only; omega⟩, ?_⟩
    simp only [NxgiPoint.moved, NxgiRect.mem_pixels]
    omega
  obtain ⟨fits1, inside1⟩ := corners rect.x1 rect.y1 (by omega) (by omega) (by omega) (by omega)
  obtain ⟨fits2, inside2⟩ := corners (rect.x2 - 1) rect.y1 (by omega) (by omega) (by omega) (by omega)
  obtain ⟨fits3, inside3⟩ := corners (rect.x2 - 1) (rect.y2 - 1) (by omega) (by omega) (by omega)
    (by omega)
  obtain ⟨fits4, inside4⟩ := corners rect.x1 (rect.y2 - 1) (by omega) (by omega) (by omega) (by omega)
  obtain ⟨above, drawsAbove, inAbove, isAbove⟩ := draws_inside valid target clipOf fits1 fits2
    inside1 inside2 (drawn_clippedRow gc valid clipOf (onClip_of_mem inside1)
      (onClip_of_mem inside2) rfl)
  obtain ⟨behind, drawsBehind, inBehind, isBehind⟩ := draws_inside valid target clipOf fits2 fits3
    inside2 inside3 (drawn_clippedColumn gc valid clipOf (onClip_of_mem inside2)
      (onClip_of_mem inside3) rfl)
  obtain ⟨below, drawsBelow, inBelow, isBelow⟩ := draws_inside valid target clipOf fits3 fits4
    inside3 inside4 (drawn_clippedRow gc valid clipOf (onClip_of_mem inside3)
      (onClip_of_mem inside4) rfl)
  obtain ⟨before, drawsBefore, inBefore, isBefore⟩ := draws_inside valid target clipOf fits4 fits1
    inside4 inside1 (drawn_clippedColumn gc valid clipOf (onClip_of_mem inside4)
      (onClip_of_mem inside1) rfl)
  -- each line stops before its far end, so none reaches the lower right corner
  have edges : (rect.moved gc.offset).border \ {(rect.moved gc.offset).corner} =
      (rowBetween (NxgiPoint.moved ⟨rect.x1, rect.y1⟩ gc.offset)
          (NxgiPoint.moved ⟨rect.x2 - 1, rect.y1⟩ gc.offset)).pixels ∪
        (columnBetween (NxgiPoint.moved ⟨rect.x2 - 1, rect.y1⟩ gc.offset)
          (NxgiPoint.moved ⟨rect.x2 - 1, rect.y2 - 1⟩ gc.offset)).pixels ∪
        (rowBetween (NxgiPoint.moved ⟨rect.x2 - 1, rect.y2 - 1⟩ gc.offset)
          (NxgiPoint.moved ⟨rect.x1, rect.y2 - 1⟩ gc.offset)).pixels ∪
        (columnBetween (NxgiPoint.moved ⟨rect.x1, rect.y2 - 1⟩ gc.offset)
          (NxgiPoint.moved ⟨rect.x1, rect.y1⟩ gc.offset)).pixels := by
    ext p
    simp only [NxgiRect.border, NxgiRect.corner, NxgiRect.moved, NxgiRect.mem_pixels, mem_sdiff,
      mem_union, mem_ofPred_eq, mem_singleton_iff, NxgiPoint.ext_iff, rowBetween, columnBetween,
      NxgiPoint.moved]
    omega
  refine ⟨above ++ behind ++ below ++ before, ?_, ?_, ?_, ?_, ?_⟩
  · rw [graphicsDrawRect, if_neg (by simp [target]), if_neg (by omega)]
    rw [i32_of_range (x := rect.x2 - 1) (by omega) (by omega),
      i32_of_range (x := rect.y2 - 1) (by omega) (by omega)]
    simp only
    rw [if_neg (by omega), drawsAbove.call, drawsBehind.call, drawsBelow.call, drawsBefore.call]
    rfl
  · simp only [List.forall_mem_append]
    exact ⟨⟨⟨drawsAbove.places, drawsBehind.places⟩, drawsBelow.places⟩, drawsBefore.places⟩
  · simp only [List.forall_mem_append]
    exact ⟨⟨⟨drawsAbove.colors, drawsBehind.colors⟩, drawsBelow.colors⟩, drawsBefore.colors⟩
  · rw [edges, drawn_append, drawn_append, drawn_append]
    exact union_subset_union (union_subset_union (union_subset_union inAbove inBehind) inBelow)
      inBefore
  · intro back
    rw [edges, drawn_append, drawn_append, drawn_append,
      isAbove (lineMeetsClip_of_mem back clipOf inside1 inside2),
      isBehind (lineMeetsClip_of_mem back clipOf inside2 inside3),
      isBelow (lineMeetsClip_of_mem back clipOf inside3 inside4),
      isBefore (lineMeetsClip_of_mem back clipOf inside4 inside1)]

/-- The call paints the border of the rectangle, all four corners included, and nothing else. -/
def DrawsBorder (gc : NxgiGraphicsContext) (t : NxgiBitmap) (rect : NxgiRect) : Prop :=
  ∃ pixels, graphicsDrawRect gc rect = .ok (.sOk, pixels) ∧
    ∀ memory, Paints t (rect.moved gc.offset).border (fun _ => gc.color) memory
      (writePixels memory pixels)

/-- A pixel of the bitmap that is not written is not painted. -/
theorem not_paints (valid : t.Valid) {pixels : List PixelWrite}
    (places : ∀ w ∈ pixels, OwnPlace t w) {area : Set NxgiPoint} {p : NxgiPoint}
    (member : p ∈ area) (inside : p ∈ t.pixels) (missed : p ∉ drawn pixels) {color : NxgiColor} :
    ¬ ∀ memory, Paints t area (fun _ => color) memory (writePixels memory pixels) := by
  intro paints
  -- the memory has another color there before
  have painted := (paints fun _ => color.b + 1#8).painted p member
  have kept : t.pixelAt (writePixels (fun _ => color.b + 1#8) pixels) p =
      t.pixelAt (fun _ => color.b + 1#8) p := by
    refine colorAt_congr (valid.address_fits inside) fun b above below => ?_
    refine writePixels_elsewhere valid places fun q written => ?_
    obtain ⟨w, among, rfl⟩ := written
    have apart := valid.address_apart inside (places w among).inside
      fun same => missed ⟨w, among, same.symm⟩
    omega
  have blue : (t.pixelAt (fun _ => color.b + 1#8) p).b = color.b := by rw [← kept, painted]
  have other : color.b + 1#8 = color.b := blue
  have one : color.b + 1#8 = color.b + 0#8 := other.trans (BitVec.add_zero color.b).symm
  exact absurd (BitVec.add_right_inj color.b |>.mp one) (by decide)

/-- The lower right corner of a rectangle inside the clipping rectangle is never drawn. -/
theorem graphicsDrawRect_not_border (valid : t.Valid) (target : gc.target = some t)
    (clipOf : ClipOf t gc.clipRect) {rect : NxgiRect} (fit : BorderRect gc rect) :
    ¬ DrawsBorder gc t rect := by
  rintro ⟨pixels, call, paints⟩
  obtain ⟨pixels', call', places, -, area, -⟩ := graphicsDrawRect_drawn valid target clipOf fit
  obtain rfl : pixels = pixels' := (Prod.mk.inj (Except.ok.inj (call.symm.trans call'))).2
  have ⟨_, _, wide, high, left, right, top, bottom⟩ := fit
  have ⟨atLeft, _, width, atTop, _, height⟩ := clipOf
  refine not_paints valid places (p := (rect.moved gc.offset).corner) ?_ ?_ ?_ paints
  · refine ⟨?_, .inr (.inl rfl)⟩
    simp only [NxgiRect.corner, NxgiRect.moved, NxgiRect.mem_pixels]
    omega
  · simp only [NxgiRect.corner, NxgiRect.moved, NxgiBitmap.mem_pixels]
    omega
  · exact fun written => (area written).2 rfl

/-- A rectangle of the bitmap that its last column is not part of. -/
theorem graphicsDrawRect_not_border_right : ¬ DrawsBorder smallContext smallBitmap ⟨1, 0, 4, 2⟩ := by
  have fit : BorderRect smallContext ⟨1, 0, 4, 2⟩ := by
    constructor <;> first | decide | exact ⟨⟨by decide, by decide⟩, by decide, by decide⟩
  exact graphicsDrawRect_not_border smallBitmap_valid rfl smallContext_clipOf fit

/-- The rectangle of three by two pixels is drawn without the pixel `(2, 1)`. -/
theorem graphicsDrawRect_misses_corner :
    ¬ DrawsBorder smallContext smallBitmap ⟨0, 0, 3, 2⟩ := by
  rintro ⟨pixels, call, paints⟩
  have written : (pixels.map fun w => w.pixel) =
      [0x100000, 0x100004, 0x100008, 0x100010, 0x100014, 0x100000] := by
    have run : (graphicsDrawRect smallContext ⟨0, 0, 3, 2⟩).map
        (fun result => result.2.map fun w => w.pixel) =
          .ok [0x100000, 0x100004, 0x100008, 0x100010, 0x100014, 0x100000] := by
      rfl
    rw [call] at run
    exact Except.ok.inj run
  have below : ∀ w ∈ pixels, w.pixel + 4 ≤ 0x100018 := by
    intro w member
    have among : w.pixel ∈ pixels.map fun w => w.pixel := List.mem_map_of_mem member
    rw [written] at among
    revert among
    generalize w.pixel = a
    simp only [List.mem_cons, List.not_mem_nil, or_false]
    omega
  have painted := congrArg NxgiColor.b ((paints fun _ => 0#8).painted ⟨2, 1⟩
    ⟨⟨by decide, by decide⟩, .inr (.inl rfl)⟩)
  have byte : writePixels (fun _ => 0#8) pixels 0x100018 = 255#8 := painted
  rw [writePixels_of_apart (fun w member => (below w member).trans (by decide))
    fun w member => .inr (below w member)] at byte
  exact absurd byte (by decide)

end Antonix
