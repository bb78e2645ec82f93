import Antonix.Nxgi.Canvas

/-! # Filled rectangles and copies

Both are exact: the area that a call paints is its rectangle, moved by the offset, cut off
at the clipping rectangle.  A copy reads the pixels of the source rectangle that it
copies, and no others. -/

namespace Antonix

open Set

/-- A rectangle moved by a vector. -/
def NxgiRect.moved (r : NxgiRect) (v : NxgiPoint) : NxgiRect :=
  ⟨r.x1 + v.x, r.y1 + v.y, r.x2 + v.x, r.y2 + v.y⟩

/-- A rectangle with its corners limited to a clipping rectangle. -/
def NxgiRect.clippedTo (r clip : NxgiRect) : NxgiRect :=
  ⟨clampTo clip.x1 clip.x2 r.x1, clampTo clip.y1 clip.y2 r.y1, clampTo clip.x1 clip.x2 r.x2,
    clampTo clip.y1 clip.y2 r.y2⟩

/-- A clipping rectangle holds pixels of the bitmap only. -/
theorem ClipOf.pixels_subset {t : NxgiBitmap} {clip : NxgiRect} (clipOf : ClipOf t clip) :
    clip.pixels ⊆ t.pixels := by
  intro p inside
  have ⟨left, _, right, top, _, bottom⟩ := clipOf
  simp only [NxgiRect.mem_pixels, NxgiBitmap.mem_pixels] at inside ⊢
  omega

/-- The corners of the moved rectangle are values of `int32_t`. -/
structure MovesInRange (r : NxgiRect) (v : NxgiPoint) : Prop where
  left : FitsI32 (r.x1 + v.x)
  top : FitsI32 (r.y1 + v.y)
  right : FitsI32 (r.x2 + v.x)
  bottom : FitsI32 (r.y2 + v.y)

variable {t : NxgiBitmap} {clip : NxgiRect} {gc : NxgiGraphicsContext} {w : PixelWrite}

/-! ## Clipped ranges -/

/-- Between two clipped coordinates is what is between them and inside the clipping range. -/
theorem clampTo_range {low high : Int} (ordered : low ≤ high) (a b x : Int) :
    clampTo low high a ≤ x ∧ x < clampTo low high b ↔ (a ≤ x ∧ x < b) ∧ low ≤ x ∧ x < high := by
  simp only [clampTo]
  split_ifs <;> omega

theorem transformPoint_p1 (clipOf : ClipOf t gc.clipRect) {rect : NxgiRect}
    (sums : MovesInRange rect gc.offset) : intrnlTransformPoint gc rect.p1 =
      ⟨clampTo gc.clipRect.x1 gc.clipRect.x2 (rect.x1 + gc.offset.x),
        clampTo gc.clipRect.y1 gc.clipRect.y2 (rect.y1 + gc.offset.y)⟩ := by
  rw [intrnlTransformPoint_eq clipOf.orderedX clipOf.orderedY]
  simp only [NxgiRect.p1]
  rw [i32_of_range sums.left.1 sums.left.2, i32_of_range sums.top.1 sums.top.2]

theorem transformPoint_p2 (clipOf : ClipOf t gc.clipRect) {rect : NxgiRect}
    (sums : MovesInRange rect gc.offset) : intrnlTransformPoint gc rect.p2 =
      ⟨clampTo gc.clipRect.x1 gc.clipRect.x2 (rect.x2 + gc.offset.x),
        clampTo gc.clipRect.y1 gc.clipRect.y2 (rect.y2 + gc.offset.y)⟩ := by
  rw [intrnlTransformPoint_eq clipOf.orderedX clipOf.orderedY]
  simp only [NxgiRect.p2]
  rw [i32_of_range sums.right.1 sums.right.2, i32_of_range sums.bottom.1 sums.bottom.2]

/-! ## Filled rectangles -/

theorem drawn_intrnlDrawHline {x1 y x2 : Nat} (fits1 : x1 < 2 ^ 32) (fits2 : x2 < 2 ^ 32) :
    drawn (intrnlDrawHline gc t x1 y x2) =
      (⟨min x1 x2, y, max x1 x2, y + 1⟩ : NxgiRect).pixels := by
  ext p
  simp only [mem_drawn, mem_intrnlDrawHline fits1 fits2, NxgiRect.mem_pixels]
  constructor
  · intro reached
    obtain ⟨w, ⟨k, below, rfl⟩, rfl⟩ := reached
    simp only
    omega
  · intro inside
    refine ⟨_, ⟨(p.x - (min x1 x2 : Nat)).toNat, by omega, rfl⟩, NxgiPoint.ext ?_ ?_⟩
    · simp only
      omega
    · simp only
      omega

theorem drawn_intrnlDrawVline {x y1 y2 : Nat} (fits1 : y1 < 2 ^ 32) (fits2 : y2 < 2 ^ 32) :
    drawn (intrnlDrawVline gc t x y1 y2) =
      (⟨x, min y1 y2, x + 1, max y1 y2⟩ : NxgiRect).pixels := by
  ext p
  simp only [mem_drawn, mem_intrnlDrawVline fits1 fits2, NxgiRect.mem_pixels]
  constructor
  · intro reached
    obtain ⟨w, ⟨k, below, rfl⟩, rfl⟩ := reached
    simp only
    omega
  · intro inside
    refine ⟨_, ⟨(p.y - (min y1 y2 : Nat)).toNat, by omega, rfl⟩, NxgiPoint.ext ?_ ?_⟩
    · simp only
      omega
    · simp only
      omega

theorem color_of_mem_pixelRun {color : NxgiColor} {dx dy : Int} {step n pixel : Nat} {x y : Int}
    (member : w ∈ pixelRun color dx dy step n x y pixel) : w.color = color := by
  obtain ⟨k, below, rfl⟩ := mem_pixelRun.mp member
  rfl

theorem color_of_mem_intrnlDrawHline {x1 y x2 : Nat} (member : w ∈ intrnlDrawHline gc t x1 y x2) :
    w.color = gc.color :=
  color_of_mem_pixelRun member

theorem color_of_mem_intrnlDrawVline {x y1 y2 : Nat} (member : w ∈ intrnlDrawVline gc t x y1 y2) :
    w.color = gc.color :=
  color_of_mem_pixelRun member

theorem drawn_fillRows {x1 x2 y rows : Nat} (fits1 : x1 < 2 ^ 32) (fits2 : x2 < 2 ^ 32)
    (fits : y + rows ≤ 2 ^ 32) (ordered : x1 ≤ x2) :
    drawn (fillRows gc t x1 x2 rows y) = (⟨x1, y, x2, y + rows⟩ : NxgiRect).pixels := by
  induction rows generalizing y with
  | zero =>
    ext p
    simp only [fillRows, mem_drawn, List.not_mem_nil, false_and, exists_false, false_iff,
      NxgiRect.mem_pixels]
    omega
  | succ rows inductionHypothesis =>
    have later : fillRows gc t x1 x2 rows ((y : Int) + 1) =
        fillRows gc t x1 x2 rows (y + 1 : Nat) := by
      push_cast
      rfl
    rw [fillRows, drawn_append, later, inductionHypothesis (by omega), asU32_natCast fits1,
      asU32_natCast fits2, asU32_natCast (by omega), drawn_intrnlDrawHline fits1 fits2]
    ext p
    simp only [NxgiRect.mem_pixels, mem_union]
    omega

theorem color_of_mem_fillRows {x1 x2 y : Int} {rows : Nat}
    (member : w ∈ fillRows gc t x1 x2 rows y) : w.color = gc.color := by
  induction rows generalizing y with
  | zero => cases member
  | succ rows inductionHypothesis =>
    cases List.mem_append.mp member with
    | inl row => exact color_of_mem_intrnlDrawHline row
    | inr later => exact inductionHypothesis later

/-- The pixels of a clipped rectangle. -/
theorem pixels_clippedTo (clipOf : ClipOf t clip) (r : NxgiRect) :
    (r.clippedTo clip).pixels = r.pixels ∩ clip.pixels := by
  ext p
  simp only [NxgiRect.clippedTo, NxgiRect.mem_pixels, mem_inter_iff, clampTo_range clipOf.orderedX,
    clampTo_range clipOf.orderedY]
  tauto

theorem pixels_eq_empty_iff {r : NxgiRect} (orderedX : r.x1 ≤ r.x2) (orderedY : r.y1 ≤ r.y2) :
    r.pixels = ∅ ↔ r.x1 = r.x2 ∨ r.y1 = r.y2 := by
  constructor
  · intro empty
    by_contra apart
    have corner : r.p1 ∈ r.pixels := by
      simp only [NxgiRect.mem_pixels, NxgiRect.p1]
      omega
    rw [empty] at corner
    exact corner
  · intro flat
    ext p
    simp only [NxgiRect.mem_pixels, mem_empty_iff_false, iff_false]
    omega

/-- `fill_rect` paints the part of the moved rectangle that is inside the clipping rectangle. -/
theorem graphicsFillRect_paints (valid : t.Valid) (target : gc.target = some t)
    (clipOf : ClipOf t gc.clipRect) {rect : NxgiRect} (orderedX : rect.x1 ≤ rect.x2)
    (orderedY : rect.y1 ≤ rect.y2) (sums : MovesInRange rect gc.offset) (memory : ByteMem) :
    Paints t ((rect.moved gc.offset).pixels ∩ gc.clipRect.pixels) (fun _ => gc.color) memory
        (writePixels memory (graphicsFillRect gc rect).2) ∧
      ((graphicsFillRect gc rect).1 = .sFalse ↔
        (rect.moved gc.offset).pixels ∩ gc.clipRect.pixels = ∅) := by
  have ⟨atLeft, _, width, atTop, _, height⟩ := clipOf
  have wide := valid.width_lt
  have high := valid.height_le
  have columns := clampTo_mono clipOf.orderedX
    (show rect.x1 + gc.offset.x ≤ rect.x2 + gc.offset.x by omega)
  have rows := clampTo_mono clipOf.orderedY
    (show rect.y1 + gc.offset.y ≤ rect.y2 + gc.offset.y by omega)
  have nearX := clampTo_inside clipOf.orderedX (rect.x1 + gc.offset.x)
  have farX := clampTo_inside clipOf.orderedX (rect.x2 + gc.offset.x)
  have nearY := clampTo_inside clipOf.orderedY (rect.y1 + gc.offset.y)
  have farY := clampTo_inside clipOf.orderedY (rect.y2 + gc.offset.y)
  have places := fun w member =>
    (graphicsFillRect_inside valid target clipOf rect w member).ownPlace clipOf
  have area := pixels_clippedTo clipOf (rect.moved gc.offset)
  simp only [NxgiRect.moved, NxgiRect.clippedTo] at area
  rw [NxgiRect.moved, ← area, pixels_eq_empty_iff columns rows]
  simp only [graphicsFillRect, target, transformPoint_p1 clipOf sums,
    transformPoint_p2 clipOf sums] at places ⊢
  generalize clampTo gc.clipRect.x1 gc.clipRect.x2 (rect.x1 + gc.offset.x) = x1 at *
  generalize clampTo gc.clipRect.x1 gc.clipRect.x2 (rect.x2 + gc.offset.x) = x2 at *
  generalize clampTo gc.clipRect.y1 gc.clipRect.y2 (rect.y1 + gc.offset.y) = y1 at *
  generalize clampTo gc.clipRect.y1 gc.clipRect.y2 (rect.y2 + gc.offset.y) = y2 at *
  by_cases flat : x1 = x2 ∨ y1 = y2
  · rw [if_pos flat] at places ⊢
    have empty : drawn ([] : List PixelWrite) = (⟨x1, y1, x2, y2⟩ : NxgiRect).pixels := by
      rw [(pixels_eq_empty_iff columns rows).mpr flat]
      ext p
      simp
    exact ⟨(paints_drawn valid places (by simp) memory).congr empty, iff_of_true rfl flat⟩
  · rw [if_neg flat, if_neg (show ¬ y1 > y2 by omega)] at places ⊢
    obtain ⟨left, sameX1⟩ := Int.eq_ofNat_of_zero_le (show 0 ≤ x1 by omega)
    obtain ⟨right, sameX2⟩ := Int.eq_ofNat_of_zero_le (show 0 ≤ x2 by omega)
    obtain ⟨top, sameY1⟩ := Int.eq_ofNat_of_zero_le (show 0 ≤ y1 by omega)
    obtain ⟨bottom, sameY2⟩ := Int.eq_ofNat_of_zero_le (show 0 ≤ y2 by omega)
    subst sameX1 sameX2 sameY1 sameY2
    have area : drawn (fillRows gc t left right ((bottom : Int) - top).toNat top) =
        (⟨left, top, right, bottom⟩ : NxgiRect).pixels := by
      rw [drawn_fillRows (by omega) (by omega) (by omega) (by omega)]
      congr 2
      omega
    exact ⟨(paints_drawn valid places (fun w member => color_of_mem_fillRows member) memory).congr
      area, iff_of_false (by simp) flat⟩

theorem smallContext_clipOf : ClipOf smallBitmap smallContext.clipRect := by
  constructor <;> decide

/-- A rectangle that reaches out of the bitmap on three sides. -/
theorem graphicsFillRect_paints_small :
    Paints smallBitmap ((⟨-5, -5, 2, 7⟩ : NxgiRect).pixels ∩ (⟨0, 0, 4, 2⟩ : NxgiRect).pixels)
        (fun _ => smallContext.color) (fun _ => 0#8)
        (writePixels (fun _ => 0#8) (graphicsFillRect smallContext ⟨-5, -5, 2, 7⟩).2) ∧
      ((graphicsFillRect smallContext ⟨-5, -5, 2, 7⟩).1 = .sFalse ↔
        (⟨-5, -5, 2, 7⟩ : NxgiRect).pixels ∩ (⟨0, 0, 4, 2⟩ : NxgiRect).pixels = ∅) := by
  have sums : MovesInRange ⟨-5, -5, 2, 7⟩ smallContext.offset := by
    constructor <;> exact ⟨by decide, by decide⟩
  have target : smallContext.target = some smallBitmap := rfl
  exact graphicsFillRect_paints smallBitmap_valid target smallContext_clipOf (by decide) (by decide)
    sums (fun _ => 0#8)

/-! ## Copies -/

/-- The pixels of `rows` rows of `dst` from row `j` on, each in its own place. -/
def blitRows (t : NxgiBitmap) (dst : NxgiRect) (color : NxgiPoint → NxgiColor) :
    Nat → Int → List PixelWrite
  | 0, _ => []
  | rows + 1, j =>
    ((List.range (dst.x2 - dst.x1).toNat).map fun (k : Nat) =>
      let p : NxgiPoint := ⟨dst.x1 + k, dst.y1 + j⟩
      ⟨p.x, p.y, t.address p, color p⟩) ++ blitRows t dst color rows (j + 1)

/-- The bitmaps have no byte in common. -/
def NxgiBitmap.Apart (t src : NxgiBitmap) : Prop :=
  t.pBits + t.height * t.stride ≤ src.pBits ∨ src.pBits + src.height * src.stride ≤ t.pBits

theorem NxgiBitmap.Valid.address_below (valid : t.Valid) {p : NxgiPoint} (inside : p ∈ t.pixels) :
    t.address p + 4 ≤ t.pBits + t.height * t.stride := by
  obtain ⟨⟨left, right⟩, top, bottom⟩ := inside
  have rows : (p.y.toNat + 1) * t.stride ≤ t.height * t.stride :=
    Nat.mul_le_mul_right _ (by omega)
  have stride := valid.stride
  rw [Nat.add_mul] at rows
  rw [NxgiBitmap.address]
  omega

/-- What is written on one bitmap does not change the other. -/
theorem pixelAt_writePixels_apart {src : NxgiBitmap} (valid : t.Valid) (srcValid : src.Valid)
    (apart : t.Apart src) {pixels : List PixelWrite} (places : ∀ w ∈ pixels, OwnPlace t w)
    {q : NxgiPoint} (inside : q ∈ src.pixels) (memory : ByteMem) :
    src.pixelAt (writePixels memory pixels) q = src.pixelAt memory q := by
  refine colorAt_congr (srcValid.address_fits inside) fun a above below => ?_
  refine writePixels_elsewhere valid places fun p member => ?_
  obtain ⟨w, among, rfl⟩ := member
  have mine := valid.address_below (places w among).inside
  have other := srcValid.address_below inside
  have start : t.pBits ≤ t.address ⟨w.x, w.y⟩ := by
    rw [NxgiBitmap.address]
    omega
  have srcStart : src.pBits ≤ src.address q := by
    rw [NxgiBitmap.address]
    omega
  cases apart with
  | inl before => omega
  | inr behind => omega

section

variable {src : NxgiBitmap} {dst : NxgiRect} {srcPos : NxgiPoint} {memory memory' : ByteMem}

theorem drawn_blitRows {color : NxgiPoint → NxgiColor} {rows : Nat} {j : Int} :
    drawn (blitRows t dst color rows j) =
      (⟨dst.x1, dst.y1 + j, dst.x2, dst.y1 + j + rows⟩ : NxgiRect).pixels := by
  induction rows generalizing j with
  | zero =>
    ext p
    simp only [blitRows, mem_drawn, List.not_mem_nil, false_and, exists_false, false_iff,
      NxgiRect.mem_pixels]
    omega
  | succ rows inductionHypothesis =>
    rw [blitRows, drawn_append, inductionHypothesis]
    ext p
    simp only [mem_union, mem_drawn, List.mem_map, List.mem_range, NxgiRect.mem_pixels]
    constructor
    · intro either
      cases either with
      | inl row =>
        obtain ⟨w, ⟨k, below, rfl⟩, rfl⟩ := row
        simp only
        omega
      | inr later => omega
    · intro inside
      by_cases row : p.y = dst.y1 + j
      · exact .inl ⟨_, ⟨(p.x - dst.x1).toNat, by omega, rfl⟩,
          NxgiPoint.ext (by simp only; omega) row.symm⟩
      · exact .inr (by omega)

theorem mem_blitRows {color : NxgiPoint → NxgiColor} {rows : Nat} {j : Int}
    (member : w ∈ blitRows t dst color rows j) :
    w.pixel = t.address ⟨w.x, w.y⟩ ∧ w.color = color ⟨w.x, w.y⟩ := by
  induction rows generalizing j with
  | zero => cases member
  | succ rows inductionHypothesis =>
    cases List.mem_append.mp member with
    | inl row =>
      obtain ⟨k, _, rfl⟩ := List.mem_map.mp row
      exact ⟨rfl, rfl⟩
    | inr later => exact inductionHypothesis later

theorem blitRows_congr {color color' : NxgiPoint → NxgiColor} {rows : Nat} {j : Int}
    (same : ∀ p ∈ (⟨dst.x1, dst.y1 + j, dst.x2, dst.y1 + j + rows⟩ : NxgiRect).pixels,
      color p = color' p) : blitRows t dst color rows j = blitRows t dst color' rows j := by
  induction rows generalizing j with
  | zero => rfl
  | succ rows inductionHypothesis =>
    rw [blitRows, blitRows]
    congr 1
    · refine List.map_congr_left fun k below => ?_
      rw [List.mem_range] at below
      simp only
      rw [same]
      simp only [NxgiRect.mem_pixels]
      omega
    · refine inductionHypothesis fun p inside => same p ?_
      simp only [NxgiRect.mem_pixels] at inside ⊢
      omega

/-- A row is copied pixel by pixel. -/
theorem copyRow_eq (valid : t.Valid) (srcValid : src.Valid) {x y srcX srcY : Int} {n : Nat}
    (positive : 0 < n) (inside : ∀ k < n, (⟨x + k, y⟩ : NxgiPoint) ∈ t.pixels)
    (srcInside : ∀ k < n, (⟨srcX + k, srcY⟩ : NxgiPoint) ∈ src.pixels) :
    copyRow memory x y (pixelPtr t (asU32 x) (asU32 y))
        (src.pBits + u32 (asU32 srcY * src.stride) + u32 (asU32 srcX * t.bitsPerPixel) / 8) n =
      (List.range n).map fun (k : Nat) =>
        ⟨x + k, y, t.address ⟨x + k, y⟩, src.pixelAt memory ⟨srcX + k, srcY⟩⟩ := by
  have ⟨⟨left, right⟩, top, bottom⟩ := inside 0 positive
  have ⟨⟨srcLeft, srcRight⟩, srcTop, srcBottom⟩ := srcInside 0 positive
  simp only at left right top bottom srcLeft srcRight srcTop srcBottom
  have wide := valid.width_lt
  have high := valid.height_le
  have srcWide := srcValid.width_lt
  have srcHigh := srcValid.height_le
  have srcStride := srcValid.stride
  obtain ⟨column, sameX⟩ := Int.eq_ofNat_of_zero_le (show 0 ≤ x by omega)
  obtain ⟨row, sameY⟩ := Int.eq_ofNat_of_zero_le top
  obtain ⟨srcColumn, sameSrcX⟩ := Int.eq_ofNat_of_zero_le (show 0 ≤ srcX by omega)
  obtain ⟨srcRow, sameSrcY⟩ := Int.eq_ofNat_of_zero_le srcTop
  subst sameX sameY sameSrcX sameSrcY
  have srcFits := srcValid.row_fits (y := srcRow) (by omega)
  rw [copyRow, asU32_natCast (by omega), asU32_natCast (by omega), asU32_natCast (by omega),
    asU32_natCast (by omega), valid.pixelPtr_inside (by omega) (by omega), valid.depth,
    u32_of_lt (x := srcRow * src.stride) (by omega), u32_of_lt (x := srcColumn * 32) (by omega)]
  refine List.map_congr_left fun k below => ?_
  rw [List.mem_range] at below
  have address := valid.address_fits (inside k below)
  simp only [NxgiBitmap.pixelAt, NxgiBitmap.address, Int.toNat_natCast] at address ⊢
  rw [show ((column : Int) + k).toNat = column + k by omega] at address ⊢
  rw [show ((srcColumn : Int) + k).toNat = srcColumn + k by omega,
    show t.pBits + row * t.stride + 4 * column + 4 * k = t.pBits + row * t.stride + 4 * (column + k)
      by omega, u32_of_lt (by omega),
    show src.pBits + srcRow * src.stride + srcColumn * 32 / 8 + 4 * k =
      src.pBits + srcRow * src.stride + 4 * (srcColumn + k) by omega]

/-- The loop copies row by row, and no row that it writes is one that it reads. -/
theorem bitbltRows_eq (valid : t.Valid) (srcValid : src.Valid) (apart : t.Apart src)
    (shift : NxgiPoint) {rows : Nat} {j : Int} (shiftX : srcPos.x = dst.x1 + shift.x)
    (shiftY : srcPos.y = dst.y1 + shift.y) (wide : dst.x1 < dst.x2)
    (inside : ∀ p ∈ (⟨dst.x1, dst.y1 + j, dst.x2, dst.y1 + j + rows⟩ : NxgiRect).pixels,
      p ∈ t.pixels ∧ (⟨p.x + shift.x, p.y + shift.y⟩ : NxgiPoint) ∈ src.pixels)
    (same : ∀ q ∈ src.pixels, src.pixelAt memory' q = src.pixelAt memory q) :
    bitbltRows t src dst srcPos rows j memory' =
      blitRows t dst (fun p => src.pixelAt memory ⟨p.x + shift.x, p.y + shift.y⟩) rows j := by
  induction rows generalizing j memory' with
  | zero => rfl
  | succ rows inductionHypothesis =>
    have narrow := valid.width_lt
    have low := valid.height_le
    have srcNarrow := srcValid.width_lt
    have srcLow := srcValid.height_le
    have moved : ∀ k : Nat, (⟨srcPos.x + k, srcPos.y + j⟩ : NxgiPoint) =
        ⟨dst.x1 + k + shift.x, dst.y1 + j + shift.y⟩ := fun k =>
      NxgiPoint.ext (by simp only; omega) (by simp only; omega)
    have places : ∀ k < (dst.x2 - dst.x1).toNat,
        (⟨dst.x1 + k, dst.y1 + j⟩ : NxgiPoint) ∈ t.pixels ∧
          (⟨srcPos.x + k, srcPos.y + j⟩ : NxgiPoint) ∈ src.pixels := by
      intro k below
      obtain ⟨place, source⟩ := inside ⟨dst.x1 + k, dst.y1 + j⟩
        (by simp only [NxgiRect.mem_pixels]; omega)
      exact ⟨place, moved k ▸ source⟩
    obtain ⟨⟨⟨left, right⟩, top, bottom⟩, ⟨srcLeft, srcRight⟩, srcTop, srcBottom⟩ :=
      places ((dst.x2 - dst.x1).toNat - 1) (by omega)
    simp only at left right top bottom srcLeft srcRight srcTop srcBottom
    obtain ⟨⟨⟨start, _⟩, _⟩, ⟨srcStart, _⟩, _⟩ := places 0 (by omega)
    simp only at start srcStart
    have lineSize : u32 (asU32 (rectWidth dst) * src.bitsPerPixel) / 8 / 4 =
        (dst.x2 - dst.x1).toNat := by
      rw [rectWidth, i32_of_range (by omega) (by omega), srcValid.depth]
      simp only [u32, asU32]
      omega
    simp only [bitbltRows, blitRows]
    rw [lineSize, i32_of_range (x := dst.y1 + j) (by omega) (by omega),
      i32_of_range (x := srcPos.y + j) (by omega) (by omega),
      copyRow_eq valid srcValid (by omega) (fun k below => (places k below).1)
        fun k below => (places k below).2]
    congr 1
    · refine List.map_congr_left fun k below => ?_
      rw [List.mem_range] at below
      rw [same _ (places k below).2, moved]
    · refine inductionHypothesis (fun p member => inside p ?_) fun q source => ?_
      · simp only [NxgiRect.mem_pixels] at member ⊢
        omega
      · rw [← same q source]
        refine pixelAt_writePixels_apart valid srcValid apart (fun w member => ?_) source _
        obtain ⟨k, below, rfl⟩ := List.mem_map.mp member
        exact ⟨(places k (List.mem_range.mp below)).1, rfl⟩

/-- Nothing is copied when the clipped rectangle has no columns. -/
theorem bitbltRows_narrow (narrow : dst.x1 = dst.x2) (rows : Nat) (j : Int) :
    bitbltRows t src dst srcPos rows j memory = [] := by
  induction rows generalizing j memory with
  | zero => rfl
  | succ rows inductionHypothesis =>
    have lineSize : u32 (asU32 (rectWidth dst) * src.bitsPerPixel) / 8 / 4 = 0 := by
      simp [rectWidth, narrow, i32, asU32, u32]
    simp only [bitbltRows, lineSize]
    simpa [copyRow, writePixels] using @inductionHypothesis memory (j + 1)

end

/-- The rectangle that a copy of `srcRect` to `dstPos` fills on the target. -/
def blitRect (dstPos : NxgiPoint) (srcRect : NxgiRect) (offset : NxgiPoint) : NxgiRect :=
  (⟨dstPos.x, dstPos.y, dstPos.x + (srcRect.x2 - srcRect.x1),
    dstPos.y + (srcRect.y2 - srcRect.y1)⟩ : NxgiRect).moved offset

/-- The pixel of the source that a copy takes the color of `p` from. -/
def blitSource (dstPos : NxgiPoint) (srcRect : NxgiRect) (offset p : NxgiPoint) : NxgiPoint :=
  ⟨srcRect.x1 + p.x - dstPos.x - offset.x, srcRect.y1 + p.y - dstPos.y - offset.y⟩

/-- A rectangle inside a bitmap. -/
structure RectOf (src : NxgiBitmap) (r : NxgiRect) : Prop where
  left : 0 ≤ r.x1
  orderedX : r.x1 ≤ r.x2
  right : r.x2 ≤ src.width
  top : 0 ≤ r.y1
  orderedY : r.y1 ≤ r.y2
  bottom : r.y2 ≤ src.height

section

variable {src : NxgiBitmap} {srcRect : NxgiRect} {dstPos : NxgiPoint}

theorem blitSource_inside {p : NxgiPoint}
    (inside : p ∈ (blitRect dstPos srcRect gc.offset).pixels) :
    blitSource dstPos srcRect gc.offset p ∈ srcRect.pixels := by
  simp only [blitRect, NxgiRect.moved, blitSource, NxgiRect.mem_pixels] at inside ⊢
  omega

theorem blitRows_narrow {color : NxgiPoint → NxgiColor} {dst : NxgiRect}
    (narrow : dst.x1 = dst.x2) (rows : Nat) (j : Int) : blitRows t dst color rows j = [] := by
  induction rows generalizing j with
  | zero => rfl
  | succ rows inductionHypothesis =>
    rw [blitRows, inductionHypothesis, narrow]
    simp

/-- A copy writes the pixels of its clipped rectangle, with the colors of the source. -/
theorem graphicsBitblt_eq (valid : t.Valid) (target : gc.target = some t)
    (clipOf : ClipOf t gc.clipRect) (srcValid : src.Valid) (apart : t.Apart src)
    (rectOf : RectOf src srcRect) (sumsX : BlitSums dstPos.x (srcRect.x2 - srcRect.x1) gc.offset.x)
    (sumsY : BlitSums dstPos.y (srcRect.y2 - srcRect.y1) gc.offset.y) :
    ∃ hr, ∀ memory, graphicsBitblt gc memory dstPos src srcRect =
      (hr, blitRows t ((blitRect dstPos srcRect gc.offset).clippedTo gc.clipRect)
        (fun p => src.pixelAt memory (blitSource dstPos srcRect gc.offset p))
        (((blitRect dstPos srcRect gc.offset).clippedTo gc.clipRect).y2 -
          ((blitRect dstPos srcRect gc.offset).clippedTo gc.clipRect).y1).toNat 0) := by
  have ⟨srcLeft, srcOrderedX, srcRight, srcTop, srcOrderedY, srcBottom⟩ := rectOf
  have ⟨atLeft, _, width, atTop, _, height⟩ := clipOf
  have narrow := valid.width_lt
  have low := valid.height_le
  have srcNarrow := srcValid.width_lt
  have srcLow := srcValid.height_le
  have contained : nxgigRectContainsRect srcRect ⟨0, 0, i32 src.width, i32 src.height⟩ = true := by
    rw [i32_of_small (show src.width < 2 ^ 31 by omega),
      i32_of_small (show src.height < 2 ^ 31 by omega)]
    simp only [nxgigRectContainsRect, Bool.and_eq_true, nxgigPointInRect_iff, NxgiRect.p1,
      NxgiRect.p2]
    omega
  have widthEq : rectWidth srcRect = srcRect.x2 - srcRect.x1 := i32_of_range (by omega) (by omega)
  have heightEq : rectHeight srcRect = srcRect.y2 - srcRect.y1 := i32_of_range (by omega) (by omega)
  simp only [graphicsBitblt, target, srcValid.format, valid.format, ne_eq, not_true_eq_false,
    if_false, contained, Bool.not_true, Bool.false_eq_true, widthEq, heightEq,
    i32_of_range sumsX.far.1 sumsX.far.2, i32_of_range sumsY.far.1 sumsY.far.2,
    intrnlTransformPoint_eq clipOf.orderedX clipOf.orderedY, intrnlApplyOffset,
    i32_of_range sumsX.near.1 sumsX.near.2, i32_of_range sumsY.near.1 sumsY.near.2,
    i32_of_range sumsX.farMoved.1 sumsX.farMoved.2,
    i32_of_range sumsY.farMoved.1 sumsY.farMoved.2, NxgiRect.ofPoints]
  simp only [rectHeight, clipOf.i32_rows valid]
  have area := pixels_clippedTo clipOf (blitRect dstPos srcRect gc.offset)
  simp only [blitRect, NxgiRect.moved, NxgiRect.clippedTo] at area ⊢
  split
  · next empty =>
    refine ⟨.sFalse, fun memory => congrArg _ ?_⟩
    cases empty with
    | inl same => rw [← same, blitRows_narrow rfl]
    | inr same =>
      rw [← same, Int.sub_self]
      rfl
  · refine ⟨.sOk, fun memory => congrArg _ ?_⟩
    have rangeX := clampTo_range clipOf.orderedX (dstPos.x + gc.offset.x)
      (dstPos.x + (srcRect.x2 - srcRect.x1) + gc.offset.x)
      (clampTo gc.clipRect.x1 gc.clipRect.x2 (dstPos.x + gc.offset.x))
    have rangeY := clampTo_range clipOf.orderedY (dstPos.y + gc.offset.y)
      (dstPos.y + (srcRect.y2 - srcRect.y1) + gc.offset.y)
      (clampTo gc.clipRect.y1 gc.clipRect.y2 (dstPos.y + gc.offset.y))
    have columns := clampTo_mono clipOf.orderedX
      (show dstPos.x + gc.offset.x ≤ dstPos.x + (srcRect.x2 - srcRect.x1) + gc.offset.x by omega)
    generalize clampTo gc.clipRect.x1 gc.clipRect.x2 (dstPos.x + gc.offset.x) = x1 at *
    generalize clampTo gc.clipRect.y1 gc.clipRect.y2 (dstPos.y + gc.offset.y) = y1 at *
    generalize clampTo gc.clipRect.x1 gc.clipRect.x2
      (dstPos.x + (srcRect.x2 - srcRect.x1) + gc.offset.x) = x2 at *
    generalize clampTo gc.clipRect.y1 gc.clipRect.y2
      (dstPos.y + (srcRect.y2 - srcRect.y1) + gc.offset.y) = y2 at *
    by_cases narrow : x1 = x2
    · rw [bitbltRows_narrow narrow, blitRows_narrow narrow]
    · by_cases flat : y2 ≤ y1
      · rw [show (y2 - y1).toNat = 0 by omega]
        rfl
      · have insideX := rangeX.mp (by omega)
        have insideY := rangeY.mp (by omega)
        have moved : ∀ p, blitSource dstPos srcRect gc.offset p =
            ⟨p.x + (srcRect.x1 - dstPos.x - gc.offset.x),
              p.y + (srcRect.y1 - dstPos.y - gc.offset.y)⟩ := fun p =>
          NxgiPoint.ext (by simp only [blitSource]; omega) (by simp only [blitSource]; omega)
        simp only [moved]
        refine bitbltRows_eq valid srcValid apart ⟨srcRect.x1 - dstPos.x - gc.offset.x,
          srcRect.y1 - dstPos.y - gc.offset.y⟩ ?_ ?_ ?_ (fun p member => ?_) fun _ _ => rfl
        · simp only
          rw [i32_of_range (x := x1 - _) (by omega) (by omega), i32_of_range (by omega) (by omega)]
          omega
        · simp only
          rw [i32_of_range (x := y1 - _) (by omega) (by omega), i32_of_range (by omega) (by omega)]
          omega
        · simp only
          omega
        · have corners : p ∈ (⟨x1, y1, x2, y2⟩ : NxgiRect).pixels := by
            simp only [NxgiRect.mem_pixels] at member ⊢
            omega
          rw [area] at corners
          simp only [NxgiBitmap.mem_pixels, mem_inter_iff, NxgiRect.mem_pixels] at corners ⊢
          omega

/-- A copy gives each pixel of its clipped rectangle the color of the pixel of the source that it
covers, and depends on nothing but the pixels of the source rectangle. -/
theorem graphicsBitblt_paints (valid : t.Valid) (target : gc.target = some t)
    (clipOf : ClipOf t gc.clipRect) (srcValid : src.Valid) (apart : t.Apart src)
    (rectOf : RectOf src srcRect) (sumsX : BlitSums dstPos.x (srcRect.x2 - srcRect.x1) gc.offset.x)
    (sumsY : BlitSums dstPos.y (srcRect.y2 - srcRect.y1) gc.offset.y) (memory : ByteMem) :
    Paints t ((blitRect dstPos srcRect gc.offset).pixels ∩ gc.clipRect.pixels)
        (fun p => src.pixelAt memory (blitSource dstPos srcRect gc.offset p)) memory
        (writePixels memory (graphicsBitblt gc memory dstPos src srcRect).2) ∧
      ∀ memory' : ByteMem,
        (∀ q ∈ srcRect.pixels, src.pixelAt memory' q = src.pixelAt memory q) →
        graphicsBitblt gc memory' dstPos src srcRect =
          graphicsBitblt gc memory dstPos src srcRect := by
  obtain ⟨hr, copied⟩ := graphicsBitblt_eq valid target clipOf srcValid apart rectOf sumsX sumsY
  have area := pixels_clippedTo clipOf (blitRect dstPos srcRect gc.offset)
  rw [copied memory, ← area]
  generalize (blitRect dstPos srcRect gc.offset).clippedTo gc.clipRect = dst at *
  have rows : (⟨dst.x1, dst.y1 + 0, dst.x2, dst.y1 + 0 + ((dst.y2 - dst.y1).toNat : Nat)⟩ :
      NxgiRect).pixels = dst.pixels := by
    ext p
    simp only [NxgiRect.mem_pixels]
    omega
  constructor
  · refine (paints_drawn valid (fun w member => ⟨?_, (mem_blitRows member).1⟩)
      (fun w member => (mem_blitRows member).2) memory).congr (drawn_blitRows.trans rows)
    have inside : (⟨w.x, w.y⟩ : NxgiPoint) ∈ dst.pixels := by
      rw [← rows, ← drawn_blitRows]
      exact ⟨w, member, rfl⟩
    exact clipOf.pixels_subset (area ▸ inside).2
  · intro memory' same
    rw [copied memory']
    refine congrArg _ (blitRows_congr fun p inside => same _ (blitSource_inside ?_))
    rw [rows, area] at inside
    exact inside.1

end

/-- A bitmap of two columns and two rows. -/
def smallSource : NxgiBitmap where
  width := 2
  stride := 8
  height := 2
  bitsPerPixel := 32
  format := .bgra32
  pBits := 0x200000

theorem smallSource_valid : smallSource.Valid where
  format := rfl
  depth := rfl
  wide := by decide
  high := by decide
  row := by decide
  stride := by decide
  fits := by decide

/-- A copy of the whole of it, of which the right column is clipped. -/
theorem graphicsBitblt_paints_small :
    Paints smallBitmap
      ((blitRect ⟨3, 0⟩ ⟨0, 0, 2, 2⟩ ⟨0, 0⟩).pixels ∩ (⟨0, 0, 4, 2⟩ : NxgiRect).pixels)
      (fun p => smallSource.pixelAt (BitVec.ofNat 8) (blitSource ⟨3, 0⟩ ⟨0, 0, 2, 2⟩ ⟨0, 0⟩ p))
      (BitVec.ofNat 8)
      (writePixels (BitVec.ofNat 8)
        (graphicsBitblt smallContext (BitVec.ofNat 8) ⟨3, 0⟩ smallSource ⟨0, 0, 2, 2⟩).2) := by
  have target : smallContext.target = some smallBitmap := rfl
  have rectOf : RectOf smallSource ⟨0, 0, 2, 2⟩ := by
    constructor <;> decide
  have sums : ∀ dst : Int, 0 ≤ dst → dst ≤ 3 → BlitSums dst 2 0 := by
    intro dst above below
    constructor <;> constructor <;> omega
  exact (graphicsBitblt_paints smallBitmap_valid target smallContext_clipOf smallSource_valid
    (.inl (by decide)) rectOf (sums 3 (by decide) (by decide)) (sums 0 (by decide) (by decide))
    (BitVec.ofNat 8)).1

end Antonix
