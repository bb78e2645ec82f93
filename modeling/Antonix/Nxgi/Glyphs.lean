import Antonix.Nxgi.Lines

/-! # Glyphs inside the clipping rectangle

A glyph at `(x, y)` has its pixels in the columns `x + 1` to `x + 8` and the rows `y`
to `y + 7`: column `i` of a row, counted from bit `i` of its byte, is `x + 8 - i`.
A glyph is drawn whole or as a segment, and both keep the pixels on the far edges of
the clipping rectangle.  The pointer is computed from the unsigned `x`, so a glyph that
starts left of column 0 is written elsewhere. -/

namespace Antonix

variable {t : NxgiBitmap} {clip : NxgiRect} {gc : NxgiGraphicsContext} {w : PixelWrite}

/-- Column `i` of a row of a glyph is drawn, when `shown` tells which columns are not clipped.
The loop stops at the first shown column behind which it sees no bit. -/
structure ColumnDrawn (glyph : Int) (shown : Nat → Prop) (i : Nat) : Prop where
  inRow : i < sysFontWidth
  shows : shown i
  bit : (glyph >>> i) % 2 = 1
  reached : ∀ k < i, shown k → 1 < glyph >>> k

/-- A pixel of column `i`. -/
def columnPixel (color : NxgiColor) (x pixPtr : Nat) (y : Int) (i : Nat) : PixelWrite :=
  ⟨i32 ((x : Int) + sysFontWidth - i), y, u32 (pixPtr + 4 * (sysFontWidth - i)), color⟩

section columns

variable {color : NxgiColor} {x pixPtr : Nat} {y glyph : Int} {shown : Int → Bool}

/-- The test of column `i`. -/
def columnShown (x : Nat) (shown : Int → Bool) (i : Nat) : Prop :=
  shown (i32 ((x : Int) + sysFontWidth - i)) = true

theorem mem_glyphColumns_cons {i : Nat} {rest : List Nat} :
    w ∈ glyphColumns color x pixPtr y glyph shown (i :: rest) ↔
      (columnShown x shown i ∧ (glyph >>> i) % 2 = 1 ∧ w = columnPixel color x pixPtr y i) ∨
      ((columnShown x shown i → 1 < glyph >>> i) ∧
        w ∈ glyphColumns color x pixPtr y glyph shown rest) := by
  simp only [glyphColumns, columnShown, columnPixel]
  generalize i32 ((x : Int) + sysFontWidth - i) = lx
  by_cases visible : shown lx = true
  · by_cases bit : (glyph >>> i) % 2 = 1
    · by_cases last : glyph >>> i ≤ 1
      · simp [visible, bit, last, Int.not_lt.mpr last]
      · simp [visible, bit, last, Int.not_le.mp last]
    · by_cases last : glyph >>> i ≤ 1
      · simp [visible, bit, last, Int.not_lt.mpr last]
      · simp [visible, bit, last, Int.not_le.mp last]
  · simp [visible]

theorem mem_glyphColumns_range {n s : Nat} :
    w ∈ glyphColumns color x pixPtr y glyph shown (List.range' s n) ↔
      ∃ i, (s ≤ i ∧ i < s + n) ∧ columnShown x shown i ∧ (glyph >>> i) % 2 = 1 ∧
        (∀ k, s ≤ k → k < i → columnShown x shown k → 1 < glyph >>> k) ∧
        w = columnPixel color x pixPtr y i := by
  induction n generalizing s with
  | zero =>
    simp only [List.range'_zero, glyphColumns, List.not_mem_nil, false_iff]
    intro drawn
    obtain ⟨i, range, _⟩ := drawn
    omega
  | succ n inductionHypothesis =>
    rw [List.range'_succ, mem_glyphColumns_cons, inductionHypothesis]
    constructor
    · intro either
      cases either with
      | inl here =>
        exact ⟨s, by omega, here.1, here.2.1, fun k _ _ => by omega, here.2.2⟩
      | inr later =>
        obtain ⟨passes, i, range, visible, bit, reached, same⟩ := later
        refine ⟨i, by omega, visible, bit, ?_, same⟩
        intro k above below
        by_cases first : k = s
        · exact first ▸ passes
        · exact reached k (by omega) below
    · intro drawn
      obtain ⟨i, range, visible, bit, reached, same⟩ := drawn
      by_cases first : i = s
      · subst first
        exact .inl ⟨visible, bit, same⟩
      · exact .inr ⟨reached s (by omega) (by omega), i, by omega, visible, bit,
          fun k above below => reached k (by omega) below, same⟩

theorem mem_glyphColumns :
    w ∈ glyphColumns color x pixPtr y glyph shown (List.range sysFontWidth) ↔
      ∃ i, ColumnDrawn glyph (columnShown x shown) i ∧ w = columnPixel color x pixPtr y i := by
  rw [List.range_eq_range', mem_glyphColumns_range]
  constructor
  · intro drawn
    obtain ⟨i, range, visible, bit, reached, same⟩ := drawn
    exact ⟨i, ⟨by omega, visible, bit, fun k below => reached k (by omega) below⟩, same⟩
  · intro drawn
    obtain ⟨i, column, same⟩ := drawn
    have inRow := column.inRow
    exact ⟨i, by omega, column.shows, column.bit, fun k _ below => column.reached k below, same⟩

theorem ColumnDrawn.congr {shown shown' : Nat → Prop} {i : Nat}
    (agree : ∀ k < sysFontWidth, shown k ↔ shown' k) :
    ColumnDrawn glyph shown i ↔ ColumnDrawn glyph shown' i := by
  constructor
  · intro drawn
    have inRow := drawn.inRow
    exact ⟨inRow, (agree i inRow).mp drawn.shows, drawn.bit, fun k below shows =>
      drawn.reached k below ((agree k (by omega)).mpr shows)⟩
  · intro drawn
    have inRow := drawn.inRow
    exact ⟨inRow, (agree i inRow).mpr drawn.shows, drawn.bit, fun k below shows =>
      drawn.reached k below ((agree k (by omega)).mp shows)⟩

end columns

theorem mem_drawGlyph {font : NxgiFont} {x y : Nat} {shownX shownY : Int → Bool} {c : BitVec 8} :
    w ∈ drawGlyph t font x y shownX shownY c ↔
      0 ≤ c.toInt ∧ ∃ j < sysFontHeight, shownY (i32 ((y : Int) + j)) = true ∧
        ∃ i, ColumnDrawn (sysFontRow c.toNat j) (columnShown x shownX) i ∧
          w = columnPixel font.color x (pixelPtr t x (u32 (y + j))) (i32 ((y : Int) + j)) i := by
  rw [drawGlyph]
  by_cases negative : c.toInt < 0
  · simp [negative]
  · rw [if_neg negative]
    simp only [List.mem_flatMap, List.mem_range, Int.not_lt.mp negative, true_and]
    constructor
    · intro drawn
      obtain ⟨j, inGlyph, member⟩ := drawn
      split at member
      · simp at member
      · rename_i visible
        split at member
        · simp at member
        · exact ⟨j, inGlyph, by simpa using visible, mem_glyphColumns.mp member⟩
    · intro drawn
      obtain ⟨j, inGlyph, visible, i, column, same⟩ := drawn
      refine ⟨j, inGlyph, ?_⟩
      have bits : sysFontRow c.toNat j ≠ 0 := by
        intro empty
        have bit := column.bit
        simp [empty] at bit
      rw [if_neg (by simp [visible]), if_neg bits]
      exact mem_glyphColumns.mpr ⟨i, column, same⟩

/-- A value of an `int32_t` -/
def FitsI32 (x : Int) : Prop := -2 ^ 31 ≤ x ∧ x < 2 ^ 31

/-! ## Glyphs at a point of the bitmap -/

section

variable {p : NxgiPoint}

theorem glyphColumn_eq (fits : FitsI32 p.x ∧ FitsI32 (p.x + 8)) {i : Nat}
    (inRow : i < sysFontWidth) :
    i32 ((asU32 p.x : Int) + sysFontWidth - i) = p.x + sysFontWidth - i := by
  simp only [FitsI32] at fits
  simp only [sysFontWidth] at inRow ⊢
  rw [Int.add_sub_assoc, i32_asU32_add, i32_of_range (by omega) (by omega), Int.add_sub_assoc]

theorem glyphRow_eq (fits : FitsI32 p.y ∧ FitsI32 (p.y + 8)) {j : Nat}
    (inGlyph : j < sysFontHeight) : i32 ((asU32 p.y : Int) + j) = p.y + j := by
  simp only [FitsI32] at fits
  simp only [sysFontHeight] at inGlyph
  rw [i32_asU32_add, i32_of_range (by omega) (by omega)]

/-- The pointer of a glyph is the one of its pixels unless the glyph starts left of column 0. -/
theorem glyph_pixel_iff (valid : t.Valid) {i j : Nat} (inRow : i < sysFontWidth)
    (first : 0 ≤ p.x + sysFontWidth - i) (last : p.x + sysFontWidth - i < t.width)
    (upper : 0 ≤ p.y + j) (lower : p.y + j < t.height) :
    (u32 (pixelPtr t (asU32 p.x) (u32 (asU32 p.y + j)) + 4 * (sysFontWidth - i)) : Int) =
      t.pBits + (p.y + j) * t.stride + 4 * (p.x + sysFontWidth - i) ↔ 0 ≤ p.x := by
  have width := valid.width_lt
  have height := valid.height_le
  have stride := valid.stride
  obtain ⟨y, row⟩ := Int.eq_ofNat_of_zero_le upper
  have unsigned : u32 (asU32 p.y + j) = y := by
    simp only [u32, asU32]
    omega
  have fits := valid.row_fits (show y < t.height by omega)
  have rowFits : u32 (y * t.stride) = y * t.stride := u32_of_lt (by omega)
  simp only [sysFontWidth] at inRow first last ⊢
  rw [unsigned, row, pixelPtr, valid.depth, rowFits,
    show (y : Int) * t.stride = (y * t.stride : Nat) by push_cast; rfl]
  generalize y * t.stride = offset at *
  simp only [u32, asU32]
  omega

/-- A pixel of a glyph in the clipping rectangle with its far edges stays inside unless it is on
one of these or the glyph starts left of column 0. -/
theorem columnPixel_inside_iff (valid : t.Valid) (clipOf : ClipOf t clip) (color : NxgiColor)
    (fitsX : FitsI32 p.x ∧ FitsI32 (p.x + 8)) (fitsY : FitsI32 p.y ∧ FitsI32 (p.y + 8)) {i j : Nat}
    (inRow : i < sysFontWidth) (inGlyph : j < sysFontHeight)
    (left : clip.x1 ≤ p.x + sysFontWidth - i) (top : clip.y1 ≤ p.y + j) :
    InsideClip t clip (columnPixel color (asU32 p.x) (pixelPtr t (asU32 p.x) (u32 (asU32 p.y + j)))
        (i32 ((asU32 p.y : Int) + j)) i) ↔
      0 ≤ p.x ∧ p.x + sysFontWidth - i < clip.x2 ∧ p.y + j < clip.y2 := by
  have ⟨atLeft, _, width, atTop, _, height⟩ := clipOf
  rw [columnPixel, glyphColumn_eq fitsX inRow, glyphRow_eq fitsY inGlyph]
  constructor
  · intro pixel
    have ⟨_, right, _, bottom, address⟩ := pixel
    simp only at right bottom address
    exact ⟨(glyph_pixel_iff valid inRow (by omega) (by omega) (by omega) (by omega)).mp address,
      right, bottom⟩
  · intro before
    have ⟨started, right, bottom⟩ := before
    exact ⟨left, right, top, bottom,
      (glyph_pixel_iff valid inRow (by omega) (by omega) (by omega) (by omega)).mpr started⟩

/-! ## Glyphs that stay inside -/

/-- The glyph of `c` at `p` shows no pixel on a far edge of the clipping rectangle, and none at
all when it starts left of column 0. -/
def GlyphStaysInside (clip : NxgiRect) (p : NxgiPoint) (c : BitVec 8) : Prop :=
  ∀ j < sysFontHeight, clip.y1 ≤ p.y + j → p.y + j ≤ clip.y2 →
    ∀ i, ColumnDrawn (sysFontRow c.toNat j)
        (fun k => clip.x1 ≤ p.x + sysFontWidth - k ∧ p.x + sysFontWidth - k ≤ clip.x2) i →
      0 ≤ p.x ∧ p.x + sysFontWidth - i < clip.x2 ∧ p.y + j < clip.y2

theorem drawGlyph_inside_iff (valid : t.Valid) (clipOf : ClipOf t clip) (font : NxgiFont)
    {c : BitVec 8} {shownX shownY : Int → Bool}
    (fitsX : FitsI32 p.x ∧ FitsI32 (p.x + 8)) (fitsY : FitsI32 p.y ∧ FitsI32 (p.y + 8))
    (columns : ∀ i : Nat, i < sysFontWidth → (shownX (p.x + sysFontWidth - i) = true ↔
      clip.x1 ≤ p.x + sysFontWidth - i ∧ p.x + sysFontWidth - i ≤ clip.x2))
    (rows : ∀ j : Nat, j < sysFontHeight → (shownY (p.y + j) = true ↔
      clip.y1 ≤ p.y + j ∧ p.y + j ≤ clip.y2)) :
    (∀ w ∈ drawGlyph t font (asU32 p.x) (asU32 p.y) shownX shownY c, InsideClip t clip w) ↔
      (0 ≤ c.toInt → GlyphStaysInside clip p c) := by
  have agree : ∀ j i, ColumnDrawn (sysFontRow c.toNat j) (columnShown (asU32 p.x) shownX) i ↔
      ColumnDrawn (sysFontRow c.toNat j)
        (fun k => clip.x1 ≤ p.x + sysFontWidth - k ∧ p.x + sysFontWidth - k ≤ clip.x2) i := by
    intro j i
    apply ColumnDrawn.congr
    intro k inRow
    rw [columnShown, glyphColumn_eq fitsX inRow]
    exact columns k inRow
  constructor
  · intro inside printable j inGlyph above below i drawn
    have visible : shownY (i32 ((asU32 p.y : Int) + j)) = true := by
      rw [glyphRow_eq fitsY inGlyph]
      exact (rows j inGlyph).mpr ⟨above, below⟩
    have pixel := inside _ (mem_drawGlyph.mpr
      ⟨printable, j, inGlyph, visible, i, (agree j i).mpr drawn, rfl⟩)
    exact (columnPixel_inside_iff valid clipOf font.color fitsX fitsY drawn.inRow inGlyph
      drawn.shows.1 above).mp pixel
  · intro stays w member
    obtain ⟨printable, j, inGlyph, visible, i, column, rfl⟩ := mem_drawGlyph.mp member
    have onRow := (rows j inGlyph).mp (glyphRow_eq fitsY inGlyph ▸ visible)
    have drawn := (agree j i).mp column
    exact (columnPixel_inside_iff valid clipOf font.color fitsX fitsY drawn.inRow inGlyph
      drawn.shows.1 onRow.1).mpr (stays printable j inGlyph onRow.1 onRow.2 i drawn)

end

end Antonix
