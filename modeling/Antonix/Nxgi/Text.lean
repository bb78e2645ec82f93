import Antonix.Nxgi.Glyphs

/-! # Text inside the clipping rectangle

A character is drawn when its cell overlaps the clipping rectangle.  The loop stops at
the first cell behind the rectangle, and no cell after it overlaps it. -/

namespace Antonix

variable {t : NxgiBitmap} {clip : NxgiRect} {gc : NxgiGraphicsContext}

/-- The cell of a character at `p` has pixels in common with the rectangle. -/
structure CellOverlaps (clip : NxgiRect) (p : NxgiPoint) : Prop where
  columns : max clip.x1 p.x < min clip.x2 (p.x + 8)
  rows : max clip.y1 p.y < min clip.y2 (p.y + 8)

/-- The character at `p` leaves no pixel on the far edges, if it is drawn. -/
def CellStaysInside (clip : NxgiRect) (p : NxgiPoint) (c : BitVec 8) : Prop :=
  CellOverlaps clip p → 0 ≤ c.toInt → GlyphStaysInside clip p c

/-- The position on the bitmap of text at `pos`. -/
def moved (gc : NxgiGraphicsContext) (pos : NxgiPoint) : NxgiPoint :=
  ⟨pos.x + gc.offset.x, pos.y + gc.offset.y⟩

/-- Every character of the text stays inside; each is 8 columns behind the one before. -/
def TextStaysInside (gc : NxgiGraphicsContext) : List (BitVec 8) → NxgiPoint → Prop
  | [], _ => True
  | c :: rest, pos =>
    CellStaysInside gc.clipRect (moved gc pos) c ∧ TextStaysInside gc rest ⟨pos.x + 8, pos.y⟩

/-- The sums that position `n` characters do not overflow. -/
structure TextSums (gc : NxgiGraphicsContext) (pos : NxgiPoint) (n : Nat) : Prop where
  size : 8 * n < 2 ^ 31
  left : FitsI32 pos.x ∧ FitsI32 (pos.x + gc.offset.x)
  right : FitsI32 (pos.x + 8 * n) ∧ FitsI32 (pos.x + 8 * n + gc.offset.x)
  top : FitsI32 pos.y ∧ FitsI32 (pos.y + gc.offset.y)
  bottom : FitsI32 (pos.y + 8) ∧ FitsI32 (pos.y + 8 + gc.offset.y)

/-! ## Cells -/

theorem clampTo_difference {low high : Int} (ordered : low ≤ high) (x : Int) :
    (0 < clampTo low high (x + 8) - clampTo low high x ↔ max low x < min high (x + 8)) ∧
      (8 ≤ clampTo low high (x + 8) - clampTo low high x ↔ low ≤ x ∧ x + 8 ≤ high) := by
  simp only [clampTo]
  constructor
  · split_ifs <;> omega
  · split_ifs <;> omega

/-- Text whose cells are all outside is not drawn. -/
theorem TextStaysInside.of_hidden {text : List (BitVec 8)} {pos : NxgiPoint}
    (hidden : ∀ k < text.length, ¬ CellOverlaps gc.clipRect (moved gc ⟨pos.x + 8 * k, pos.y⟩)) :
    TextStaysInside gc text pos := by
  induction text generalizing pos with
  | nil => trivial
  | cons c rest inductionHypothesis =>
    constructor
    · intro overlaps
      have first := hidden 0 (by simp)
      simp only [Nat.cast_zero, Int.mul_zero, Int.add_zero] at first
      exact absurd overlaps first
    · apply inductionHypothesis
      intro k inRest
      have later := hidden (k + 1) (by simpa using inRest)
      have same : pos.x + 8 + 8 * (k : Int) = pos.x + 8 * ((k + 1 : Nat) : Int) := by
        push_cast
        omega
      simp only [same]
      exact later

theorem charRect_eq (clipOf : ClipOf t gc.clipRect) {pos : NxgiPoint} {n : Nat}
    (sums : TextSums gc pos (n + 1)) :
    NxgiRect.ofPoints (intrnlTransformPoint gc pos)
        (intrnlTransformPoint gc ⟨i32 (pos.x + 8), i32 (pos.y + 8)⟩) =
      ⟨clampTo gc.clipRect.x1 gc.clipRect.x2 (moved gc pos).x,
        clampTo gc.clipRect.y1 gc.clipRect.y2 (moved gc pos).y,
        clampTo gc.clipRect.x1 gc.clipRect.x2 ((moved gc pos).x + 8),
        clampTo gc.clipRect.y1 gc.clipRect.y2 ((moved gc pos).y + 8)⟩ := by
  have ⟨size, left, right, top, bottom⟩ := sums
  simp only [FitsI32] at left right top bottom
  have near : i32 (pos.x + gc.offset.x) = pos.x + gc.offset.x := i32_of_range left.2.1 left.2.2
  have upper : i32 (pos.y + gc.offset.y) = pos.y + gc.offset.y := i32_of_range top.2.1 top.2.2
  have next : i32 (pos.x + 8) = pos.x + 8 := i32_of_range (by omega) (by omega)
  have under : i32 (pos.y + 8) = pos.y + 8 := i32_of_range bottom.1.1 bottom.1.2
  have far : i32 (pos.x + 8 + gc.offset.x) = pos.x + gc.offset.x + 8 := by
    rw [i32_of_range (by omega) (by omega)]
    omega
  have lower : i32 (pos.y + 8 + gc.offset.y) = pos.y + gc.offset.y + 8 := by
    rw [i32_of_range bottom.2.1 bottom.2.2]
    omega
  simp only [intrnlTransformPoint_eq clipOf.orderedX clipOf.orderedY, NxgiRect.ofPoints, moved,
    near, upper, next, under, far, lower]

theorem TextSums.first {pos : NxgiPoint} {n : Nat} (sums : TextSums gc pos (n + 1)) :
    (FitsI32 (moved gc pos).x ∧ FitsI32 ((moved gc pos).x + 8)) ∧
      FitsI32 (moved gc pos).y ∧ FitsI32 ((moved gc pos).y + 8) := by
  have ⟨size, left, right, top, bottom⟩ := sums
  simp only [FitsI32, moved] at *
  omega

theorem TextSums.rest {pos : NxgiPoint} {n : Nat} (sums : TextSums gc pos (n + 1)) :
    TextSums gc ⟨pos.x + 8, pos.y⟩ n := by
  have ⟨size, left, right, top, bottom⟩ := sums
  simp only [FitsI32] at left right
  push_cast at right
  refine ⟨by omega, ?_, ?_, top, bottom⟩
  all_goals
    simp only [FitsI32]
    omega

/-- A cell inside the rectangle is drawn whole. -/
theorem intrnlDrawChar_inside_iff (valid : t.Valid) (clipOf : ClipOf t clip) (font : NxgiFont)
    {p : NxgiPoint} {c : BitVec 8} (fitsX : FitsI32 p.x ∧ FitsI32 (p.x + 8))
    (fitsY : FitsI32 p.y ∧ FitsI32 (p.y + 8)) (columns : clip.x1 ≤ p.x ∧ p.x + 8 ≤ clip.x2)
    (rows : clip.y1 ≤ p.y ∧ p.y + 8 ≤ clip.y2) :
    (∀ w ∈ intrnlDrawChar t (asU32 p.x) (asU32 p.y) font c, InsideClip t clip w) ↔
      (0 ≤ c.toInt → GlyphStaysInside clip p c) := by
  apply drawGlyph_inside_iff valid clipOf font fitsX fitsY
  · intro i inRow
    simp only [sysFontWidth] at inRow ⊢
    exact iff_of_true trivial (by omega)
  · intro j inGlyph
    simp only [sysFontHeight] at inGlyph
    exact iff_of_true rfl (by omega)

/-- A cell that overlaps the rectangle is drawn as a segment. -/
theorem intrnlDrawCharSegment_inside_iff (valid : t.Valid) (clipOf : ClipOf t clip) (font : NxgiFont)
    {p : NxgiPoint} {c : BitVec 8} (fitsX : FitsI32 p.x ∧ FitsI32 (p.x + 8))
    (fitsY : FitsI32 p.y ∧ FitsI32 (p.y + 8)) (overlaps : CellOverlaps clip p) :
    (∀ w ∈ intrnlDrawCharSegment t (asU32 p.x) (asU32 p.y)
        ⟨clampTo clip.x1 clip.x2 p.x, clampTo clip.y1 clip.y2 p.y,
          clampTo clip.x1 clip.x2 (p.x + 8), clampTo clip.y1 clip.y2 (p.y + 8)⟩ font c,
        InsideClip t clip w) ↔ (0 ≤ c.toInt → GlyphStaysInside clip p c) := by
  have ⟨columns, rows⟩ := overlaps
  apply drawGlyph_inside_iff valid clipOf font fitsX fitsY
  · intro i inRow
    simp only [sysFontWidth] at inRow ⊢
    rw [Bool.not_eq_true', Bool.or_eq_false_iff, decide_eq_false_iff_not, decide_eq_false_iff_not]
    simp only [clampTo]
    split_ifs <;> omega
  · intro j inGlyph
    simp only [sysFontHeight] at inGlyph
    rw [Bool.not_eq_true', Bool.or_eq_false_iff, decide_eq_false_iff_not, decide_eq_false_iff_not]
    simp only [clampTo]
    split_ifs <;> omega

/-! ## The loop -/

/-- A turn of the loop, by whether the cell overlaps the rectangle. -/
theorem drawTextLoop_cons (valid : t.Valid) (clipOf : ClipOf t gc.clipRect)
    (font : gc.font.size = 1) (c : BitVec 8) {rest : List (BitVec 8)} {pos : NxgiPoint}
    (sums : TextSums gc pos (rest.length + 1)) (drawCntr : Nat) :
    (CellOverlaps gc.clipRect (moved gc pos) → ∃ pixels,
      drawTextLoop gc t (c :: rest) pos drawCntr =
        pixels ++ drawTextLoop gc t rest ⟨pos.x + 8, pos.y⟩ (drawCntr + 1) ∧
      ((∀ w ∈ pixels, InsideClip t gc.clipRect w) ↔
        (0 ≤ c.toInt → GlyphStaysInside gc.clipRect (moved gc pos) c))) ∧
    (¬ CellOverlaps gc.clipRect (moved gc pos) →
      drawTextLoop gc t (c :: rest) pos drawCntr =
        if 0 < drawCntr then [] else drawTextLoop gc t rest ⟨pos.x + 8, pos.y⟩ drawCntr) := by
  have ⟨fitsX, fitsY⟩ := sums.first
  have next : i32 (pos.x + 8) = pos.x + 8 :=
    i32_of_range sums.rest.left.1.1 sums.rest.left.1.2
  have charSize : intrnlGetCharSize gc = ⟨8, 8⟩ := if_neg (by simp [font])
  have rect := charRect_eq clipOf sums
  rw [next] at rect
  have ⟨hasX, wholeX⟩ := clampTo_difference clipOf.orderedX (moved gc pos).x
  have ⟨hasY, wholeY⟩ := clampTo_difference clipOf.orderedY (moved gc pos).y
  have positionX : i32 (pos.x + gc.offset.x) = (moved gc pos).x :=
    i32_of_range fitsX.1.1 fitsX.1.2
  have positionY : i32 (pos.y + gc.offset.y) = (moved gc pos).y :=
    i32_of_range fitsY.1.1 fitsY.1.2
  have columns := clipOf.i32_columns valid (moved gc pos).x ((moved gc pos).x + 8)
  have rows := clipOf.i32_rows valid (moved gc pos).y ((moved gc pos).y + 8)
  have whole := and_congr wholeX wholeY
  have part := and_congr hasX hasY
  simp only [drawTextLoop, charSize, rect, next, positionX, positionY, rectWidth, rectHeight,
    columns, rows, ge_iff_le, gt_iff_lt, whole, part]
  constructor
  · intro overlaps
    by_cases inside : (gc.clipRect.x1 ≤ (moved gc pos).x ∧ (moved gc pos).x + 8 ≤ gc.clipRect.x2) ∧
        gc.clipRect.y1 ≤ (moved gc pos).y ∧ (moved gc pos).y + 8 ≤ gc.clipRect.y2
    · have sameX := clampTo_of_inside inside.1.1 (by omega : (moved gc pos).x ≤ gc.clipRect.x2)
      have sameY := clampTo_of_inside inside.2.1 (by omega : (moved gc pos).y ≤ gc.clipRect.y2)
      rw [if_pos inside, sameX, sameY]
      exact ⟨_, rfl, intrnlDrawChar_inside_iff valid clipOf gc.font fitsX fitsY inside.1 inside.2⟩
    · rw [if_neg inside, if_pos ⟨overlaps.columns, overlaps.rows⟩]
      exact ⟨_, rfl, intrnlDrawCharSegment_inside_iff valid clipOf gc.font fitsX fitsY overlaps⟩
  · intro hidden
    have none : ¬ (max gc.clipRect.x1 (moved gc pos).x < min gc.clipRect.x2 ((moved gc pos).x + 8) ∧
        max gc.clipRect.y1 (moved gc pos).y < min gc.clipRect.y2 ((moved gc pos).y + 8)) :=
      fun both => hidden ⟨both.1, both.2⟩
    rw [if_neg (by omega), if_neg none]

/-- The characters from `pos` on.  Once a cell was drawn, the cell at `pos` can only be hidden
behind the right edge. -/
theorem drawTextLoop_inside_iff (valid : t.Valid) (clipOf : ClipOf t gc.clipRect)
    (font : gc.font.size = 1) {text : List (BitVec 8)} {pos : NxgiPoint} (drawCntr : Nat)
    (sums : TextSums gc pos text.length)
    (entered : 0 < drawCntr → gc.clipRect.x1 < (moved gc pos).x ∧
      max gc.clipRect.y1 (moved gc pos).y < min gc.clipRect.y2 ((moved gc pos).y + 8)) :
    (∀ w ∈ drawTextLoop gc t text pos drawCntr, InsideClip t gc.clipRect w) ↔
      TextStaysInside gc text pos := by
  induction text generalizing pos drawCntr with
  | nil => simp [drawTextLoop, TextStaysInside]
  | cons c rest inductionHypothesis =>
    have ⟨drawn, skipped⟩ := drawTextLoop_cons valid clipOf font c sums drawCntr
    by_cases overlaps : CellOverlaps gc.clipRect (moved gc pos)
    · obtain ⟨pixels, same, stays⟩ := drawn overlaps
      have columns := overlaps.columns
      have later := inductionHypothesis (drawCntr + 1) sums.rest (fun _ =>
        ⟨by simp only [moved] at columns ⊢; omega, overlaps.rows⟩)
      rw [same, List.forall_mem_append, stays, later, TextStaysInside, CellStaysInside]
      simp only [overlaps, true_implies]
    · rw [skipped overlaps]
      by_cases started : 0 < drawCntr
      · have ⟨behind, rows⟩ := entered started
        rw [if_pos started]
        refine iff_of_true (by simp) (TextStaysInside.of_hidden ?_)
        intro k _ later
        apply overlaps
        have columns := later.columns
        simp only [moved] at behind columns ⊢
        exact ⟨by simp only; omega, rows⟩
      · have later := inductionHypothesis drawCntr sums.rest (fun entered =>
          absurd entered started)
        rw [if_neg started, later, TextStaysInside, CellStaysInside]
        simp only [overlaps, false_implies, true_and]

/-- Text without a visible cell is not drawn at all. -/
theorem hidden_of_empty {low high x : Int} (ordered : low ≤ high) {n k : Nat} (inside : k < n)
    (empty : clampTo low high (x + 8 * n) - clampTo low high x = 0) :
    ¬ max low (x + 8 * k) < min high (x + 8 * k + 8) := by
  simp only [clampTo] at empty
  split_ifs at empty <;> omega

/-- The text is drawn, and it stays inside exactly when its characters do. -/
theorem graphicsDrawText_inside_iff (valid : t.Valid) (target : gc.target = some t)
    (clipOf : ClipOf t gc.clipRect) {pos : NxgiPoint} {text : List (BitVec 8)}
    (sums : TextSums gc pos text.length) :
    (∀ w ∈ (graphicsDrawText gc pos text).2, InsideClip t gc.clipRect w) ↔
      (gc.font.size = 1 → TextStaysInside gc text pos) := by
  have ⟨size, left, right, top, bottom⟩ := sums
  have near : i32 (pos.x + gc.offset.x) = (moved gc pos).x := i32_of_range left.2.1 left.2.2
  have upper : i32 (pos.y + gc.offset.y) = (moved gc pos).y := i32_of_range top.2.1 top.2.2
  by_cases font : gc.font.size = 1
  · have length : i32 (i32 text.length * 8) = 8 * text.length := by
      rw [i32_of_small (by omega), i32_of_range (by omega) (by omega), Int.mul_comm]
    have far : i32 (i32 (pos.x + 8 * text.length) + gc.offset.x) =
        (moved gc pos).x + 8 * text.length := by
      rw [i32_of_range right.1.1 right.1.2, i32_of_range right.2.1 right.2.2]
      simp only [moved]
      omega
    have lower : i32 (i32 (pos.y + 8) + gc.offset.y) = (moved gc pos).y + 8 := by
      rw [i32_of_range bottom.1.1 bottom.1.2, i32_of_range bottom.2.1 bottom.2.2]
      simp only [moved]
      omega
    have charSize : intrnlGetCharSize gc = ⟨8, 8⟩ := if_neg (by simp [font])
    simp only [graphicsDrawText, target, graphicsTextSize, charSize, length,
      intrnlTransformPoint_eq clipOf.orderedX clipOf.orderedY, near, upper, far, lower, font,
      true_implies]
    rw [clipOf.i32_columns valid, clipOf.i32_rows valid]
    split
    · rename_i empty
      refine iff_of_true (by simp) (TextStaysInside.of_hidden ?_)
      intro k inText overlaps
      cases empty with
      | inl columns =>
        have hidden := hidden_of_empty clipOf.orderedX inText columns
        have visible := overlaps.columns
        simp only [moved] at hidden visible
        omega
      | inr rows =>
        have hidden := hidden_of_empty (k := 0) (n := 1) clipOf.orderedY (by decide)
          (x := (moved gc pos).y) (by simpa using rows)
        have visible := overlaps.rows
        simp only [moved] at hidden visible
        omega
    · exact drawTextLoop_inside_iff valid clipOf font 0 sums (by simp)
  · have charSize : intrnlGetCharSize gc = ⟨0, 0⟩ := if_pos font
    have sameX : i32 (pos.x + 0) = pos.x := by
      rw [Int.add_zero, i32_of_range left.1.1 left.1.2]
    have sameY : i32 (pos.y + 0) = pos.y := by
      rw [Int.add_zero, i32_of_range top.1.1 top.1.2]
    have textSize : graphicsTextSize gc text = ⟨0, 0⟩ := by
      rw [graphicsTextSize, charSize, Int.mul_zero]
      rfl
    have nothing : graphicsDrawText gc pos text = (.sOk, []) := by
      simp only [graphicsDrawText, target, textSize, sameX, sameY, Int.sub_self]
      exact if_pos (.inl rfl)
    simp [nothing, font]

end Antonix
