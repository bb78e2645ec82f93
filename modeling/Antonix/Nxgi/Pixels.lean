import Antonix.Nxgi.Graphics

/-! # Where pixels are written

A pixel that is written stays inside the clipping rectangle when its coordinates are
before the far edges of the rectangle and its pointer is the one of these coordinates.
The clipped end points of a primitive may lie on the far edges. -/

namespace Antonix

/-- A bitmap of format BGRA32 in memory.  The stride is computed from the number of bits in a
row, in 32 bits. -/
structure NxgiBitmap.Valid (t : NxgiBitmap) : Prop where
  format : t.format = .bgra32
  depth : t.bitsPerPixel = 32
  wide : 0 < t.width
  high : 0 < t.height
  row : t.width * 32 < 2 ^ 32
  stride : t.width * 4 ≤ t.stride
  fits : t.pBits + t.height * t.stride ≤ 2 ^ 32

/-- A clipping rectangle of a bitmap. -/
structure ClipOf (t : NxgiBitmap) (clip : NxgiRect) : Prop where
  left : 0 ≤ clip.x1
  orderedX : clip.x1 ≤ clip.x2
  right : clip.x2 ≤ t.width
  top : 0 ≤ clip.y1
  orderedY : clip.y1 ≤ clip.y2
  bottom : clip.y2 ≤ t.height

/-- A point of a clipping rectangle, its far edges included. -/
structure OnClip (clip : NxgiRect) (p : NxgiPoint) : Prop where
  left : clip.x1 ≤ p.x
  right : p.x ≤ clip.x2
  top : clip.y1 ≤ p.y
  bottom : p.y ≤ clip.y2

/-- The pixel that is written is one of the clipping rectangle, and the four bytes at its pointer
are those of this pixel. -/
structure InsideClip (t : NxgiBitmap) (clip : NxgiRect) (w : PixelWrite) : Prop where
  left : clip.x1 ≤ w.x
  right : w.x < clip.x2
  top : clip.y1 ≤ w.y
  bottom : w.y < clip.y2
  pixel : (w.pixel : Int) = t.pBits + w.y * t.stride + 4 * w.x

variable {t : NxgiBitmap} {clip : NxgiRect} {gc : NxgiGraphicsContext} {w : PixelWrite}

/-! ## Pointers -/

namespace NxgiBitmap.Valid

/-- A row of the bitmap ends where memory ends, or before. -/
theorem row_fits (valid : t.Valid) {y : Nat} (inside : y < t.height) :
    t.pBits + y * t.stride + t.stride ≤ 2 ^ 32 := by
  have rows : (y + 1) * t.stride ≤ t.height * t.stride := Nat.mul_le_mul_right _ inside
  have fits := valid.fits
  rw [Nat.add_mul] at rows
  omega

theorem width_lt (valid : t.Valid) : t.width < 2 ^ 27 := by
  have row := valid.row
  omega

theorem height_le (valid : t.Valid) : t.height ≤ 2 ^ 30 := by
  have fits := valid.fits
  have wide := valid.wide
  have stride := valid.stride
  have rows : t.height * 4 ≤ t.height * t.stride := Nat.mul_le_mul_left _ (by omega)
  omega

/-- The pointer to a pixel of the bitmap, or to the column behind it. -/
theorem pixelPtr_eq (valid : t.Valid) {x y : Nat} (insideX : x ≤ t.width) (insideY : y < t.height) :
    t.pBits + y * t.stride + 4 * x ≤ 2 ^ 32 ∧
      pixelPtr t x y = u32 (t.pBits + y * t.stride + 4 * x) := by
  have fits := valid.row_fits insideY
  have stride := valid.stride
  have row := valid.row
  have wide := valid.wide
  rw [pixelPtr, valid.depth, u32_of_lt (x := y * t.stride) (by omega),
    u32_of_lt (x := x * 32) (by omega)]
  constructor
  · omega
  · congr 1
    omega

theorem address (valid : t.Valid) {x y : Nat} (insideX : x < t.width) (insideY : y < t.height) :
    u32 (t.pBits + y * t.stride + 4 * x) = t.pBits + y * t.stride + 4 * x := by
  have fits := valid.row_fits insideY
  have stride := valid.stride
  exact u32_of_lt (by omega)

theorem pixelPtr_inside (valid : t.Valid) {x y : Nat} (insideX : x < t.width)
    (insideY : y < t.height) : pixelPtr t x y = t.pBits + y * t.stride + 4 * x := by
  rw [(valid.pixelPtr_eq insideX.le insideY).2, valid.address insideX insideY]

end NxgiBitmap.Valid

/-- The coordinates of a point of the rectangle do not change when they become unsigned. -/
theorem OnClip.natural {p : NxgiPoint} (onClip : OnClip clip p) (valid : t.Valid)
    (clipOf : ClipOf t clip) : ∃ x y : Nat, p = ⟨x, y⟩ ∧ asU32 p.x = x ∧ asU32 p.y = y := by
  have ⟨left, right, top, bottom⟩ := onClip
  have ⟨atLeft, _, width, atTop, _, height⟩ := clipOf
  have wide := valid.width_lt
  have high := valid.height_le
  obtain ⟨x, column⟩ := Int.eq_ofNat_of_zero_le (show 0 ≤ p.x by omega)
  obtain ⟨y, row⟩ := Int.eq_ofNat_of_zero_le (show 0 ≤ p.y by omega)
  refine ⟨x, y, NxgiPoint.ext column row, ?_, ?_⟩
  · rw [column, asU32_natCast (by omega)]
  · rw [row, asU32_natCast (by omega)]

/-! ## Runs of pixels -/

theorem mem_pixelRun {color : NxgiColor} {dx dy : Int} {step n pixel : Nat} {x y : Int} :
    w ∈ pixelRun color dx dy step n x y pixel ↔
      ∃ k < n, w = ⟨x + k * dx, y + k * dy, u32 (pixel + k * step), color⟩ := by
  induction n generalizing x y pixel with
  | zero => simp [pixelRun]
  | succ n inductionHypothesis =>
    have moved : ∀ k : Nat, (⟨x + dx + k * dx, y + dy + k * dy, u32 (pixel + step + k * step),
        color⟩ : PixelWrite) = ⟨x + (k + 1 : Nat) * dx, y + (k + 1 : Nat) * dy,
        u32 (pixel + (k + 1) * step), color⟩ := by
      intro k
      have columns : x + dx + k * dx = x + (k + 1 : Nat) * dx := by
        rw [Int.natCast_succ, Int.add_mul]; omega
      have rows : y + dy + k * dy = y + (k + 1 : Nat) * dy := by
        rw [Int.natCast_succ, Int.add_mul]; omega
      have bytes : pixel + step + k * step = pixel + (k + 1) * step := by
        rw [Nat.add_mul]; omega
      rw [columns, rows, bytes]
    simp only [pixelRun, List.mem_cons, inductionHypothesis, moved]
    constructor
    · intro either
      cases either with
      | inl first => exact ⟨0, by omega, by simpa using first⟩
      | inr later =>
        obtain ⟨k, below, same⟩ := later
        exact ⟨k + 1, by omega, same⟩
    · intro reached
      obtain ⟨k, below, same⟩ := reached
      cases k with
      | zero => exact .inl (by simpa using same)
      | succ k => exact .inr ⟨k, by omega, same⟩

theorem mem_intrnlDrawHline {x1 y x2 : Nat} (fits1 : x1 < 2 ^ 32) (fits2 : x2 < 2 ^ 32) :
    w ∈ intrnlDrawHline gc t x1 y x2 ↔
      ∃ k < max x1 x2 - min x1 x2,
        w = ⟨(min x1 x2 : Nat) + k, y, u32 (pixelPtr t (min x1 x2) y + k * 4), gc.color⟩ := by
  simp only [intrnlDrawHline]
  by_cases swapped : x1 > x2
  · rw [if_pos swapped, mem_pixelRun, sub32_of_le (by omega) fits1, Nat.max_eq_left (by omega),
      Nat.min_eq_right (by omega)]
    simp
  · rw [if_neg swapped, mem_pixelRun, sub32_of_le (by omega) fits2, Nat.max_eq_right (by omega),
      Nat.min_eq_left (by omega)]
    simp

theorem mem_intrnlDrawVline {x y1 y2 : Nat} (fits1 : y1 < 2 ^ 32) (fits2 : y2 < 2 ^ 32) :
    w ∈ intrnlDrawVline gc t x y1 y2 ↔
      ∃ k < max y1 y2 - min y1 y2,
        w = ⟨x, (min y1 y2 : Nat) + k, u32 (pixelPtr t x (min y1 y2) + k * t.stride), gc.color⟩ := by
  simp only [intrnlDrawVline]
  by_cases swapped : y1 > y2
  · rw [if_pos swapped, mem_pixelRun, sub32_of_le (by omega) fits1, Nat.max_eq_left (by omega),
      Nat.min_eq_right (by omega)]
    simp
  · rw [if_neg swapped, mem_pixelRun, sub32_of_le (by omega) fits2, Nat.max_eq_right (by omega),
      Nat.min_eq_left (by omega)]
    simp

/-! ## Runs that stay inside -/

/-- A row of pixels between columns of the rectangle stays inside unless it lies on the lower
edge. -/
theorem hline_inside_iff (gc : NxgiGraphicsContext) (valid : t.Valid) (clipOf : ClipOf t clip)
    {x1 y x2 : Nat} (first : OnClip clip ⟨x1, y⟩) (last : OnClip clip ⟨x2, y⟩) :
    (∀ w ∈ intrnlDrawHline gc t x1 y x2, InsideClip t clip w) ↔ x1 = x2 ∨ y < clip.y2 := by
  have ⟨left1, right1, top, _⟩ := first
  have ⟨left2, right2, _, _⟩ := last
  have inBitmap := clipOf.right
  have rows := clipOf.bottom
  have width := valid.width_lt
  simp only at left1 right1 left2 right2 top
  constructor
  · intro inside
    by_contra violated
    have pixel := inside _ ((mem_intrnlDrawHline (by omega) (by omega)).mpr
      ⟨0, by omega, rfl⟩)
    have above := pixel.bottom
    simp only at above
    omega
  · intro allowed w member
    obtain ⟨k, below, rfl⟩ := (mem_intrnlDrawHline (by omega) (by omega)).mp member
    have above : y < clip.y2 := by omega
    have column : min x1 x2 + k < t.width := by omega
    have address := valid.address (x := min x1 x2 + k) (y := y) column (by omega)
    have pointer := valid.pixelPtr_inside (x := min x1 x2) (y := y) (by omega) (by omega)
    refine ⟨by simp only; omega, by simp only; omega, top, above, ?_⟩
    simp only
    rw [pointer, show t.pBits + y * t.stride + 4 * min x1 x2 + k * 4 =
      t.pBits + y * t.stride + 4 * (min x1 x2 + k) by omega, address]
    push_cast
    rfl

/-- A column of pixels between rows of the rectangle stays inside unless it lies on the right
edge. -/
theorem vline_inside_iff (gc : NxgiGraphicsContext) (valid : t.Valid) (clipOf : ClipOf t clip)
    {x y1 y2 : Nat} (first : OnClip clip ⟨x, y1⟩) (last : OnClip clip ⟨x, y2⟩) :
    (∀ w ∈ intrnlDrawVline gc t x y1 y2, InsideClip t clip w) ↔ y1 = y2 ∨ x < clip.x2 := by
  have ⟨left, _, top1, bottom1⟩ := first
  have ⟨_, _, top2, bottom2⟩ := last
  have inBitmap := clipOf.right
  have rows := clipOf.bottom
  have height := valid.height_le
  simp only at left top1 bottom1 top2 bottom2
  constructor
  · intro inside
    by_contra violated
    have pixel := inside _ ((mem_intrnlDrawVline (by omega) (by omega)).mpr
      ⟨0, by omega, rfl⟩)
    have before := pixel.right
    simp only at before
    omega
  · intro allowed w member
    obtain ⟨k, below, rfl⟩ := (mem_intrnlDrawVline (by omega) (by omega)).mp member
    have before : x < clip.x2 := by omega
    have row : min y1 y2 + k < t.height := by omega
    have address := valid.address (x := x) (y := min y1 y2 + k) (by omega) row
    have pointer := valid.pixelPtr_inside (x := x) (y := min y1 y2) (by omega) (by omega)
    refine ⟨left, before, by simp only; omega, by simp only; omega, ?_⟩
    simp only
    rw [pointer, show t.pBits + min y1 y2 * t.stride + 4 * x + k * t.stride =
      t.pBits + (min y1 y2 + k) * t.stride + 4 * x by rw [Nat.add_mul]; omega, address]
    push_cast
    rfl

end Antonix
