import Antonix.Nxgi.Clipping

/-! # What a drawing leaves on the bitmap

A drawing paints an area of the bitmap: each pixel of the area has its color then, and
no other byte of memory has changed.  A list of pixels that are written to their own
places paints the area of their coordinates. -/

namespace Antonix

open Set

/-- The pixels of a rectangle, without its far edges. -/
def NxgiRect.pixels (r : NxgiRect) : Set NxgiPoint :=
  {p | (r.x1 ≤ p.x ∧ p.x < r.x2) ∧ r.y1 ≤ p.y ∧ p.y < r.y2}

/-- The pixels of a bitmap. -/
def NxgiBitmap.pixels (t : NxgiBitmap) : Set NxgiPoint :=
  {p | (0 ≤ p.x ∧ p.x < t.width) ∧ 0 ≤ p.y ∧ p.y < t.height}

/-- Where a pixel is in memory. -/
def NxgiBitmap.address (t : NxgiBitmap) (p : NxgiPoint) : Nat :=
  t.pBits + p.y.toNat * t.stride + 4 * p.x.toNat

/-- The color of a pixel. -/
def NxgiBitmap.pixelAt (t : NxgiBitmap) (memory : ByteMem) (p : NxgiPoint) : NxgiColor :=
  colorAt memory (t.address p)

/-- The area is painted, and nothing else changes. -/
structure Paints (t : NxgiBitmap) (area : Set NxgiPoint) (color : NxgiPoint → NxgiColor)
    (memory memory' : ByteMem) : Prop where
  painted : ∀ p ∈ area, t.pixelAt memory' p = color p
  kept : ∀ a, (∀ p ∈ area, a < t.address p ∨ t.address p + 4 ≤ a) → memory' a = memory a

/-- The coordinates of the pixels that are written. -/
def drawn (pixels : List PixelWrite) : Set NxgiPoint :=
  {p | ∃ w ∈ pixels, (⟨w.x, w.y⟩ : NxgiPoint) = p}

@[simp] theorem NxgiRect.mem_pixels {r : NxgiRect} {p : NxgiPoint} :
    p ∈ r.pixels ↔ (r.x1 ≤ p.x ∧ p.x < r.x2) ∧ r.y1 ≤ p.y ∧ p.y < r.y2 := Iff.rfl

@[simp] theorem NxgiBitmap.mem_pixels {t : NxgiBitmap} {p : NxgiPoint} :
    p ∈ t.pixels ↔ (0 ≤ p.x ∧ p.x < t.width) ∧ 0 ≤ p.y ∧ p.y < t.height := Iff.rfl

variable {t : NxgiBitmap} {clip : NxgiRect} {gc : NxgiGraphicsContext} {w : PixelWrite}
  {memory memory' : ByteMem} {p q : NxgiPoint} {color : NxgiPoint → NxgiColor}
  {area : Set NxgiPoint}

/-! ## Pixels in memory -/

theorem NxgiBitmap.Valid.address_fits (valid : t.Valid) (inside : p ∈ t.pixels) :
    t.address p + 4 ≤ 2 ^ 32 := by
  obtain ⟨⟨left, right⟩, top, bottom⟩ := inside
  have fits := valid.row_fits (y := p.y.toNat) (by omega)
  have stride := valid.stride
  rw [NxgiBitmap.address]
  omega

/-- Two pixels have no byte in common. -/
theorem NxgiBitmap.Valid.address_apart (valid : t.Valid) (first : p ∈ t.pixels)
    (second : q ∈ t.pixels) (other : p ≠ q) :
    t.address p + 4 ≤ t.address q ∨ t.address q + 4 ≤ t.address p := by
  obtain ⟨⟨left, right⟩, top, bottom⟩ := first
  obtain ⟨⟨left', right'⟩, top', bottom'⟩ := second
  have stride := valid.stride
  have rows : ∀ a b : Nat, a < b → a * t.stride + t.stride ≤ b * t.stride := by
    intro a b below
    have more := Nat.mul_le_mul_right t.stride (show a + 1 ≤ b by omega)
    rwa [Nat.add_mul, Nat.one_mul] at more
  simp only [NxgiBitmap.address]
  by_cases same : p.y = q.y
  · have columns : p.x ≠ q.x := fun equal => other (NxgiPoint.ext equal same)
    rw [same]
    omega
  · by_cases above : p.y < q.y
    · have between := rows p.y.toNat q.y.toNat (by omega)
      omega
    · have between := rows q.y.toNat p.y.toNat (by omega)
      omega

theorem colorAt_storeColor {a : Nat} {c : NxgiColor} (fits : a + 4 ≤ 2 ^ 32) :
    colorAt (storeColor memory a c) a = c := by
  simp only [colorAt, storeColor]
  rw [u32_of_lt (x := a) (by omega), u32_of_lt (x := a + 1) (by omega),
    u32_of_lt (x := a + 2) (by omega), u32_of_lt (x := a + 3) (by omega)]
  simp

/-- A color is read from four bytes. -/
theorem colorAt_congr {a : Nat} (fits : a + 4 ≤ 2 ^ 32)
    (same : ∀ b, a ≤ b → b < a + 4 → memory' b = memory b) :
    colorAt memory' a = colorAt memory a := by
  simp only [colorAt]
  rw [u32_of_lt (x := a) (by omega), u32_of_lt (x := a + 1) (by omega),
    u32_of_lt (x := a + 2) (by omega), u32_of_lt (x := a + 3) (by omega),
    same a (by omega) (by omega), same (a + 1) (by omega) (by omega),
    same (a + 2) (by omega) (by omega), same (a + 3) (by omega) (by omega)]

/-- The other pixels keep their colors. -/
theorem Paints.other (paints : Paints t area color memory memory') (valid : t.Valid)
    (inside : area ⊆ t.pixels) (pixel : p ∈ t.pixels) (outside : p ∉ area) :
    t.pixelAt memory' p = t.pixelAt memory p := by
  refine colorAt_congr (valid.address_fits pixel) fun b above below => paints.kept b ?_
  intro q member
  have apart := valid.address_apart pixel (inside member) fun same => outside (same ▸ member)
  omega

theorem Paints.congr {area' : Set NxgiPoint} (paints : Paints t area color memory memory')
    (same : area = area') : Paints t area' color memory memory' :=
  same ▸ paints

/-! ## Lists of pixels -/

@[simp] theorem mem_drawn {pixels : List PixelWrite} :
    p ∈ drawn pixels ↔ ∃ w ∈ pixels, (⟨w.x, w.y⟩ : NxgiPoint) = p := Iff.rfl

theorem drawn_append (pixels more : List PixelWrite) :
    drawn (pixels ++ more) = drawn pixels ∪ drawn more := by
  ext p
  simp only [mem_drawn, mem_union, List.mem_append, or_and_right, exists_or]

/-- A pixel that is written to its own place in the bitmap. -/
structure OwnPlace (t : NxgiBitmap) (w : PixelWrite) : Prop where
  inside : (⟨w.x, w.y⟩ : NxgiPoint) ∈ t.pixels
  pixel : w.pixel = t.address ⟨w.x, w.y⟩

theorem InsideClip.ownPlace (inside : InsideClip t clip w) (clipOf : ClipOf t clip) :
    OwnPlace t w := by
  have ⟨left, right, top, bottom, _⟩ := inside
  have ⟨atLeft, _, width, atTop, _, height⟩ := clipOf
  refine ⟨⟨⟨by simp only; omega, by simp only; omega⟩, by simp only; omega, by simp only; omega⟩, ?_⟩
  obtain ⟨x, y, sameX, sameY, pixel⟩ := inside.natural clipOf
  simp only [NxgiBitmap.address, sameX, sameY, Int.toNat_natCast, pixel]

/-- What is written last at a pixel is its color; here all that is written there is the same. -/
theorem pixelAt_writePixels (valid : t.Valid) {pixels : List PixelWrite}
    (places : ∀ w ∈ pixels, OwnPlace t w) (colors : ∀ w ∈ pixels, w.color = color ⟨w.x, w.y⟩)
    (inside : p ∈ t.pixels) (known : t.pixelAt memory p = color p ∨ p ∈ drawn pixels) :
    t.pixelAt (writePixels memory pixels) p = color p := by
  induction pixels generalizing memory with
  | nil => simpa [writePixels] using known
  | cons w rest inductionHypothesis =>
    obtain ⟨place, later⟩ := List.forall_mem_cons.mp places
    obtain ⟨colored, laterColors⟩ := List.forall_mem_cons.mp colors
    rw [writePixels_cons]
    refine inductionHypothesis later laterColors ?_
    by_cases here : (⟨w.x, w.y⟩ : NxgiPoint) = p
    · left
      rw [NxgiBitmap.pixelAt, place.pixel, here, colorAt_storeColor (valid.address_fits inside),
        colored, here]
    · cases known with
      | inl before =>
        left
        rw [← before]
        refine colorAt_congr (valid.address_fits inside) fun b above below => ?_
        have apart := valid.address_apart place.inside inside here
        rw [place.pixel]
        exact storeColor_of_apart (valid.address_fits place.inside) (by omega)
      | inr member =>
        right
        obtain ⟨w', among, same⟩ := member
        cases List.mem_cons.mp among with
        | inl first => exact absurd (first ▸ same) here
        | inr second => exact ⟨w', second, same⟩

theorem writePixels_elsewhere (valid : t.Valid) {pixels : List PixelWrite}
    (places : ∀ w ∈ pixels, OwnPlace t w) {a : Nat}
    (other : ∀ p ∈ drawn pixels, a < t.address p ∨ t.address p + 4 ≤ a) :
    writePixels memory pixels a = memory a := by
  refine writePixels_of_apart (fun w member => ?_) fun w member => ?_
  · rw [(places w member).pixel]
    exact valid.address_fits (places w member).inside
  · rw [(places w member).pixel]
    exact other ⟨w.x, w.y⟩ ⟨w, member, rfl⟩

/-- Pixels that are written to their own places paint the area of their coordinates. -/
theorem paints_drawn (valid : t.Valid) {pixels : List PixelWrite}
    (places : ∀ w ∈ pixels, OwnPlace t w) (colors : ∀ w ∈ pixels, w.color = color ⟨w.x, w.y⟩)
    (memory : ByteMem) : Paints t (drawn pixels) color memory (writePixels memory pixels) where
  painted p member := by
    obtain ⟨w, among, rfl⟩ := member
    exact pixelAt_writePixels valid places colors (places w among).inside (.inr ⟨w, among, rfl⟩)
  kept _ other := writePixels_elsewhere valid places other

end Antonix
