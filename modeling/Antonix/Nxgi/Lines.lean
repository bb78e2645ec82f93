import Antonix.Nxgi.LineLoop

/-! # Lines inside the clipping rectangle

The loop that draws a line is the walk of `LineWalk`: it ends at the second point, and
every pixel on the way lies between the two end points.  So a line leaves the clipping
rectangle exactly through an end point on a far edge. -/

namespace Antonix

variable {t : NxgiBitmap} {clip : NxgiRect} {gc : NxgiGraphicsContext} {p1 p2 p : NxgiPoint}

/-! ## Clipped points -/

theorem intrnlTransformPoint_eq (orderedX : gc.clipRect.x1 ≤ gc.clipRect.x2)
    (orderedY : gc.clipRect.y1 ≤ gc.clipRect.y2) (p : NxgiPoint) :
    intrnlTransformPoint gc p =
      ⟨clampTo gc.clipRect.x1 gc.clipRect.x2 (i32 (p.x + gc.offset.x)),
        clampTo gc.clipRect.y1 gc.clipRect.y2 (i32 (p.y + gc.offset.y))⟩ := by
  have swap : ∀ low high x : Int, low ≤ high →
      (if x > high then high else if x < low then low else x) = clampTo low high x := by
    intro low high x ordered
    rw [clampTo]
    split
    · rw [if_neg (by omega)]
    · rfl
  simp only [intrnlTransformPoint, swap _ _ _ orderedX, swap _ _ _ orderedY]

theorem onClip_transformPoint (clipOf : ClipOf t gc.clipRect) (p : NxgiPoint) :
    OnClip gc.clipRect (intrnlTransformPoint gc p) := by
  have insideX := clampTo_inside clipOf.orderedX (i32 (p.x + gc.offset.x))
  have insideY := clampTo_inside clipOf.orderedY (i32 (p.y + gc.offset.y))
  rw [intrnlTransformPoint_eq clipOf.orderedX clipOf.orderedY]
  exact ⟨insideX.1, insideX.2, insideY.1, insideY.2⟩

theorem ClipOf.i32_columns (clipOf : ClipOf t clip) (valid : t.Valid) (a b : Int) :
    i32 (clampTo clip.x1 clip.x2 b - clampTo clip.x1 clip.x2 a) =
      clampTo clip.x1 clip.x2 b - clampTo clip.x1 clip.x2 a := by
  have first := clampTo_inside clipOf.orderedX a
  have last := clampTo_inside clipOf.orderedX b
  have atLeft := clipOf.left
  have width := clipOf.right
  have wide := valid.width_lt
  exact i32_of_range (by omega) (by omega)

theorem ClipOf.i32_rows (clipOf : ClipOf t clip) (valid : t.Valid) (a b : Int) :
    i32 (clampTo clip.y1 clip.y2 b - clampTo clip.y1 clip.y2 a) =
      clampTo clip.y1 clip.y2 b - clampTo clip.y1 clip.y2 a := by
  have first := clampTo_inside clipOf.orderedY a
  have last := clampTo_inside clipOf.orderedY b
  have atTop := clipOf.top
  have height := clipOf.bottom
  have high := valid.height_le
  exact i32_of_range (by omega) (by omega)

/-- `set_clip_rect` stores a rectangle of the target. -/
theorem clipOf_graphicsSetClipRect (valid : t.Valid) {r : NxgiRect} (orderedX : r.x1 ≤ r.x2)
    (orderedY : r.y1 ≤ r.y2) : ClipOf t (graphicsSetClipRect gc t r).clipRect := by
  have width := i32_of_small (show t.width < 2 ^ 31 from Nat.lt_trans valid.width_lt (by decide))
  have height := i32_of_small (Nat.lt_of_le_of_lt valid.height_le (by decide : 2 ^ 30 < 2 ^ 31))
  have sanitized : ∀ (a b : Int) (size : Nat), a ≤ b →
      0 ≤ (if (if a < 0 then 0 else a) > (size : Int) then (size : Int) else if a < 0 then 0 else a) ∧
      (if (if a < 0 then 0 else a) > (size : Int) then (size : Int) else if a < 0 then 0 else a) ≤
        (if (if b < 0 then 0 else b) > (size : Int) then (size : Int) else if b < 0 then 0 else b) ∧
      (if (if b < 0 then 0 else b) > (size : Int) then (size : Int) else if b < 0 then 0 else b) ≤
        size := by
    intro a b size ordered
    split_ifs <;> omega
  have columns := sanitized r.x1 r.x2 t.width orderedX
  have rows := sanitized r.y1 r.y2 t.height orderedY
  simp only [graphicsSetClipRect, width, height]
  exact ⟨columns.1, columns.2.1, columns.2.2, rows.1, rows.2.1, rows.2.2⟩

/-! ## The loop -/

/-- The state of the loop: the walk to `p2`, with coordinates that leave room in 32 bits. -/
structure Approaching (steps : LineSteps) (p2 p1 : NxgiPoint) (err ra rb : Int) : Prop where
  walking : LineWalk.Walking steps.dx steps.dy err ra rb
  columns : (steps.sx = 1 ∧ p2.x = p1.x + ra) ∨ (steps.sx = -1 ∧ p2.x = p1.x - ra)
  rows : (steps.sy = 1 ∧ p2.y = p1.y + rb) ∨ (steps.sy = -1 ∧ p2.y = p1.y - rb)
  small : steps.dx ≤ 2 ^ 30 ∧ steps.dy ≤ 2 ^ 30
  source : 0 ≤ p1.x ∧ p1.x ≤ 2 ^ 30 ∧ 0 ≤ p1.y ∧ p1.y ≤ 2 ^ 30
  target : 0 ≤ p2.x ∧ p2.x ≤ 2 ^ 30 ∧ 0 ≤ p2.y ∧ p2.y ≤ 2 ^ 30

namespace Approaching

variable {steps : LineSteps} {err ra rb : Int}

theorem stepping (approaching : Approaching steps p2 p1 err ra rb) :
    Stepping steps p2 p1 err ra rb := by
  have ⟨walking, columns, rows, small, source, target⟩ := approaching
  exact ⟨walking, columns, rows, small, ⟨by omega, by omega⟩, ⟨by omega, by omega⟩⟩

/-- The loop ends at the second point after as many turns as are left along the longer axis. -/
theorem draws (approaching : Approaching steps p2 p1 err ra rb) (gc : NxgiGraphicsContext)
    (t : NxgiBitmap) {turns : Nat}
    (remaining : LineWalk.left steps.dx steps.dy ra rb = turns) :
    ∃ pixels, lineLoop gc t p2 steps (turns + 1) p1 err = some pixels ∧
      linePixel gc t p1 ∈ pixels ∧ linePixel gc t p2 ∈ pixels ∧
      ∀ w ∈ pixels, ∃ p, w = linePixel gc t p ∧ Between p1 p2 p := by
  have stepping := approaching.stepping
  refine ⟨_, (stepping.lineLoop_eq gc t remaining _).trans (if_pos (by omega)),
    List.mem_map_of_mem (List.mem_of_head? (head?_linePoints steps turns p1 err)),
    List.mem_map_of_mem (List.mem_of_getLast? (stepping.getLast?_linePoints remaining)), ?_⟩
  intro w member
  obtain ⟨p, visited, rfl⟩ := List.mem_map.mp member
  exact ⟨p, rfl, (stepping.of_mem remaining p visited).1⟩

end Approaching

/-- The walk from one point to another that shares no coordinate with it. -/
theorem approaching_start (apartX : p1.x ≠ p2.x) (apartY : p1.y ≠ p2.y)
    (source : 0 ≤ p1.x ∧ p1.x ≤ 2 ^ 30 ∧ 0 ≤ p1.y ∧ p1.y ≤ 2 ^ 30)
    (target : 0 ≤ p2.x ∧ p2.x ≤ 2 ^ 30 ∧ 0 ≤ p2.y ∧ p2.y ≤ 2 ^ 30) :
    Approaching (lineSteps p1 p2) p2 p1 (lineErr (lineSteps p1 p2)) (lineSteps p1 p2).dx
      (lineSteps p1 p2).dy := by
  have closeX : |p2.x - p1.x| ≤ 2 ^ 30 := abs_le.mpr (by omega)
  have closeY : |p2.y - p1.y| ≤ 2 ^ 30 := abs_le.mpr (by omega)
  obtain ⟨-, -, walking, columns, rows, small, -, -⟩ := stepping_start apartX apartY
    ⟨by omega, by omega⟩ ⟨by omega, by omega⟩ closeX closeY
  exact ⟨walking, columns, rows, small, source, target⟩

/-! ## Lines that stay inside -/

/-- A clipped line without a pixel on a far edge: a column is empty or left of the right edge, a
row is above the lower edge, and any other line touches neither with its ends. -/
structure ClippedLineInside (clip : NxgiRect) (p1 p2 : NxgiPoint) : Prop where
  column : p1.x = p2.x → p1.y = p2.y ∨ p1.x < clip.x2
  row : p1.x ≠ p2.x → p1.y < clip.y2 ∧ p2.y < clip.y2
  sloped : p1.x ≠ p2.x → p1.y ≠ p2.y → p1.x < clip.x2 ∧ p2.x < clip.x2

theorem linePixel_inside (valid : t.Valid) (clipOf : ClipOf t clip) (onClip : OnClip clip p)
    (beforeX : p.x < clip.x2) (beforeY : p.y < clip.y2) : InsideClip t clip (linePixel gc t p) := by
  refine ⟨onClip.left, beforeX, onClip.top, beforeY, ?_⟩
  have inWidth := clipOf.right
  have inHeight := clipOf.bottom
  obtain ⟨x, y, rfl, column, row⟩ := onClip.natural valid clipOf
  simp only at beforeX beforeY
  simp only [linePixel]
  rw [column, row, valid.pixelPtr_inside (by omega) (by omega)]
  push_cast
  rfl

section

variable (gc) (valid : t.Valid) (clipOf : ClipOf t clip) (first : OnClip clip p1)
  (last : OnClip clip p2)

include valid clipOf first last

/-- A clipped column stays inside unless it lies on the right edge. -/
theorem clippedColumn_inside_iff (sameX : p1.x = p2.x) :
    (∀ w ∈ intrnlDrawVline gc t (asU32 p1.x) (asU32 p1.y) (asU32 p2.y), InsideClip t clip w) ↔
      p1.y = p2.y ∨ p1.x < clip.x2 := by
  obtain ⟨x, y1, rfl, column, row1⟩ := first.natural valid clipOf
  obtain ⟨x', y2, rfl, _, row2⟩ := last.natural valid clipOf
  have same : x = x' := Int.ofNat_inj.mp sameX
  subst same
  rw [column, row1, row2, vline_inside_iff gc valid clipOf first last]
  exact or_congr_left Int.ofNat_inj.symm

/-- A clipped row stays inside unless it lies on the lower edge. -/
theorem clippedRow_inside_iff (sameY : p1.y = p2.y) :
    (∀ w ∈ intrnlDrawHline gc t (asU32 p1.x) (asU32 p1.y) (asU32 p2.x), InsideClip t clip w) ↔
      p1.x = p2.x ∨ p1.y < clip.y2 := by
  obtain ⟨x1, y, rfl, column1, row⟩ := first.natural valid clipOf
  obtain ⟨x2, y', rfl, column2, _⟩ := last.natural valid clipOf
  have same : y = y' := Int.ofNat_inj.mp sameY
  subst same
  rw [column1, column2, row, hline_inside_iff gc valid clipOf first last]
  exact or_congr_left Int.ofNat_inj.symm

/-- A clipped line between points that share no coordinate is drawn to its end, and it stays
inside exactly when its ends do. -/
theorem clippedSlope_inside_iff (apartX : p1.x ≠ p2.x) (apartY : p1.y ≠ p2.y) :
    ∃ pixels, lineLoop gc t p2 (lineSteps p1 p2)
        ((max (lineSteps p1 p2).dx (lineSteps p1 p2).dy).toNat + 1) p1
        (lineErr (lineSteps p1 p2)) = some pixels ∧
      ((∀ w ∈ pixels, InsideClip t clip w) ↔
        (p1.y < clip.y2 ∧ p2.y < clip.y2) ∧ p1.x < clip.x2 ∧ p2.x < clip.x2) := by
  have ⟨left1, right1, top1, bottom1⟩ := first
  have ⟨left2, right2, top2, bottom2⟩ := last
  have ⟨atLeft, _, width, atTop, _, height⟩ := clipOf
  have wide := valid.width_lt
  have high := valid.height_le
  have approaching := approaching_start apartX apartY (by omega) (by omega)
  obtain ⟨pixels, drawn, start, ending, between⟩ :=
    approaching.draws gc t approaching.stepping.left_start
  refine ⟨pixels, drawn, ?_⟩
  constructor
  · intro inside
    have pixel1 := inside _ start
    have pixel2 := inside _ ending
    exact ⟨⟨pixel1.bottom, pixel2.bottom⟩, pixel1.right, pixel2.right⟩
  · intro ends w member
    obtain ⟨⟨bottom1, bottom2⟩, right1, right2⟩ := ends
    obtain ⟨p, rfl, left, right, top, bottom⟩ := between w member
    exact linePixel_inside valid clipOf ⟨by omega, by omega, by omega, by omega⟩ (by omega)
      (by omega)

/-- A clipped line is drawn, and it stays inside exactly when it keeps off the far edges. -/
theorem drawClippedLine_inside_iff :
    ∃ pixels, drawClippedLine gc t p1 p2 = .ok pixels ∧
      ((∀ w ∈ pixels, InsideClip t clip w) ↔ ClippedLineInside clip p1 p2) := by
  rw [drawClippedLine]
  by_cases sameX : p1.x = p2.x
  · refine ⟨_, if_pos sameX, (clippedColumn_inside_iff gc valid clipOf first last sameX).trans ?_⟩
    constructor
    · intro keeps
      exact ⟨fun _ => keeps, fun apart => absurd sameX apart, fun apart => absurd sameX apart⟩
    · intro keeps
      exact keeps.column sameX
  · rw [if_neg sameX]
    by_cases sameY : p1.y = p2.y
    · refine ⟨_, if_pos sameY, (clippedRow_inside_iff gc valid clipOf first last sameY).trans ?_⟩
      constructor
      · intro keeps
        have row := keeps.resolve_left sameX
        exact ⟨fun same => absurd same sameX, fun _ => ⟨row, sameY ▸ row⟩,
          fun _ apart => absurd sameY apart⟩
      · intro keeps
        exact .inr (keeps.row sameX).1
    · obtain ⟨pixels, drawn, inside⟩ :=
        clippedSlope_inside_iff gc valid clipOf first last sameX sameY
      refine ⟨pixels, by simp only [if_neg sameY, drawn], inside.trans ?_⟩
      constructor
      · intro ends
        exact ⟨fun same => absurd same sameX, fun _ => ends.1, fun _ _ => ends.2⟩
      · intro keeps
        exact ⟨keeps.row sameX, keeps.sloped sameX sameY⟩

end

end Antonix
