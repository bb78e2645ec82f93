import Antonix.Lib.ByteMem
import Antonix.Nxgi.Geometry
import Antonix.Nxgi.SysFont

/-! # Drawing on a bitmap (`nxgi_graphics.c`)

A drawing method returns the pixels that it writes, in order.  A pixel is written
through a pointer that the method computes in 32 bits; beside the pointer stand the
coordinates of the pixel that it is meant to be. -/

namespace Antonix

/-- `NXGI_FORMAT` -/
inductive NxgiFormat where
  | bgra32
  | rgba32
  deriving DecidableEq, Repr

/-- `NXGI_COLOR` -/
structure NxgiColor where
  b : BitVec 8
  g : BitVec 8
  r : BitVec 8
  a : BitVec 8
  deriving DecidableEq, Repr

/-- `NXGI_BITMAP` -/
structure NxgiBitmap where
  width : Nat
  stride : Nat
  height : Nat
  bitsPerPixel : Nat
  format : NxgiFormat
  pBits : Nat
  deriving DecidableEq, Repr

/-- `NXGI_SIZE` -/
structure NxgiSize where
  width : Int
  height : Int
  deriving DecidableEq, Repr

/-- `NXGI_FONT` -/
structure NxgiFont where
  size : Nat
  color : NxgiColor
  deriving DecidableEq, Repr

/-- `NXGI_GRAPHICS_CONTEXT` -/
structure NxgiGraphicsContext where
  target : Option NxgiBitmap
  font : NxgiFont
  offset : NxgiPoint
  color : NxgiColor
  clipRect : NxgiRect
  deriving DecidableEq, Repr

/-- A pixel that is written: its coordinates, the pointer and the color. -/
structure PixelWrite where
  x : Int
  y : Int
  pixel : Nat
  color : NxgiColor
  deriving DecidableEq, Repr

abbrev sysFontWidth : Nat := 8
abbrev sysFontHeight : Nat := 8

/-- `graphics_set_clip_rect`, with `t` the target. -/
def graphicsSetClipRect (gc : NxgiGraphicsContext) (t : NxgiBitmap) (r : NxgiRect) :
    NxgiGraphicsContext :=
  let sanitize (x size : Int) : Int :=
    let x := if x < 0 then 0 else x
    if x > size then size else x
  { gc with clipRect := {
      x1 := sanitize r.x1 (i32 t.width)
      y1 := sanitize r.y1 (i32 t.height)
      x2 := sanitize r.x2 (i32 t.width)
      y2 := sanitize r.y2 (i32 t.height) } }

/-! ## Pixels -/

/-- The pointer to the pixel in column `x` and row `y`. -/
def pixelPtr (t : NxgiBitmap) (x y : Nat) : Nat :=
  u32 (t.pBits + u32 (y * t.stride) + u32 (x * t.bitsPerPixel) / 8)

/-- A loop that writes `n` pixels, moves by `dx` and `dy` and adds `step` to the pointer. -/
def pixelRun (color : NxgiColor) (dx dy : Int) (step : Nat) : Nat → Int → Int → Nat → List PixelWrite
  | 0, _, _, _ => []
  | n + 1, x, y, pixel =>
    ⟨x, y, u32 pixel, color⟩ :: pixelRun color dx dy step n (x + dx) (y + dy) (pixel + step)

/-- `intrnl_draw_hline_bgra32` -/
def intrnlDrawHline (gc : NxgiGraphicsContext) (t : NxgiBitmap) (x1 y x2 : Nat) :
    List PixelWrite :=
  let (x1, x2) := if x1 > x2 then (x2, x1) else (x1, x2)
  let width := sub32 x2 x1
  pixelRun gc.color 1 0 4 width x1 y (pixelPtr t x1 y)

/-- `intrnl_draw_vline_bgra32` -/
def intrnlDrawVline (gc : NxgiGraphicsContext) (t : NxgiBitmap) (x y1 y2 : Nat) :
    List PixelWrite :=
  let (y1, y2) := if y1 > y2 then (y2, y1) else (y1, y2)
  let height := sub32 y2 y1
  pixelRun gc.color 0 1 t.stride height x y1 (pixelPtr t x y1)

/-- `intrnl_apply_offset` -/
def intrnlApplyOffset (gc : NxgiGraphicsContext) (p : NxgiPoint) : NxgiPoint :=
  ⟨i32 (p.x + gc.offset.x), i32 (p.y + gc.offset.y)⟩

/-- `intrnl_transform_point` -/
def intrnlTransformPoint (gc : NxgiGraphicsContext) (p : NxgiPoint) : NxgiPoint :=
  let x := i32 (p.x + gc.offset.x)
  let y := i32 (p.y + gc.offset.y)
  { x := if x > gc.clipRect.x2 then gc.clipRect.x2
      else if x < gc.clipRect.x1 then gc.clipRect.x1 else x
    y := if y > gc.clipRect.y2 then gc.clipRect.y2
      else if y < gc.clipRect.y1 then gc.clipRect.y1 else y }

/-! ## Lines -/

/-- The constants of the loop that draws a line that is not axis-aligned. -/
structure LineSteps where
  dx : Int
  sx : Int
  dy : Int
  sy : Int

/-- `dx`, `sx`, `dy` and `sy` -/
def lineSteps (p1 p2 : NxgiPoint) : LineSteps where
  dx := (i32 (p2.x - p1.x)).natAbs
  sx := if p1.x < p2.x then 1 else -1
  dy := (i32 (p2.y - p1.y)).natAbs
  sy := if p1.y < p2.y then 1 else -1

/-- `err` at the start of the loop.  The quotient is truncated. -/
def lineErr (steps : LineSteps) : Int :=
  (if steps.dx > steps.dy then steps.dx else i32 (-steps.dy)).tdiv 2

/-- The pixel of a line at `p`. -/
def linePixel (gc : NxgiGraphicsContext) (t : NxgiBitmap) (p : NxgiPoint) : PixelWrite :=
  ⟨p.x, p.y, pixelPtr t (asU32 p.x) (asU32 p.y), gc.color⟩

/-- The loop of `graphics_draw_line_bgra32`.  It draws at `p1` and steps until it is at `p2`;
`none` stands for a loop that has not ended after the turns it was given. -/
def lineLoop (gc : NxgiGraphicsContext) (t : NxgiBitmap) (p2 : NxgiPoint) (steps : LineSteps) :
    Nat → NxgiPoint → Int → Option (List PixelWrite)
  | 0, _, _ => none
  | turns + 1, p1, err =>
    if p1.x = p2.x ∧ p1.y = p2.y then some [linePixel gc t p1]
    else
      let e2 := err
      let (err, x) := if e2 > -steps.dx then (i32 (err - steps.dy), i32 (p1.x + steps.sx))
        else (err, p1.x)
      let (err, y) := if e2 < steps.dy then (i32 (err + steps.dx), i32 (p1.y + steps.sy))
        else (err, p1.y)
      (lineLoop gc t p2 steps turns ⟨x, y⟩ err).map (linePixel gc t p1 :: ·)

/-- The part of `graphics_draw_line_bgra32` after the points are clipped. -/
def drawClippedLine (gc : NxgiGraphicsContext) (t : NxgiBitmap) (p1 p2 : NxgiPoint) :
    Except Halt (List PixelWrite) :=
  if p1.x = p2.x then .ok (intrnlDrawVline gc t (asU32 p1.x) (asU32 p1.y) (asU32 p2.y))
  else if p1.y = p2.y then .ok (intrnlDrawHline gc t (asU32 p1.x) (asU32 p1.y) (asU32 p2.x))
  else
    let steps := lineSteps p1 p2
    match lineLoop gc t p2 steps ((max steps.dx steps.dy).toNat + 1) p1 (lineErr steps) with
    | none => .error .stuck
    | some pixels => .ok pixels

/-- The test of `graphics_draw_line_bgra32` that the line meets the clipping rectangle. -/
def lineMeetsClip (gc : NxgiGraphicsContext) (p1 p2 : NxgiPoint) : Bool :=
  nxgigLineRectIntersect p1 p2
    (nxgigRectOffset gc.clipRect ⟨i32 (-gc.offset.x), i32 (-gc.offset.y)⟩)

/-- `graphics_draw_line_bgra32` -/
def graphicsDrawLine (gc : NxgiGraphicsContext) (x1 y1 x2 y2 : Nat) :
    Except Halt (HResult × List PixelWrite) :=
  match gc.target with
  | none => .ok (.eInvalidState, [])
  | some t =>
    let p1 : NxgiPoint := ⟨i32 x1, i32 y1⟩
    let p2 : NxgiPoint := ⟨i32 x2, i32 y2⟩
    if lineMeetsClip gc p1 p2 then do
      let pixels ← drawClippedLine gc t (intrnlTransformPoint gc p1) (intrnlTransformPoint gc p2)
      .ok (.sOk, pixels)
    else .ok (.sOk, [])

/-- `graphics_draw_rect_bgra32` -/
def graphicsDrawRect (gc : NxgiGraphicsContext) (rect : NxgiRect) :
    Except Halt (HResult × List PixelWrite) :=
  if gc.target = none then .ok (.eInvalidState, [])
  else if rect.x1 = rect.x2 ∨ rect.y1 = rect.y2 then .ok (.sFalse, [])
  else
    let x2 := i32 (rect.x2 - 1)
    let y2 := i32 (rect.y2 - 1)
    if rect.x1 = x2 ∨ rect.y1 = y2 then .ok (.sFalse, [])
    else do
      let (_, top) ← graphicsDrawLine gc (asU32 rect.x1) (asU32 rect.y1) (asU32 x2) (asU32 rect.y1)
      let (_, right) ← graphicsDrawLine gc (asU32 x2) (asU32 rect.y1) (asU32 x2) (asU32 y2)
      let (_, bottom) ← graphicsDrawLine gc (asU32 x2) (asU32 y2) (asU32 rect.x1) (asU32 y2)
      let (_, left) ← graphicsDrawLine gc (asU32 rect.x1) (asU32 y2) (asU32 rect.x1) (asU32 rect.y1)
      .ok (.sOk, top ++ right ++ bottom ++ left)

/-! ## Filled rectangles and copies -/

/-- The loop of `graphics_fill_rect_bgra32` over the rows from `y` on. -/
def fillRows (gc : NxgiGraphicsContext) (t : NxgiBitmap) (x1 x2 : Int) : Nat → Int → List PixelWrite
  | 0, _ => []
  | rows + 1, y =>
    intrnlDrawHline gc t (asU32 x1) (asU32 y) (asU32 x2) ++ fillRows gc t x1 x2 rows (y + 1)

/-- `graphics_fill_rect_bgra32` -/
def graphicsFillRect (gc : NxgiGraphicsContext) (rect : NxgiRect) : HResult × List PixelWrite :=
  match gc.target with
  | none => (.eInvalidState, [])
  | some t =>
    let p1 := intrnlTransformPoint gc rect.p1
    let p2 := intrnlTransformPoint gc rect.p2
    if p1.x = p2.x ∨ p1.y = p2.y then (.sFalse, [])
    else
      let (y1, y2) := if p1.y > p2.y then (p2.y, p1.y) else (p1.y, p2.y)
      (.sOk, fillRows gc t p1.x p2.x (y2 - y1).toNat y1)

/-- The color in memory at `a`. -/
def colorAt (memory : ByteMem) (a : Nat) : NxgiColor :=
  ⟨memory (u32 a), memory (u32 (a + 1)), memory (u32 (a + 2)), memory (u32 (a + 3))⟩

/-- The color is stored through the pointer. -/
def storeColor (memory : ByteMem) (a : Nat) (color : NxgiColor) : ByteMem :=
  Function.update (Function.update (Function.update (Function.update memory
    (u32 a) color.b) (u32 (a + 1)) color.g) (u32 (a + 2)) color.r) (u32 (a + 3)) color.a

/-- The memory after the pixels are written. -/
def writePixels (memory : ByteMem) (pixels : List PixelWrite) : ByteMem :=
  pixels.foldl (fun memory write => storeColor memory write.pixel write.color) memory

/-- `memcpy` of `n` pixels from `psrc` to `pdst`, which is the pixel in column `x` and row `y`. -/
def copyRow (memory : ByteMem) (x y : Int) (pdst psrc n : Nat) : List PixelWrite :=
  (List.range n).map fun (k : Nat) => ⟨x + k, y, u32 (pdst + 4 * k), colorAt memory (psrc + 4 * k)⟩

/-- The loop of `graphics_bitblt_bgra32`, from row `j` on. -/
def bitbltRows (t src : NxgiBitmap) (dst : NxgiRect) (srcPos : NxgiPoint) :
    Nat → Int → ByteMem → List PixelWrite
  | 0, _, _ => []
  | rows + 1, j, memory =>
    let lineSize := u32 (asU32 (rectWidth dst) * src.bitsPerPixel) / 8
    let srcHorizOffs := u32 (asU32 srcPos.x * t.bitsPerPixel) / 8
    let pdst := pixelPtr t (asU32 dst.x1) (asU32 (i32 (dst.y1 + j)))
    let psrc := src.pBits + u32 (asU32 (i32 (srcPos.y + j)) * src.stride) + srcHorizOffs
    let row := copyRow memory dst.x1 (dst.y1 + j) pdst psrc (lineSize / 4)
    row ++ bitbltRows t src dst srcPos rows (j + 1) (writePixels memory row)

/-- `graphics_bitblt_bgra32` -/
def graphicsBitblt (gc : NxgiGraphicsContext) (memory : ByteMem) (dstPos : NxgiPoint)
    (src : NxgiBitmap) (srcRect : NxgiRect) : HResult × List PixelWrite :=
  match gc.target with
  | none => (.eInvalidState, [])
  | some t =>
    if src.format ≠ t.format then (.eNotImpl, [])
    else if !nxgigRectContainsRect srcRect ⟨0, 0, i32 src.width, i32 src.height⟩ then
      (.eInvalidArg, [])
    else
      let dstP2 : NxgiPoint := ⟨i32 (dstPos.x + rectWidth srcRect), i32 (dstPos.y + rectHeight srcRect)⟩
      let dst := NxgiRect.ofPoints (intrnlApplyOffset gc dstPos) (intrnlApplyOffset gc dstP2)
      let clipped :=
        NxgiRect.ofPoints (intrnlTransformPoint gc dstPos) (intrnlTransformPoint gc dstP2)
      let clipOffset : NxgiPoint := ⟨i32 (clipped.x1 - dst.x1), i32 (clipped.y1 - dst.y1)⟩
      if dst.x1 = dst.x2 ∨ dst.y1 = dst.y2 then (.sFalse, [])
      else
        (.sOk, bitbltRows t src clipped
          ⟨i32 (srcRect.x1 + clipOffset.x), i32 (srcRect.y1 + clipOffset.y)⟩
          (rectHeight clipped).toNat 0 memory)

/-! ## Text -/

/-- The loop over the columns `i` of a row of a glyph.  `shown` is the test of the column. -/
def glyphColumns (color : NxgiColor) (x pixPtr : Nat) (y : Int) (glyph : Int) (shown : Int → Bool) :
    List Nat → List PixelWrite
  | [] => []
  | i :: rest =>
    let lx := i32 ((x : Int) + sysFontWidth - i)
    if !shown lx then glyphColumns color x pixPtr y glyph shown rest
    else
      let glyphOffs := glyph >>> i
      let drawn : List PixelWrite :=
        if glyphOffs % 2 = 1 then [⟨lx, y, u32 (pixPtr + 4 * (sysFontWidth - i)), color⟩] else []
      if glyphOffs ≤ 1 then drawn
      else drawn ++ glyphColumns color x pixPtr y glyph shown rest

/-- A glyph with the tests of its rows and columns. -/
def drawGlyph (t : NxgiBitmap) (font : NxgiFont) (x y : Nat) (shownX shownY : Int → Bool)
    (c : BitVec 8) : List PixelWrite :=
  if c.toInt < 0 then []
  else
    (List.range sysFontHeight).flatMap fun (j : Nat) =>
      let ly := i32 ((y : Int) + j)
      let glyph := sysFontRow c.toNat j
      if !shownY ly then []
      else if glyph = 0 then []
      else
        glyphColumns font.color x (pixelPtr t x (u32 (y + j))) ly glyph shownX
          (List.range sysFontWidth)

/-- `intrnl_draw_char_bgra32` -/
def intrnlDrawChar (t : NxgiBitmap) (x y : Nat) (font : NxgiFont) (c : BitVec 8) :
    List PixelWrite :=
  drawGlyph t font x y (fun _ => true) (fun _ => true) c

/-- `intrnl_draw_char_segment_bgra32` -/
def intrnlDrawCharSegment (t : NxgiBitmap) (x y : Nat) (clipRect : NxgiRect) (font : NxgiFont)
    (c : BitVec 8) : List PixelWrite :=
  drawGlyph t font x y (fun lx => !(lx < clipRect.x1 || lx > clipRect.x2))
    (fun ly => !(ly < clipRect.y1 || ly > clipRect.y2)) c

/-- `intrnl_get_char_size` -/
def intrnlGetCharSize (gc : NxgiGraphicsContext) : NxgiSize :=
  if gc.font.size ≠ 1 then ⟨0, 0⟩ else ⟨sysFontWidth, sysFontHeight⟩

/-- `graphics_text_size` -/
def graphicsTextSize (gc : NxgiGraphicsContext) (text : List (BitVec 8)) : NxgiSize :=
  ⟨i32 (i32 text.length * (intrnlGetCharSize gc).width), (intrnlGetCharSize gc).height⟩

/-- The loop of `graphics_draw_text_bgra32`, from the position `pos` on. -/
def drawTextLoop (gc : NxgiGraphicsContext) (t : NxgiBitmap) :
    List (BitVec 8) → NxgiPoint → Nat → List PixelWrite
  | [], _, _ => []
  | c :: rest, pos, drawCntr =>
    let charSize := intrnlGetCharSize gc
    let charRect := NxgiRect.ofPoints (intrnlTransformPoint gc pos)
      (intrnlTransformPoint gc ⟨i32 (pos.x + charSize.width), i32 (pos.y + charSize.height)⟩)
    let next : NxgiPoint := ⟨i32 (pos.x + charSize.width), pos.y⟩
    if rectWidth charRect ≥ charSize.width ∧ rectHeight charRect ≥ charSize.height then
      intrnlDrawChar t (asU32 charRect.x1) (asU32 charRect.y1) gc.font c ++
        drawTextLoop gc t rest next (drawCntr + 1)
    else if rectWidth charRect > 0 ∧ rectHeight charRect > 0 then
      intrnlDrawCharSegment t (asU32 (i32 (pos.x + gc.offset.x)))
          (asU32 (i32 (pos.y + gc.offset.y))) charRect gc.font c ++
        drawTextLoop gc t rest next (drawCntr + 1)
    else if 0 < drawCntr then []
    else drawTextLoop gc t rest next drawCntr

/-- `graphics_draw_text_bgra32`.  `text` is the string without its NUL. -/
def graphicsDrawText (gc : NxgiGraphicsContext) (pos : NxgiPoint) (text : List (BitVec 8)) :
    HResult × List PixelWrite :=
  match gc.target with
  | none => (.eInvalidState, [])
  | some t =>
    let textSize := graphicsTextSize gc text
    let p1 := intrnlTransformPoint gc pos
    let p2 := intrnlTransformPoint gc ⟨i32 (pos.x + textSize.width), i32 (pos.y + textSize.height)⟩
    if i32 (p2.x - p1.x) = 0 ∨ i32 (p2.y - p1.y) = 0 then (.sOk, [])
    else (.sOk, drawTextLoop gc t text pos 0)

/-! ## Calls -/

/-- The calls of the drawing methods of a context. -/
inductive GraphicsCall where
  | drawLine (x1 y1 x2 y2 : Nat)
  | drawRect (rect : NxgiRect)
  | fillRect (rect : NxgiRect)
  | bitblt (dstPos : NxgiPoint) (src : NxgiBitmap) (srcRect : NxgiRect)
  | drawText (pos : NxgiPoint) (text : List (BitVec 8))

/-- What a call returns and the pixels that it writes. -/
def graphicsCall (gc : NxgiGraphicsContext) (memory : ByteMem) :
    GraphicsCall → Except Halt (HResult × List PixelWrite)
  | .drawLine x1 y1 x2 y2 => graphicsDrawLine gc x1 y1 x2 y2
  | .drawRect rect => graphicsDrawRect gc rect
  | .fillRect rect => .ok (graphicsFillRect gc rect)
  | .bitblt dstPos src srcRect => .ok (graphicsBitblt gc memory dstPos src srcRect)
  | .drawText pos text => .ok (graphicsDrawText gc pos text)

/-- The pixels that a sequence of calls writes, and the memory after it. -/
def graphicsCalls (gc : NxgiGraphicsContext) :
    List GraphicsCall → ByteMem → Except Halt (List PixelWrite × ByteMem)
  | [], memory => .ok ([], memory)
  | call :: rest, memory => do
    let (_, pixels) ← graphicsCall gc memory call
    let (later, memory) ← graphicsCalls gc rest (writePixels memory pixels)
    .ok (pixels ++ later, memory)

end Antonix
