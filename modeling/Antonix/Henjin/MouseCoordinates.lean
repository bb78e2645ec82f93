import Antonix.Henjin.MouseRouting
import Antonix.Nxgi.Painting

/-! # Coordinates on the surface of a child (`henjin_desktop.c`)

The desktop copies the surface of a child to the corner of its client rectangle.  A
mouse message that it forwards has coordinates relative to the position instead, and
the two differ by the offset of the decoration. -/

namespace Antonix.Henjin

open LittleEndian

variable {controls : HjControls} {children : List HjControlMeta} {msg sent : HjMessage}
  {child : HjControlMeta} {k first : Nat}

/-! ## What the desktop paints -/

/-- The copy in `desktop_blit_subcontrol`. -/
def desktopBlitSurface (gc : NxgiGraphicsContext) (memory : ByteMem) (clientrect : NxgiRect)
    (surface : NxgiBitmap) (size : NxgiSize) : HResult × List PixelWrite :=
  graphicsBitblt gc memory clientrect.p1 surface ⟨0, 0, size.width, size.height⟩

/-- Where a screen point is on a surface at the corner of the client rectangle. -/
def surfacePoint (clientrect : NxgiRect) (p : NxgiPoint) : NxgiPoint :=
  ⟨p.x - clientrect.x1, p.y - clientrect.y1⟩

/-- The copy paints a pixel of the surface at each point of the screen that the surface covers. -/
theorem desktopBlitSurface_shows {gc : NxgiGraphicsContext} {t surface : NxgiBitmap}
    {clientrect : NxgiRect} {size : NxgiSize} {p : NxgiPoint} (valid : t.Valid)
    (target : gc.target = some t) (clipOf : ClipOf t gc.clipRect) (origin : gc.offset = ⟨0, 0⟩)
    (surfaceValid : surface.Valid) (apart : t.Apart surface)
    (rectOf : RectOf surface ⟨0, 0, size.width, size.height⟩)
    (sumsX : BlitSums clientrect.x1 size.width 0) (sumsY : BlitSums clientrect.y1 size.height 0)
    (visible : p ∈ gc.clipRect.pixels)
    (columns : clientrect.x1 ≤ p.x ∧ p.x < clientrect.x1 + size.width)
    (rows : clientrect.y1 ≤ p.y ∧ p.y < clientrect.y1 + size.height) (memory : ByteMem) :
    t.pixelAt (writePixels memory (desktopBlitSurface gc memory clientrect surface size).2) p =
      surface.pixelAt memory (surfacePoint clientrect p) := by
  have sums1 : BlitSums clientrect.p1.x (size.width - 0) gc.offset.x := by
    simpa [origin, NxgiRect.p1] using sumsX
  have sums2 : BlitSums clientrect.p1.y (size.height - 0) gc.offset.y := by
    simpa [origin, NxgiRect.p1] using sumsY
  have paints := (graphicsBitblt_paints valid target clipOf surfaceValid apart rectOf sums1 sums2
    memory).1
  have covered : p ∈ (blitRect clientrect.p1 ⟨0, 0, size.width, size.height⟩ gc.offset).pixels := by
    simp only [origin, blitRect, NxgiRect.moved, NxgiRect.p1, NxgiRect.mem_pixels]
    omega
  have source : blitSource clientrect.p1 ⟨0, 0, size.width, size.height⟩ gc.offset p =
      surfacePoint clientrect p := by
    simp [blitSource, surfacePoint, origin, NxgiRect.p1]
  rw [desktopBlitSurface, paints.painted p ⟨covered, visible⟩, source]

/-! ## What the desktop forwards -/

/-- What is sent is the message with coordinates relative to the child's position. -/
theorem mem_sent (forwarded : (k, sent) ∈ (dispatchMouseMessage first controls children msg).sent) :
    ∃ child, children[k]? = some child ∧
      sent = msg.withMouse ⟨msg.mouse.x - child.pos.x, msg.mouse.y - child.pos.y⟩ := by
  simp only [dispatchMouseMessage] at forwarded
  generalize recipientLoop controls children msg.mouse children.length first (0, false) = result
    at forwarded
  obtain ⟨hr, k', dispatched⟩ := result
  split at forwarded
  · cases forwarded
  · split at forwarded
    · split at forwarded
      · cases forwarded
      · next child at_k =>
        obtain ⟨rfl, rfl⟩ := Prod.mk.inj (List.mem_singleton.mp forwarded)
        refine ⟨child, ?_, rfl⟩
        rw [hjGetChildAt] at at_k
        split at at_k
        · cases at_k
        · next found => exact found.trans (congrArg some (Except.ok.inj at_k))
    · cases forwarded

/-- A coordinate in a message, and on a surface at `near`, relative to the position `pos`. -/
theorem coordinate_eq_iff {point pos offset : Int} (point_range : 0 ≤ point ∧ point < 2 ^ 16)
    (placed : -2 ^ 31 ≤ pos ∧ pos < 2 ^ 31) (small : 0 ≤ offset ∧ offset < 2 ^ 16)
    (inside : i32 (pos + offset) ≤ point) :
    (asU32 (point - pos) : Int) % 2 ^ 16 = point - i32 (pos + offset) ↔
      offset = 0 ∧ point - pos < 2 ^ 16 := by
  simp only [asU32, i32, Int.bmod_def] at inside ⊢
  omega

/-- A forwarded message has the coordinates of its point on the child's surface exactly when the
decoration does not move the surface, and the coordinates fit in the message. -/
theorem desktopDispatchMouseMessages_surface_iff (found : children[k]? = some child)
    (decorated : child.decor.Proper) (placed : child.pos.Fits)
    (forwarded : (k, sent) ∈ (desktopDispatchMouseMessages controls children msg).sent)
    (inside : nxgigPointInRect msg.mouse (hjGetChildClientrect controls children k) = true) :
    sent.mouse = surfacePoint (hjGetChildClientrect controls children k) msg.mouse ↔
      child.decor.offset = ⟨0, 0⟩ ∧
        msg.mouse.x - child.pos.x < 2 ^ 16 ∧ msg.mouse.y - child.pos.y < 2 ^ 16 := by
  obtain ⟨child', found', rfl⟩ := mem_sent forwarded
  obtain rfl : child = child' := Option.some.inj (found.symm.trans found')
  have ⟨rangeX, rangeY⟩ := msg.mouse_range
  have at_k : hjGetChildAt children k = .ok child := by rw [hjGetChildAt, found]
  rw [nxgigPointInRect_iff] at inside
  simp only [hjGetChildClientrect, at_k, nxgigPointAdd] at inside ⊢
  obtain ⟨⟨left, -⟩, top, -⟩ := inside
  have offset_range : (0 ≤ child.decor.offset.x ∧ child.decor.offset.x < 2 ^ 16) ∧
      0 ≤ child.decor.offset.y ∧ child.decor.offset.y < 2 ^ 16 := by
    cases decorated with
    | inl plain => simp [plain.2]
    | inr framed => simp [framed.2]
  simp only [HjMessage.mouse_withMouse, surfacePoint, NxgiPoint.ext_iff]
  rw [coordinate_eq_iff rangeX placed.x offset_range.1 left,
    coordinate_eq_iff rangeY placed.y offset_range.2 top]
  exact and_and_and_comm

/-- Two windows, the second one with a border and a title. -/
def framedWindow : List HjControlMeta := (hjControlSetChildDecoration twoButtons 1 .normal).2

/-- A window without decoration at `(10, 5)`. -/
theorem desktopDispatchMouseMessages_surface_plain :
    ∃ sent, (1, sent) ∈ (desktopDispatchMouseMessages someButtons twoButtons
        (hjMouseMessage hjMessageMouseDown ⟨12, 7⟩ 0)).sent ∧
      sent.mouse = surfacePoint (hjGetChildClientrect someButtons twoButtons 1)
        (hjMouseMessage hjMessageMouseDown ⟨12, 7⟩ 0).mouse := by
  have placed : (⟨10, 5⟩ : NxgiPoint).Fits := ⟨by decide, by decide⟩
  have found : twoButtons[1]? = some ⟨⟨10, 5⟩, ⟨⟨0, 0⟩, .none, 0⟩, 0x2000⟩ := rfl
  have forwarded : (1, (hjMouseMessage hjMessageMouseDown ⟨12, 7⟩ 0).withMouse ⟨2, 2⟩) ∈
      (desktopDispatchMouseMessages someButtons twoButtons
        (hjMouseMessage hjMessageMouseDown ⟨12, 7⟩ 0)).sent :=
    List.mem_singleton.mpr rfl
  exact ⟨_, forwarded, (desktopDispatchMouseMessages_surface_iff found (.inl ⟨rfl, rfl⟩) placed
    forwarded (by decide)).mpr ⟨rfl, by decide, by decide⟩⟩

/-- Below the title of a window at `(10, 5)`: the point `(15, 40)` is the pixel `(3, 7)` of the
surface, and the message says `(5, 35)`. -/
theorem desktopDispatchMouseMessages_misses_surface :
    ∃ sent, (1, sent) ∈ (desktopDispatchMouseMessages someButtons framedWindow
        (hjMouseMessage hjMessageMouseDown ⟨15, 40⟩ 0)).sent ∧
      nxgigPointInRect (hjMouseMessage hjMessageMouseDown ⟨15, 40⟩ 0).mouse
        (hjGetChildClientrect someButtons framedWindow 1) = true ∧
      sent.mouse ≠ surfacePoint (hjGetChildClientrect someButtons framedWindow 1)
        (hjMouseMessage hjMessageMouseDown ⟨15, 40⟩ 0).mouse :=
  ⟨_, List.mem_singleton.mpr rfl, by decide, by decide⟩

end Antonix.Henjin
