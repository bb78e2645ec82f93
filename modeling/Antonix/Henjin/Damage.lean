import Antonix.Henjin.ChildControls
import Antonix.Henjin.MouseMessages
import Antonix.Henjin.MouseRouting
import Antonix.Lib.Layers
import Antonix.Lib.Transition
import Antonix.Nxgi.Canvas

/-! # Windows that are dragged, and repainting (`henjin_desktop.c`)

The desktop moves its pointer and its windows when messages about the mouse come in, and
does not paint then: it queues requests to repaint what has changed, for itself.  Windows
that draw on their surfaces have it queue such requests too.

The screen is a picture of layers here: the background, the children in the order of the
list, the pointer.  It is fresh but for the requests that are not yet handled. -/

namespace Antonix.Henjin.Damage

open Function Layers LittleEndian Transition

/-! ## The desktop -/

/-- `HJ_CONTROL_META`, with what a window needs while it is dragged. -/
structure HjDragMeta extends HjControlMeta where
  dragMode : Bool
  dragSource : NxgiPoint
  dragWndPos : NxgiPoint

/-- The children without that. -/
abbrev metas (children : List HjDragMeta) : List HjControlMeta :=
  children.map (·.toHjControlMeta)

/-- The server with the queue of the desktop; the desktop's pointer and children; the controls and
what there is on their surfaces; the message that the thread of the desktop is at; and the picture
on the screen. -/
structure System (Ink : Type) where
  hj : HjServerContext
  mousePos : NxgiPoint
  children : List HjDragMeta
  controls : HjControls
  surface : Nat → NxgiPoint → Option Ink
  handling : Option HjMessage
  shown : NxgiPoint → Ink

/-- The screen, and what the desktop paints with.  `frame` is the decoration of a control of a size,
where it has ink, from the corner of the decorated control. -/
structure Look (Ink : Type) where
  gc : NxgiGraphicsContext
  screen : NxgiBitmap
  background : NxgiPoint → Ink
  pointer : Ink
  frame : NxgiSize → HjDecor → NxgiPoint → Option Ink

variable {Ink : Type}

/-- `hj_control_invalidate_rect` of the desktop -/
def hjControlInvalidateRect (s : System Ink) (rect : NxgiRect) : HResult × System Ink :=
  let (hr, desktop) := hjQueueMessage s.hj.desktop (hjRepaintMessage rect 0)
  (hr, { s with hj := { s.hj with desktop := desktop } })

/-! ### The mouse -/

/-- `abs` -/
def cAbs (n : Int) : Int := if n > 0 then n else i32 (-n)

/-- What `desktop_mouse_down` tests of a child: the point is on its title. -/
def onTitle (s : System Ink) (pos : NxgiPoint) (i : Nat) : Bool :=
  let br := hjGetChildBoundsrect s.controls (metas s.children) i
  let cr := hjGetChildClientrect s.controls (metas s.children) i
  if !nxgigPointInRect pos br || nxgigPointInRect pos cr then false
  else nxgigPointInRect pos ⟨br.x1, br.y1, br.x2, i32 (br.y1 + guiTitleboxHeight)⟩

/-- `desktop_mouse_down` -/
def desktopMouseDown (s : System Ink) (pos : NxgiPoint) (button : Nat) : HResult × System Ink :=
  if button ≠ buttonValue .left then (.sOk, s)
  else
    let found := (List.range s.children.length).foldl
      (fun found i => if onTitle s pos i then some i else found) none
    match found with
    | none => (.sOk, s)
    | some k =>
      match s.children[k]? with
      | none => (.sOk, s)
      | some m =>
        let m := { m with dragSource := pos, dragWndPos := m.pos, dragMode := true }
        (.sOk, { s with children := s.children.set k m })

/-- `desktop_mouse_up` -/
def desktopMouseUp (s : System Ink) : HResult × System Ink :=
  let children := s.children.map fun m => if m.dragMode then { m with dragMode := false } else m
  (.sOk, { s with children := children })

/-- `desktop_mouse_move_handle_dragging` -/
def desktopMouseMoveHandleDragging (s : System Ink) (pos : NxgiPoint) : HResult × System Ink :=
  let k := s.children.findIdx (·.dragMode)
  match s.children[k]? with
  | none => (.sOk, s)
  | some m =>
    let br := hjGetChildBoundsrect s.controls (metas s.children) k
    let deltaX := i32 (pos.x - m.dragSource.x)
    let deltaY := i32 (pos.y - m.dragSource.y)
    let newPos : NxgiPoint := ⟨i32 (m.dragWndPos.x + deltaX), i32 (m.dragWndPos.y + deltaY)⟩
    if cAbs (i32 (newPos.x - br.x1)) < 2 ∧ cAbs (i32 (newPos.y - br.y1)) < 2 then (.sOk, s)
    else
      -- `hj_control_set_child_position`
      let s := { s with children := s.children.set k { m with pos := newPos } }
      let newBr := hjGetChildBoundsrect s.controls (metas s.children) k
      (.sOk, (hjControlInvalidateRect s (nxgigRectsUnion br newBr)).2)

/-- `desktop_mouse_move` -/
def desktopMouseMove (s : System Ink) (pos : NxgiPoint) : HResult × System Ink :=
  let oldArea : NxgiRect :=
    ⟨s.mousePos.x, s.mousePos.y, i32 (s.mousePos.x + 16), i32 (s.mousePos.y + 16)⟩
  let newArea : NxgiRect := ⟨pos.x, pos.y, i32 (pos.x + 16), i32 (pos.y + 16)⟩
  let s := { s with mousePos := pos }
  let unifiedDirtyRect := nxgigRectsUnion oldArea newArea
  let s :=
    if nxgigRectArea unifiedDirtyRect < u32 (nxgigRectArea oldArea + nxgigRectArea newArea) then
      (hjControlInvalidateRect s unifiedDirtyRect).2
    else (hjControlInvalidateRect (hjControlInvalidateRect s oldArea).2 newArea).2
  (.sOk, (desktopMouseMoveHandleDragging s pos).2)

/-! ### Painting -/

instance (r : NxgiRect) : DecidablePred (· ∈ r.pixels) := fun p =>
  inferInstanceAs (Decidable ((r.x1 ≤ p.x ∧ p.x < r.x2) ∧ r.y1 ≤ p.y ∧ p.y < r.y2))

/-- The bounds rectangle of a child. -/
def childBounds (controls : HjControls) (child : HjControlMeta) : NxgiRect :=
  hjGetChildBoundsrect controls [child] 0

/-- The client rectangle of a child. -/
def childClient (controls : HjControls) (child : HjControlMeta) : NxgiRect :=
  hjGetChildClientrect controls [child] 0

/-- The surface of a child, at its client rectangle. -/
def surfaceLayer (s : System Ink) (child : HjControlMeta) : Layer NxgiPoint Ink :=
  let cr := childClient s.controls child
  within cr.pixels fun p => s.surface child.control ⟨p.x - cr.x1, p.y - cr.y1⟩

/-- The decoration of a child. -/
def frameLayer (look : Look Ink) (s : System Ink) (child : HjControlMeta) : Layer NxgiPoint Ink :=
  within (childBounds s.controls child).pixels fun p =>
    if child.decor.type = .normal then
      look.frame (hjControlGetSize (s.controls child.control)) child.decor
        ⟨p.x - child.pos.x, p.y - child.pos.y⟩
    else none

/-- The background, which leaves the strip of the task panel. -/
def backgroundLayer (look : Look Ink) : Layer NxgiPoint Ink :=
  within (NxgiRect.mk 0 0 (i32 look.screen.width) (i32 (look.screen.height - 30))).pixels fun p =>
    some (look.background p)

/-- The pointer of the mouse. -/
def pointerLayer (look : Look Ink) (pos : NxgiPoint) : Layer NxgiPoint Ink :=
  within (NxgiRect.mk (i32 (pos.x + 4)) (i32 (pos.y + 4)) (i32 (pos.x + 12))
    (i32 (pos.y + 12))).pixels fun _ => some look.pointer

/-- `desktop_blit_subcontrol` -/
def desktopBlitSubcontrol (look : Look Ink) (s : System Ink) (clip : NxgiRect)
    (canvas : NxgiPoint → Ink) (child : HjControlMeta) : NxgiPoint → Ink :=
  let cr := childClient s.controls child
  let canvas :=
    if nxgigRectIntersect cr cr then paintOn canvas (within clip.pixels (surfaceLayer s child))
    else canvas
  paintOn canvas (within clip.pixels (frameLayer look s child))

/-- `desktop_repaint_subcontrols` -/
def desktopRepaintSubcontrols (look : Look Ink) (s : System Ink) (clip clipRect : NxgiRect)
    (canvas : NxgiPoint → Ink) : NxgiPoint → Ink :=
  (metas s.children).foldl
    (fun canvas child =>
      if nxgigRectIntersect (childBounds s.controls child) clipRect then
        desktopBlitSubcontrol look s clip canvas child
      else canvas)
    canvas

/-- What `nxgi_set_clip_rect` makes of a rectangle. -/
def clipOf (look : Look Ink) (rect : NxgiRect) : NxgiRect :=
  (graphicsSetClipRect look.gc look.screen rect).clipRect

/-- `desktop_repaint`.  The time that drawing takes is drawn without regard to `rect`. -/
def desktopRepaint (look : Look Ink) (s : System Ink) (rect : NxgiRect)
    (drawTime : Layer NxgiPoint Ink) : System Ink :=
  let clip := clipOf look rect
  let canvas := paintOn s.shown (within clip.pixels (backgroundLayer look))
  let canvas := desktopRepaintSubcontrols look s clip rect canvas
  let canvas := paintOn canvas drawTime
  { s with shown := paintOn canvas (within clip.pixels (pointerLayer look s.mousePos)) }

/-- Where the time that drawing takes is drawn: up to 24 characters at `(25, 70)`. -/
def drawTimeRect : NxgiRect := ⟨25, 70, 25 + 24 * 8 + 1, 70 + 8⟩

/-! ### Messages -/

/-- The values of `HJ_MESSAGE_TYPE` for clicks. -/
abbrev hjMessageMouseClick : Nat := 1
abbrev hjMessageMouseDblClick : Nat := 2

/-- `msg.type` -/
def messageType (msg : HjMessage) : Nat := field 0 4 msg.bytes

/-- `msg.repaint.rect` -/
def repaintRect (msg : HjMessage) : NxgiRect where
  x1 := i32 (field 4 4 msg.bytes)
  y1 := i32 (field 8 4 msg.bytes)
  x2 := i32 (field 12 4 msg.bytes)
  y2 := i32 (field 16 4 msg.bytes)

/-- `desktop_dispatch_message`, and whether it has dispatched the message. -/
def desktopDispatchMessage (s : System Ink) (msg : HjMessage) : HResult × Bool × System Ink :=
  if messageType msg = hjMessageMouseMoved ∨ messageType msg = hjMessageMouseDown ∨
      messageType msg = hjMessageMouseUp then
    let dispatch := desktopDispatchMouseMessages s.controls (metas s.children) msg
    (dispatch.hr, false, { s with controls := dispatch.controls })
  else if messageType msg = hjMessageMouseClick ∨ messageType msg = hjMessageMouseDblClick then
    let dispatch := desktopDispatchMouseMessages s.controls (metas s.children) msg
    (dispatch.hr, dispatch.dispatched, { s with controls := dispatch.controls })
  else (.sOk, false, s)

/-- `desktop_message_handler` while drawing is enabled, but for the messages about the
resolution. -/
def desktopMessageHandler (look : Look Ink) (s : System Ink) (msg : HjMessage)
    (drawTime : Layer NxgiPoint Ink) : HResult × System Ink :=
  if messageType msg = hjMessageMouseMoved then desktopMouseMove s msg.mouse
  else if messageType msg = hjMessageMouseDown then
    desktopMouseDown s msg.mouse (field 8 4 msg.bytes)
  else if messageType msg = hjMessageMouseUp then desktopMouseUp s
  else if messageType msg = hjMessageRepaint then
    (.sOk, desktopRepaint look s (repaintRect msg) drawTime)
  else (.sFalse, s)

/-- `hj_process_message` of the desktop -/
def hjProcessMessage (look : Look Ink) (s : System Ink) (msg : HjMessage)
    (drawTime : Layer NxgiPoint Ink) : HResult × System Ink :=
  let (hr, dispatched, s) := desktopDispatchMessage s msg
  if hr.failed then (hr, s)
  else if dispatched then (hr, s)
  else desktopMessageHandler look s msg drawTime

/-- `hj_child_find` -/
def hjChildFind (children : List HjDragMeta) (child : Nat) : Option Nat :=
  children.findIdx? (·.control = child)

/-- `desktop_receive_feedback`, for a surface that has changed in a rectangle. -/
def desktopReceiveFeedback (s : System Ink) (sender : Nat) (rect : NxgiRect) :
    HResult × System Ink :=
  match hjChildFind s.children sender with
  | none => (.eFail, s)
  | some i =>
    let cr := hjGetChildClientrect s.controls (metas s.children) i
    hjControlInvalidateRect s (nxgigRectOffset rect cr.p1)

/-- `msg.rect` in `hj_control_request_parent_repaint`: all of the surface where no rectangle is
given. -/
def feedbackRect (controls : HjControls) (control : Nat) (dirtyRect : Option NxgiRect) : NxgiRect :=
  let size := hjControlGetSize (controls control)
  dirtyRect.getD ⟨0, 0, size.width, size.height⟩

/-- `hj_control_request_parent_repaint` of a child of the desktop -/
def hjControlRequestParentRepaint (s : System Ink) (control : Nat) (dirtyRect : Option NxgiRect) :
    HResult × System Ink :=
  desktopReceiveFeedback s control (feedbackRect s.controls control dirtyRect)

/-! ## The system -/

/-- The message is not about the mouse or the resolution. -/
def FromOthers (msg : HjMessage) : Prop :=
  messageType msg ∉ [hjMessageMouseMoved, hjMessageMouseDown, hjMessageMouseUp, hjMessageResize,
    hjMessageDisableDrawing, hjMessageEnableDrawing]

/-- The coordinates of a rectangle on a surface have 16 bits and a sign. -/
structure Near (rect : NxgiRect) : Prop where
  x1 : -2 ^ 16 ≤ rect.x1 ∧ rect.x1 ≤ 2 ^ 16
  y1 : -2 ^ 16 ≤ rect.y1 ∧ rect.y1 ≤ 2 ^ 16
  x2 : -2 ^ 16 ≤ rect.x2 ∧ rect.x2 ≤ 2 ^ 16
  y2 : -2 ^ 16 ≤ rect.y2 ∧ rect.y2 ≤ 2 ^ 16

/-- The steps of everyone while the queue of the desktop has room: the server takes an event of the
mouse, others queue messages, a child draws in a rectangle of its surface and reports it, and the
desktop takes a message and handles it. -/
inductive Step (look : Look Ink) : System Ink → Unit → System Ink → Prop
  | event {s : System Ink} (ev : DriverEvent)
      (room : sizeofHjMessage ≤ rbGetWriteSize s.hj.desktop.messageQueue) :
      Step look s () { s with hj := henjinProcessEvent s.hj ev.record }
  | queue {s : System Ink} (msg : HjMessage) (others : FromOthers msg) :
      Step look s ()
        { s with hj := { s.hj with desktop := (hjQueueMessage s.hj.desktop msg).2 } }
  | draw {s t : System Ink} {surface : Nat → NxgiPoint → Option Ink} (control : Nat)
      (dirtyRect : Option NxgiRect) (near : ∀ rect ∈ dirtyRect, Near rect)
      (drawn : ∀ c p, c = control ∧ p ∈ (feedbackRect s.controls control dirtyRect).pixels ∨
        surface c p = s.surface c p)
      (reported : hjControlRequestParentRepaint { s with surface := surface } control dirtyRect =
        (.sOk, t)) :
      Step look s () t
  | take {s : System Ink} {msg : HjMessage} {desktop : HjControl} (free : s.handling = none)
      (got : hjGetMessage s.hj.desktop = (.sOk, msg.bytes, desktop)) :
      Step look s () { s with hj := { s.hj with desktop := desktop }, handling := some msg }
  | handle {s t : System Ink} {msg : HjMessage} {hr : HResult} {drawTime : Layer NxgiPoint Ink}
      (busy : s.handling = some msg)
      (room : 3 * sizeofHjMessage ≤ rbGetWriteSize s.hj.desktop.messageQueue)
      (time : ∀ p, p ∈ drawTimeRect.pixels ∨ drawTime p = none)
      (processed : hjProcessMessage look s msg drawTime = (hr, t)) (done : hr.failed = false) :
      Step look s () { t with handling := none }

/-! ## What there is to be seen -/

/-- A child: its surface and its decoration. -/
def childLayer (look : Look Ink) (s : System Ink) (child : HjControlMeta) : Layer NxgiPoint Ink :=
  compose [surfaceLayer s child, frameLayer look s child]

/-- The background, the children, the pointer. -/
def scene (look : Look Ink) (s : System Ink) : Layer NxgiPoint Ink :=
  compose (backgroundLayer look ::
    (metas s.children).map (childLayer look s) ++ [pointerLayer look s.mousePos])

/-- The screen but for the place of the time that drawing takes. -/
def region (look : Look Ink) : Set NxgiPoint := look.screen.pixels \ drawTimeRect.pixels

/-- The points that messages ask to be repainted. -/
def requested (msgs : List HjMessage) : Set NxgiPoint :=
  {p | ∃ msg ∈ msgs, messageType msg = hjMessageRepaint ∧ p ∈ (repaintRect msg).pixels}

/-! ## Children -/

section

variable {look : Look Ink} {s t : System Ink} {controls : HjControls} {children : List HjDragMeta}
  {m : HjDragMeta} {p : NxgiPoint} {k : Nat}

theorem hjGetChildBoundsrect_eq (there : children[k]? = some m) :
    hjGetChildBoundsrect controls (metas children) k = childBounds controls m.toHjControlMeta := by
  simp [childBounds, hjGetChildBoundsrect, hjGetChildAt, there]

theorem hjGetChildClientrect_eq (there : children[k]? = some m) :
    hjGetChildClientrect controls (metas children) k = childClient controls m.toHjControlMeta := by
  simp [childClient, hjGetChildClientrect, hjGetChildAt, there]

/-- A child that is decorated or not, of a size of 16 bits, at a place from which no sum
overflows, and dragged from such a place if it is. -/
structure Placed (controls : HjControls) (m : HjDragMeta) : Prop where
  decor : m.decor = ⟨⟨0, 0⟩, .none, 0⟩ ∨ m.decor = ⟨⟨2, 28⟩, .normal, 2⟩
  width : 0 ≤ (controls m.control).size.width ∧ (controls m.control).size.width < 2 ^ 16
  height : 0 ≤ (controls m.control).size.height ∧ (controls m.control).size.height < 2 ^ 16
  x : -2 ^ 20 ≤ m.pos.x ∧ m.pos.x ≤ 2 ^ 20
  y : -2 ^ 20 ≤ m.pos.y ∧ m.pos.y ≤ 2 ^ 20
  sourceX : 0 ≤ m.dragSource.x ∧ m.dragSource.x < 2 ^ 16
  sourceY : 0 ≤ m.dragSource.y ∧ m.dragSource.y < 2 ^ 16
  originX : -2 ^ 18 ≤ m.dragWndPos.x ∧ m.dragWndPos.x ≤ 2 ^ 18
  originY : -2 ^ 18 ≤ m.dragWndPos.y ∧ m.dragWndPos.y ≤ 2 ^ 18

/-- The bounds of a child begin at its position, and its surface is inside of them. -/
theorem Placed.rects (placed : Placed controls m) :
    ∃ dx dy width height : Int, (0 ≤ dx ∧ dx ≤ 28) ∧ (0 ≤ dy ∧ dy ≤ 28) ∧
      (dx + (controls m.control).size.width ≤ width ∧ width < 2 ^ 17) ∧
      (dy + (controls m.control).size.height ≤ height ∧ height < 2 ^ 17) ∧
      childBounds controls m.toHjControlMeta =
        ⟨m.pos.x, m.pos.y, m.pos.x + width, m.pos.y + height⟩ ∧
      childClient controls m.toHjControlMeta =
        ⟨m.pos.x + dx, m.pos.y + dy, m.pos.x + dx + (controls m.control).size.width,
          m.pos.y + dy + (controls m.control).size.height⟩ := by
  obtain ⟨decor, ⟨_, _⟩, ⟨_, _⟩, ⟨_, _⟩, ⟨_, _⟩, -, -, -, -⟩ := placed
  simp only [childBounds, childClient, hjGetChildBoundsrect, hjGetChildClientrect, hjGetChildAt,
    List.getElem?_cons_zero, hjControlGetSize, nxgigPointAdd]
  have range : ∀ x : Int, -2 ^ 21 ≤ x ∧ x ≤ 2 ^ 21 → i32 x = x :=
    fun x inside => i32_of_range (by omega) (by omega)
  cases decor with
  | inl plain =>
    refine ⟨0, 0, (controls m.control).size.width, (controls m.control).size.height, by omega,
      by omega, by omega, by omega, ?_, ?_⟩
    · simp (disch := omega) [plain, range]
    · simp (disch := omega) [plain, range]
  | inr framed =>
    refine ⟨2, 28, (controls m.control).size.width + 4, (controls m.control).size.height + 30,
      by omega, by omega, by omega, by omega, ?_, ?_⟩
    · simp (disch := omega) [framed, range]
      omega
    · simp (disch := omega) [framed, range]

theorem Placed.client_subset (placed : Placed controls m) :
    (childClient controls m.toHjControlMeta).pixels ⊆
      (childBounds controls m.toHjControlMeta).pixels := by
  obtain ⟨dx, dy, width, height, left, top, right, bottom, bounds, client⟩ := placed.rects
  rw [bounds, client]
  intro p inside
  simp only [NxgiRect.mem_pixels] at inside ⊢
  omega

/-- A child has ink inside of its bounds only. -/
theorem childLayer_none (placed : Placed s.controls m)
    (outside : p ∉ (childBounds s.controls m.toHjControlMeta).pixels) :
    childLayer look s m.toHjControlMeta p = none := by
  have off : p ∉ (childClient s.controls m.toHjControlMeta).pixels :=
    fun inside => outside (placed.client_subset inside)
  simp [childLayer, frameLayer, surfaceLayer, within_of_notMem outside, within_of_notMem off]

/-! ## Scenes -/

/-- What there is to be seen depends on the sizes of the controls only. -/
theorem scene_congr (same : metas t.children = metas s.children)
    (sizes : ∀ c, (t.controls c).size = (s.controls c).size) (surface : t.surface = s.surface)
    (mousePos : t.mousePos = s.mousePos) : scene look t = scene look s := by
  have bounds : childBounds t.controls = childBounds s.controls := by
    funext m
    simp [childBounds, hjGetChildBoundsrect, hjGetChildAt, hjControlGetSize, sizes]
  have client : childClient t.controls = childClient s.controls := by
    funext m
    simp [childClient, hjGetChildClientrect, hjGetChildAt, hjControlGetSize, sizes]
  have layers : childLayer look t = childLayer look s := by
    funext m
    unfold childLayer frameLayer surfaceLayer hjControlGetSize
    rw [bounds, client, surface, sizes]
  unfold scene
  rw [same, mousePos, layers]

/-- The pointer makes a difference where it was and where it is. -/
theorem scene_mousePos (pos : NxgiPoint)
    (before : pointerLayer look s.mousePos p = none) (after : pointerLayer look pos p = none) :
    scene look { s with mousePos := pos } p = scene look s p := by
  have layers : childLayer look { s with mousePos := pos } = childLayer look s := rfl
  simp only [scene, layers, compose_append, compose_cons, before, after]

/-- A child makes a difference where it was and where it is. -/
theorem scene_set {m' : HjDragMeta} (there : s.children[k]? = some m)
    (before : childLayer look s m.toHjControlMeta p = none)
    (after : childLayer look s m'.toHjControlMeta p = none) :
    scene look { s with children := s.children.set k m' } p = scene look s p := by
  have layers : childLayer look { s with children := s.children.set k m' } = childLayer look s :=
    rfl
  have old : ((metas s.children).map (childLayer look s))[k]? =
      some (childLayer look s m.toHjControlMeta) := by simp [there]
  have same : compose ((metas (s.children.set k m')).map (childLayer look s)) p =
      compose ((metas s.children).map (childLayer look s)) p := by
    rw [metas, List.map_set, List.map_set]
    exact compose_set old (after.trans before.symm)
  simp only [scene, layers, List.cons_append, compose_append, compose_cons, same]

end

/-! ## Requests -/

section

variable {look : Look Ink} {s t : System Ink} {rect : NxgiRect} {queue msgs msgs' : List HjMessage}
  {p : NxgiPoint}

/-- The coordinates of a rectangle are those of an `int32_t`. -/
structure Int32s (rect : NxgiRect) : Prop where
  x1 : -2 ^ 31 ≤ rect.x1 ∧ rect.x1 < 2 ^ 31
  y1 : -2 ^ 31 ≤ rect.y1 ∧ rect.y1 < 2 ^ 31
  x2 : -2 ^ 31 ≤ rect.x2 ∧ rect.x2 < 2 ^ 31
  y2 : -2 ^ 31 ≤ rect.y2 ∧ rect.y2 < 2 ^ 31

@[simp] theorem messageType_hjRepaintMessage (rect : NxgiRect) (gc : Nat) :
    messageType (hjRepaintMessage rect gc) = hjMessageRepaint := by
  rw [messageType, hjRepaintMessage, field_here]
  rfl

/-- A rectangle is read back from a message. -/
theorem repaintRect_hjRepaintMessage (fits : Int32s rect) (gc : Nat) :
    repaintRect (hjRepaintMessage rect gc) = rect := by
  have word : ∀ x : Int, -2 ^ 31 ≤ x ∧ x < 2 ^ 31 → i32 ((asU32 x % 256 ^ 4 : Nat) : Int) = x := by
    intro x inside
    rw [Nat.mod_eq_of_lt (show asU32 x < 256 ^ 4 from asU32_lt x)]
    exact i32_asU32 inside.1 inside.2
  have x1 : field 4 4 (hjRepaintMessage rect gc).bytes = asU32 rect.x1 % 256 ^ 4 := by
    rw [hjRepaintMessage, field_skip 4 0, field_here]
  have y1 : field 8 4 (hjRepaintMessage rect gc).bytes = asU32 rect.y1 % 256 ^ 4 := by
    rw [hjRepaintMessage, field_skip 4 4, field_skip 4 0, field_here]
  have x2 : field 12 4 (hjRepaintMessage rect gc).bytes = asU32 rect.x2 % 256 ^ 4 := by
    rw [hjRepaintMessage, field_skip 4 8, field_skip 4 4, field_skip 4 0, field_here]
  have y2 : field 16 4 (hjRepaintMessage rect gc).bytes = asU32 rect.y2 % 256 ^ 4 := by
    rw [hjRepaintMessage, field_skip 4 12, field_skip 4 8, field_skip 4 4, field_skip 4 0,
      field_here]
  rw [repaintRect, x1, y1, x2, y2, word _ fits.x1, word _ fits.y1, word _ fits.x2, word _ fits.y2]

@[simp] theorem mem_requested_append :
    p ∈ requested (msgs ++ msgs') ↔ p ∈ requested msgs ∨ p ∈ requested msgs' := by
  simp only [requested, Set.mem_ofPred_eq, List.mem_append, or_and_right, exists_or]

/-- Other messages request nothing. -/
theorem requested_cons_of_ne {msg : HjMessage} (other : messageType msg ≠ hjMessageRepaint) :
    requested (msg :: msgs) = requested msgs := by
  simp [requested, other]

theorem mem_requested_repaint (fits : Int32s rect) (inside : p ∈ rect.pixels) :
    p ∈ requested [hjRepaintMessage rect 0] :=
  ⟨_, List.mem_singleton_self _, messageType_hjRepaintMessage _ _, by
    rwa [repaintRect_hjRepaintMessage fits]⟩

theorem hjControlInvalidateRect_eq (pending : Pending s.hj.desktop queue)
    (room : queue.length < 511) (rect : NxgiRect) :
    ∃ desktop, hjControlInvalidateRect s rect =
        (.sOk, { s with hj := { s.hj with desktop := desktop } }) ∧
      Pending desktop (queue ++ [hjRepaintMessage rect 0]) := by
  obtain ⟨desktop, queued, pending⟩ := pending.queueMessage_room (hjRepaintMessage rect 0) room
  refine ⟨desktop, ?_, pending⟩
  rw [hjControlInvalidateRect, queued]

/-- The union of two rectangles has the points of both. -/
theorem mem_nxgigRectsUnion {r1 r2 : NxgiRect} (inside : p ∈ r1.pixels ∨ p ∈ r2.pixels) :
    p ∈ (nxgigRectsUnion r1 r2).pixels := by
  simp only [nxgigRectsUnion, NxgiRect.mem_pixels] at inside ⊢
  refine ⟨⟨?_, ?_⟩, ?_, ?_⟩
  · split <;> omega
  · split <;> omega
  · split <;> omega
  · split <;> omega

theorem Int32s.union {r1 r2 : NxgiRect} (one : Int32s r1) (two : Int32s r2) :
    Int32s (nxgigRectsUnion r1 r2) := by
  unfold nxgigRectsUnion
  constructor
  · dsimp only
    split
    · exact one.x1
    · exact two.x1
  · dsimp only
    split
    · exact one.y1
    · exact two.y1
  · dsimp only
    split
    · exact one.x2
    · exact two.x2
  · dsimp only
    split
    · exact one.y2
    · exact two.y2

end

/-! ## What one message does -/

/-- A window that is dragged is where the pointer has taken it, give or take a pixel. -/
structure Follows (pos : NxgiPoint) (m : HjDragMeta) : Prop where
  x : -1 ≤ m.pos.x - (m.dragWndPos.x + (pos.x - m.dragSource.x)) ∧
    m.pos.x - (m.dragWndPos.x + (pos.x - m.dragSource.x)) ≤ 1
  y : -1 ≤ m.pos.y - (m.dragWndPos.y + (pos.y - m.dragSource.y)) ∧
    m.pos.y - (m.dragWndPos.y + (pos.y - m.dragSource.y)) ≤ 1

/-- The desktop with the messages of its queue, when it is at none: the screen is fresh but for the
requests among them, and the children are where they can be. -/
structure Steady (look : Look Ink) (s : System Ink) (queue : List HjMessage) : Prop where
  pending : Pending s.hj.desktop queue
  fresh : Fresh (region look) s.shown (scene look s) (requested queue)
  placed : ∀ m ∈ s.children, Placed s.controls m
  distinct : (s.children.map (·.control)).Nodup
  mouseX : 0 ≤ s.mousePos.x ∧ s.mousePos.x < 2 ^ 16
  mouseY : 0 ≤ s.mousePos.y ∧ s.mousePos.y < 2 ^ 16

/-- The window that is dragged, if there is one: the first in the list. -/
def dragged (s : System Ink) : Option HjDragMeta := s.children.find? (·.dragMode)

/-- What the desktop leaves of the server when it handles a message: it adds requests to the
queue. -/
structure Handled (look : Look Ink) (s t : System Ink) (queue more : List HjMessage) : Prop where
  steady : Steady look t (queue ++ more)
  requests : ∀ msg ∈ more, messageType msg = hjMessageRepaint
  mousePos : t.hj.mousePos = s.hj.mousePos
  screenRect : t.hj.screenRect = s.hj.screenRect

section

variable {look : Look Ink} {s t : System Ink} {queue : List HjMessage} {pos : NxgiPoint}
  {m m' : HjDragMeta} {k : Nat}

theorem find?_set {children : List HjDragMeta} (drag : m'.dragMode = true) {x : HjDragMeta}
    (found : (children.set k m').find? (·.dragMode) = some x) :
    x = m' ∨ children.find? (·.dragMode) = some x := by
  induction children generalizing k with
  | nil => exact .inr found
  | cons first children inductionHypothesis =>
    cases k with
    | zero =>
      left
      simpa [drag, eq_comm] using found
    | succ k =>
      rw [List.set_cons_succ, List.find?_cons] at found
      rw [List.find?_cons]
      split at found
      · exact .inr found
      · exact inductionHypothesis found

theorem find?_set_findIdx {children : List HjDragMeta} (m' : HjDragMeta)
    (drag : m'.dragMode = true)
    (there : children[children.findIdx (·.dragMode)]? = some m) :
    (children.set (children.findIdx (·.dragMode)) m').find? (·.dragMode) = some m' := by
  induction children with
  | nil => simp at there
  | cons first children inductionHypothesis =>
    rw [List.findIdx_cons] at there ⊢
    cases now : first.dragMode with
    | true => simp [drag]
    | false =>
      simp only [now, cond_false, List.getElem?_cons_succ] at there ⊢
      rw [List.set_cons_succ, List.find?_cons, now]
      exact inductionHypothesis there

/-- What does not change of one child does not change of the list. -/
theorem map_set_same {α : Type} {children : List HjDragMeta} (f : HjDragMeta → α)
    (there : children[k]? = some m) (same : f m' = f m) :
    (children.set k m').map f = children.map f := by
  obtain ⟨below, rfl⟩ := List.getElem?_eq_some_iff.mp there
  have inside : k < (children.map f).length := by simpa using below
  have kept : (children.map f)[k] = f m' := by rw [List.getElem_map, same]
  rw [List.map_set, ← kept, List.set_getElem_self]

/-- The child of a set is the new one, or an old one. -/
theorem placed_set (steady : Steady look s queue) (placed : Placed s.controls m') :
    ∀ m ∈ s.children.set k m', Placed s.controls m := by
  intro m member
  cases List.mem_or_eq_of_mem_set member with
  | inl old => exact steady.placed m old
  | inr new =>
    rw [new]
    exact placed

theorem Placed.int32s {controls : HjControls} (placed : Placed controls m) :
    Int32s (childBounds controls m.toHjControlMeta) := by
  obtain ⟨dx, dy, width, height, left, top, right, bottom, bounds, -⟩ := placed.rects
  have x := placed.x
  have y := placed.y
  have wide := placed.width
  have high := placed.height
  rw [bounds]
  constructor <;> dsimp only <;> omega

theorem cAbs_lt_two {n : Int} (small : -2 ^ 30 ≤ n ∧ n ≤ 2 ^ 30) :
    cAbs n < 2 ↔ -1 ≤ n ∧ n ≤ 1 := by
  unfold cAbs
  split
  · omega
  · rw [i32_of_range (by omega) (by omega)]
    omega

/-- A child that moves has the places where it was and where it is repainted. -/
theorem Steady.moved (steady : Steady look s queue) (room : queue.length < 511)
    (there : s.children[k]? = some m) (placed : Placed s.controls m')
    (same : m'.control = m.control) :
    ∃ desktop, hjControlInvalidateRect { s with children := s.children.set k m' }
        (nxgigRectsUnion (childBounds s.controls m.toHjControlMeta)
          (childBounds s.controls m'.toHjControlMeta)) =
        (.sOk, { s with
          children := s.children.set k m', hj := { s.hj with desktop := desktop } }) ∧
      Steady look { s with
          children := s.children.set k m', hj := { s.hj with desktop := desktop } }
        (queue ++ [hjRepaintMessage (nxgigRectsUnion (childBounds s.controls m.toHjControlMeta)
          (childBounds s.controls m'.toHjControlMeta)) 0]) := by
  have old := steady.placed m (List.mem_of_getElem? there)
  have pending : Pending ({ s with children := s.children.set k m' } : System Ink).hj.desktop
    queue := steady.pending
  obtain ⟨desktop, queued, pending⟩ := hjControlInvalidateRect_eq pending room
    (nxgigRectsUnion (childBounds s.controls m.toHjControlMeta)
      (childBounds s.controls m'.toHjControlMeta))
  refine ⟨desktop, queued, pending, ?_, placed_set steady placed, ?_, steady.mouseX,
    steady.mouseY⟩
  · refine steady.fresh.change (fun p damaged => mem_requested_append.mpr (.inl damaged)) ?_
    intro p _ undamaged
    have apart : p ∉ (childBounds s.controls m.toHjControlMeta).pixels ∧
        p ∉ (childBounds s.controls m'.toHjControlMeta).pixels := by
      rw [← not_or]
      intro inside
      apply undamaged
      refine mem_requested_append.mpr (.inr (mem_requested_repaint ?_ (mem_nxgigRectsUnion inside)))
      exact old.int32s.union placed.int32s
    exact scene_set there (childLayer_none old apart.1) (childLayer_none placed apart.2)
  · show ((s.children.set k m').map (·.control)).Nodup
    rw [map_set_same (·.control) there same]
    exact steady.distinct

/-- The window that is dragged goes where the pointer is. -/
theorem handleDragging (steady : Steady look s queue) (room : queue.length < 511)
    (here : s.mousePos = pos) :
    ∃ t more, desktopMouseMoveHandleDragging s pos = (.sOk, t) ∧ Handled look s t queue more ∧
      t.mousePos = pos ∧ ∀ m, dragged t = some m → Follows pos m := by
  unfold desktopMouseMoveHandleDragging
  dsimp only
  cases there : s.children[s.children.findIdx (·.dragMode)]? with
  | none =>
    refine ⟨s, [], rfl, ⟨by simpa using steady, by simp, rfl, rfl⟩, here, ?_⟩
    intro m first
    rw [dragged, List.find?_eq_getElem?_findIdx, there] at first
    cases first
  | some m =>
    have placed := steady.placed m (List.mem_of_getElem? there)
    have first : dragged s = some m := by
      rw [dragged, List.find?_eq_getElem?_findIdx, there]
    have drag : m.dragMode = true := List.findIdx_of_getElem?_eq_some there
    obtain ⟨dx, dy, width, height, left, top, right, bottom, bounds, -⟩ := placed.rects
    have ⟨_, _, _, ⟨_, _⟩, ⟨_, _⟩, ⟨_, _⟩, ⟨_, _⟩, ⟨_, _⟩, ⟨_, _⟩⟩ := placed
    have ⟨⟨_, _⟩, _, _⟩ := And.intro steady.mouseX steady.mouseY
    have range : ∀ x : Int, -2 ^ 21 ≤ x ∧ x ≤ 2 ^ 21 → i32 x = x :=
      fun x inside => i32_of_range (by omega) (by omega)
    subst here
    simp (disch := omega) only [hjGetChildBoundsrect_eq there, bounds, range]
    split
    · next near =>
      rw [cAbs_lt_two (by omega), cAbs_lt_two (by omega)] at near
      refine ⟨s, [], rfl, ⟨by simpa using steady, by simp, rfl, rfl⟩, rfl, ?_⟩
      intro x found
      obtain rfl : m = x := Option.some.inj (first.symm.trans found)
      constructor <;> omega
    · let m' : HjDragMeta := { m with
        pos := ⟨m.dragWndPos.x + (s.mousePos.x - m.dragSource.x),
          m.dragWndPos.y + (s.mousePos.y - m.dragSource.y)⟩ }
      have placed' : Placed s.controls m' :=
        ⟨placed.decor, placed.width, placed.height, by dsimp only [m']; omega,
          by dsimp only [m']; omega, placed.sourceX, placed.sourceY, placed.originX,
          placed.originY⟩
      have below := (List.getElem?_eq_some_iff.mp there).1
      have there' : (s.children.set (s.children.findIdx (·.dragMode)) m')[
          s.children.findIdx (·.dragMode)]? = some m' := by simp [below]
      obtain ⟨desktop, queued, moved⟩ := steady.moved room there placed' rfl
      rw [bounds] at queued
      rw [hjGetChildBoundsrect_eq there', queued]
      refine ⟨_, _, rfl, ⟨moved, by simp, rfl, rfl⟩, rfl, ?_⟩
      intro x found
      obtain rfl : m' = x :=
        Option.some.inj ((find?_set_findIdx m' drag there).symm.trans found)
      constructor <;> dsimp only [m'] <;> omega

/-- The area that is repainted for a pointer. -/
def pointerArea (pos : NxgiPoint) : NxgiRect := ⟨pos.x, pos.y, pos.x + 16, pos.y + 16⟩

/-- A position that a message can say. -/
structure OnMessage (pos : NxgiPoint) : Prop where
  x : 0 ≤ pos.x ∧ pos.x < 2 ^ 16
  y : 0 ≤ pos.y ∧ pos.y < 2 ^ 16

theorem OnMessage.area (sent : OnMessage pos) :
    NxgiRect.mk pos.x pos.y (i32 (pos.x + 16)) (i32 (pos.y + 16)) = pointerArea pos := by
  have ⟨⟨_, _⟩, _, _⟩ := sent
  rw [i32_of_range (by omega) (by omega), i32_of_range (by omega) (by omega), pointerArea]

theorem OnMessage.int32s (sent : OnMessage pos) : Int32s (pointerArea pos) := by
  have ⟨⟨_, _⟩, _, _⟩ := sent
  constructor <;> dsimp only [pointerArea] <;> omega

theorem OnMessage.pointerLayer_none (sent : OnMessage pos) {p : NxgiPoint}
    (outside : p ∉ (pointerArea pos).pixels) : pointerLayer look pos p = none := by
  have ⟨⟨_, _⟩, _, _⟩ := sent
  apply within_of_notMem
  intro inside
  apply outside
  rw [i32_of_range (by omega) (by omega), i32_of_range (by omega) (by omega),
    i32_of_range (by omega) (by omega), i32_of_range (by omega) (by omega)] at inside
  simp only [pointerArea, NxgiRect.mem_pixels] at inside ⊢
  omega

theorem Steady.mouse (steady : Steady look s queue) : OnMessage s.mousePos :=
  ⟨steady.mouseX, steady.mouseY⟩

/-- The pointer moves, and both areas are to be repainted. -/
theorem Steady.pointed (steady : Steady look s queue) (sent : OnMessage pos) {desktop : HjControl}
    {more : List HjMessage} (pending : Pending desktop (queue ++ more))
    (covers : ∀ p, p ∈ (pointerArea s.mousePos).pixels ∨ p ∈ (pointerArea pos).pixels →
      p ∈ requested more) :
    Steady look { s with mousePos := pos, hj := { s.hj with desktop := desktop } }
      (queue ++ more) := by
  refine ⟨pending, ?_, steady.placed, steady.distinct, sent.x, sent.y⟩
  refine steady.fresh.change (fun p damaged => mem_requested_append.mpr (.inl damaged)) ?_
  intro p _ undamaged
  have apart : p ∉ (pointerArea s.mousePos).pixels ∧ p ∉ (pointerArea pos).pixels := by
    rw [← not_or]
    exact fun inside => undamaged (mem_requested_append.mpr (.inr (covers p inside)))
  exact scene_mousePos pos (steady.mouse.pointerLayer_none apart.1) (sent.pointerLayer_none apart.2)

/-- What the pointer needs to have repainted is requested in one message or in two. -/
theorem invalidateAreas (steady : Steady look s queue) (sent : OnMessage pos)
    (room : queue.length + 2 ≤ 511) (unified : Prop) [Decidable unified] :
    ∃ desktop more,
      (if unified then
          (hjControlInvalidateRect { s with mousePos := pos }
            (nxgigRectsUnion (pointerArea s.mousePos) (pointerArea pos))).2
        else (hjControlInvalidateRect (hjControlInvalidateRect { s with mousePos := pos }
          (pointerArea s.mousePos)).2 (pointerArea pos)).2) =
        { s with mousePos := pos, hj := { s.hj with desktop := desktop } } ∧
      Steady look { s with mousePos := pos, hj := { s.hj with desktop := desktop } }
        (queue ++ more) ∧
      more.length ≤ 2 ∧ ∀ msg ∈ more, messageType msg = hjMessageRepaint := by
  have old := steady.mouse.int32s
  have pending : Pending ({ s with mousePos := pos } : System Ink).hj.desktop queue :=
    steady.pending
  split
  · obtain ⟨desktop, queued, pending⟩ := hjControlInvalidateRect_eq pending (by omega)
      (nxgigRectsUnion (pointerArea s.mousePos) (pointerArea pos))
    rw [queued]
    refine ⟨desktop, _, rfl, steady.pointed sent pending ?_, by simp, by simp⟩
    intro p inside
    exact mem_requested_repaint (old.union sent.int32s) (mem_nxgigRectsUnion inside)
  · obtain ⟨one, queued, first⟩ := hjControlInvalidateRect_eq pending (by omega)
      (pointerArea s.mousePos)
    rw [queued]
    have pending : Pending ({ s with
        mousePos := pos, hj := { s.hj with desktop := one } } : System Ink).hj.desktop
      (queue ++ [hjRepaintMessage (pointerArea s.mousePos) 0]) := first
    obtain ⟨two, queued, pending⟩ := hjControlInvalidateRect_eq pending (by simp; omega)
      (pointerArea pos)
    rw [queued]
    rw [List.append_assoc] at pending
    refine ⟨two, _, rfl, steady.pointed sent pending ?_, by simp, by simp⟩
    intro p inside
    rw [mem_requested_append]
    exact inside.imp (mem_requested_repaint old) (mem_requested_repaint sent.int32s)

theorem mouseMove (steady : Steady look s queue) (room : queue.length + 3 ≤ 511)
    (sent : OnMessage pos) :
    ∃ t more, desktopMouseMove s pos = (.sOk, t) ∧ Handled look s t queue more ∧
      t.mousePos = pos ∧ ∀ m, dragged t = some m → Follows pos m := by
  unfold desktopMouseMove
  dsimp only
  rw [steady.mouse.area, sent.area]
  obtain ⟨desktop, more, queued, pointed, few, requests⟩ := invalidateAreas steady sent (by omega)
    (nxgigRectArea (nxgigRectsUnion (pointerArea s.mousePos) (pointerArea pos)) <
      u32 (nxgigRectArea (pointerArea s.mousePos) + nxgigRectArea (pointerArea pos)))
  rw [queued]
  obtain ⟨t, later, moved, handled, there, follows⟩ :=
    handleDragging pointed (by rw [List.length_append]; omega) rfl
  rw [moved]
  refine ⟨t, more ++ later, rfl, ⟨?_, ?_, handled.mousePos, handled.screenRect⟩, there, follows⟩
  · rw [← List.append_assoc]
    exact handled.steady
  · rw [List.forall_mem_append]
    exact ⟨requests, handled.requests⟩

/-- Dragging alone makes no difference to what there is to be seen. -/
theorem Steady.marked (steady : Steady look s queue) {children : List HjDragMeta}
    (same : metas children = metas s.children)
    (placed : ∀ m ∈ children, Placed s.controls m) :
    Steady look { s with children := children } queue := by
  have controls : ∀ children : List HjDragMeta,
      children.map (·.control) = (metas children).map (·.control) := by simp
  have seen : scene look { s with children := children } = scene look s :=
    scene_congr same (fun _ => rfl) rfl rfl
  refine ⟨steady.pending, ?_, placed, ?_, steady.mouseX, steady.mouseY⟩
  · rw [seen]
    exact steady.fresh
  · rw [controls, same, ← controls]
    exact steady.distinct

/-- What the loop has found is what it looks for. -/
theorem foldl_found {test : Nat → Bool} {indices : List Nat} {init : Option Nat}
    (holds : ∀ k, init = some k → test k = true)
    (found : indices.foldl (fun found i => if test i then some i else found) init = some k) :
    test k = true := by
  induction indices generalizing init with
  | nil => exact holds k found
  | cons i indices inductionHypothesis =>
    refine inductionHypothesis ?_ found
    intro j first
    dsimp only at first
    split at first
    · next passed =>
      obtain rfl := Option.some.inj first
      exact passed
    · exact holds j first

theorem mouseDown (steady : Steady look s queue) (follows : ∀ m, dragged s = some m →
    Follows s.mousePos m) (button : Nat) :
    ∃ t, desktopMouseDown s s.mousePos button = (.sOk, t) ∧ Handled look s t queue [] ∧
      t.mousePos = s.mousePos ∧ ∀ m, dragged t = some m → Follows s.mousePos m := by
  have unchanged : Handled look s s queue [] := ⟨by simpa using steady, by simp, rfl, rfl⟩
  unfold desktopMouseDown
  split
  · exact ⟨s, rfl, unchanged, rfl, follows⟩
  · dsimp only
    split
    · exact ⟨s, rfl, unchanged, rfl, follows⟩
    · next k found =>
      have title := foldl_found (by simp) found
      split
      · exact ⟨s, rfl, unchanged, rfl, follows⟩
      · next m there =>
        have placed := steady.placed m (List.mem_of_getElem? there)
        have ⟨⟨_, _⟩, _, _⟩ := And.intro steady.mouseX steady.mouseY
        -- the point is in the bounds of the window, so the window is near the screen
        have inside : nxgigPointInRect s.mousePos
            (childBounds s.controls m.toHjControlMeta) = true := by
          rw [onTitle, hjGetChildBoundsrect_eq there] at title
          by_contra outside
          simp [outside] at title
        obtain ⟨dx, dy, width, height, left, top, right, bottom, bounds, -⟩ := placed.rects
        rw [bounds, nxgigPointInRect_iff] at inside
        dsimp only at inside
        let m' := { m with dragSource := s.mousePos, dragWndPos := m.pos, dragMode := true }
        have placed' : Placed s.controls m' :=
          ⟨placed.decor, placed.width, placed.height, placed.x, placed.y, steady.mouseX,
            steady.mouseY, by dsimp only [m']; omega, by dsimp only [m']; omega⟩
        have same : metas (s.children.set k m') = metas s.children := map_set_same _ there rfl
        refine ⟨_, rfl, ⟨?_, by simp, rfl, rfl⟩, rfl, ?_⟩
        · rw [List.append_nil]
          exact steady.marked same (placed_set steady placed')
        · intro x first
          cases find?_set rfl first with
          | inl new =>
            rw [new]
            constructor <;> dsimp only <;> omega
          | inr old => exact follows x old

theorem mouseUp (steady : Steady look s queue) :
    ∃ t, desktopMouseUp s = (.sOk, t) ∧ Handled look s t queue [] ∧ t.mousePos = s.mousePos ∧
      dragged t = none := by
  have control : ∀ m : HjDragMeta,
      (if m.dragMode then { m with dragMode := false } else m).toHjControlMeta =
        m.toHjControlMeta := by
    intro m
    split <;> rfl
  refine ⟨_, rfl, ⟨?_, by simp, rfl, rfl⟩, rfl, ?_⟩
  · rw [List.append_nil]
    refine steady.marked (by simp [metas, control]) ?_
    intro m member
    obtain ⟨old, there, rfl⟩ := List.mem_map.mp member
    have placed := steady.placed old there
    split
    · exact ⟨placed.decor, placed.width, placed.height, placed.x, placed.y, placed.sourceX,
        placed.sourceY, placed.originX, placed.originY⟩
    · exact placed
  · rw [dragged, List.find?_eq_none]
    intro m member
    obtain ⟨old, -, rfl⟩ := List.mem_map.mp member
    split
    · simp
    · assumption

end

/-! ## Repainting -/

/-- The screen has sizes of 16 bits. -/
structure Look.Small (look : Look Ink) : Prop where
  width : look.screen.width < 2 ^ 16
  height : look.screen.height < 2 ^ 16

section

variable {look : Look Ink} {s t : System Ink} {rect : NxgiRect} {p : NxgiPoint}
  {queue : List HjMessage}

theorem clipped_iff {low high size x : Int} (nonneg : 0 ≤ size) :
    ((if (if low < 0 then 0 else low) > size then size else if low < 0 then 0 else low) ≤ x ∧
        x < if (if high < 0 then 0 else high) > size then size
          else if high < 0 then 0 else high) ↔
      (0 ≤ x ∧ x < size) ∧ low ≤ x ∧ x < high := by
  split_ifs <;> omega

/-- The clipping rectangle is the part of a rectangle that is on the screen. -/
theorem clipOf_pixels (small : look.Small) :
    p ∈ (clipOf look rect).pixels ↔ p ∈ look.screen.pixels ∧ p ∈ rect.pixels := by
  have ⟨wide, high⟩ := small
  simp only [clipOf, graphicsSetClipRect, NxgiRect.mem_pixels, NxgiBitmap.pixels,
    Set.mem_ofPred_eq, i32_of_small (show look.screen.width < 2 ^ 31 by omega),
    i32_of_small (show look.screen.height < 2 ^ 31 by omega), clipped_iff (Int.natCast_nonneg _)]
  exact and_and_and_comm

theorem nxgigRectIntersect_of_mem {r1 r2 : NxgiRect} (one : p ∈ r1.pixels) (two : p ∈ r2.pixels) :
    nxgigRectIntersect r1 r2 = true := by
  simp only [NxgiRect.mem_pixels] at one two
  simp only [nxgigRectIntersect, Bool.not_eq_true', Bool.or_eq_false_iff, decide_eq_false_iff_not]
  omega

/-- Blitting a child paints its layer. -/
theorem desktopBlitSubcontrol_eq (clip : NxgiRect) (canvas : NxgiPoint → Ink)
    (child : HjControlMeta) :
    desktopBlitSubcontrol look s clip canvas child =
      paintOn canvas (within clip.pixels (childLayer look s child)) := by
  funext p
  have blank : nxgigRectIntersect (childClient s.controls child) (childClient s.controls child) =
      false → surfaceLayer s child p = none := by
    intro apart
    apply within_of_notMem
    intro inside
    rw [nxgigRectIntersect_of_mem inside inside] at apart
    cases apart
  unfold desktopBlitSubcontrol
  by_cases inside : p ∈ clip.pixels
  · cases meets : nxgigRectIntersect (childClient s.controls child)
        (childClient s.controls child) with
    | true =>
      simp only [paintOn, within_of_mem inside, childLayer, compose_cons, compose_nil, if_true]
      cases frameLayer look s child p <;> simp
    | false =>
      simp only [paintOn, within_of_mem inside, childLayer, compose_cons, compose_nil,
        blank meets, Bool.false_eq_true, if_false]
      cases frameLayer look s child p <;> simp
  · simp only [paintOn, within_of_notMem inside, Option.getD_none]
    split
    · rw [paintOn, within_of_notMem inside, Option.getD_none]
    · rfl

/-- The loop over the children paints them in their order. -/
theorem desktopRepaintSubcontrols_eq (small : look.Small)
    (placed : ∀ m ∈ s.children, Placed s.controls m) (canvas : NxgiPoint → Ink) :
    desktopRepaintSubcontrols look s (clipOf look rect) rect canvas p =
      if p ∈ (clipOf look rect).pixels then
        (compose ((metas s.children).map (childLayer look s)) p).getD (canvas p)
      else canvas p := by
  let clip := clipOf look rect
  let meets : HjControlMeta → Bool := fun child =>
    nxgigRectIntersect (childBounds s.controls child) rect
  let layer : HjControlMeta → Layer NxgiPoint Ink := fun child =>
    within clip.pixels (childLayer look s child)
  have painted : desktopRepaintSubcontrols look s clip rect canvas =
      (((metas s.children).filter meets).map layer).foldl paintOn canvas := by
    rw [List.foldl_map, List.foldl_filter, desktopRepaintSubcontrols]
    congr 1
    funext canvas child
    rw [desktopBlitSubcontrol_eq]
  -- a child that is left out has no ink inside of the clipping rectangle
  have blank : ∀ child ∈ metas s.children, meets child = false → layer child p = none := by
    intro child member apart
    obtain ⟨m, there, rfl⟩ := List.mem_map.mp member
    by_cases inside : p ∈ clip.pixels
    · rw [show layer _ p = _ from within_of_mem inside]
      apply childLayer_none (placed m there)
      intro bounded
      have met : meets m.toHjControlMeta = true :=
        nxgigRectIntersect_of_mem bounded ((clipOf_pixels small).mp inside).2
      rw [met] at apart
      cases apart
    · exact within_of_notMem inside
  rw [painted, foldl_paintOn, compose_filter blank]
  split
  · next inside =>
    rw [compose_map_congr fun child _ => (within_of_mem inside : layer child p = _)]
  · next outside =>
    have nothing : compose ((metas s.children).map layer) p = none := by
      rw [compose_eq_none, List.forall_mem_map]
      exact fun child _ => within_of_notMem outside
    rw [nothing, Option.getD_none]

/-- Repainting a rectangle shows what there is to be seen in it, and leaves the rest. -/
theorem desktopRepaint_shown (small : look.Small)
    (placed : ∀ m ∈ s.children, Placed s.controls m) {drawTime : Layer NxgiPoint Ink}
    (silent : drawTime p = none) :
    (desktopRepaint look s rect drawTime).shown p =
      if p ∈ (clipOf look rect).pixels then (scene look s p).getD (s.shown p) else s.shown p := by
  have shown : (desktopRepaint look s rect drawTime).shown p = paintOn (paintOn
      (desktopRepaintSubcontrols look s (clipOf look rect) rect (paintOn s.shown
        (within (clipOf look rect).pixels (backgroundLayer look)))) drawTime)
      (within (clipOf look rect).pixels (pointerLayer look s.mousePos)) p := rfl
  rw [shown]
  by_cases inside : p ∈ (clipOf look rect).pixels
  · simp only [paintOn, within_of_mem inside, silent, desktopRepaintSubcontrols_eq small placed,
      if_pos inside, scene, List.cons_append, compose_append, compose_cons, compose_nil]
    cases pointerLayer look s.mousePos p <;>
      cases compose ((metas s.children).map (childLayer look s)) p <;> simp
  · simp only [paintOn, within_of_notMem inside, silent, desktopRepaintSubcontrols_eq small placed,
      if_neg inside, Option.getD_none]

end

/-! ## Messages in the queue -/

/-- The messages lead the pointer from one position to the other, and buttons are pressed where it
is. -/
def Trail : NxgiPoint → List HjMessage → NxgiPoint → Prop
  | pos, [], last => pos = last
  | pos, msg :: msgs, last =>
    if messageType msg = hjMessageMouseMoved then Trail msg.mouse msgs last
    else (messageType msg = hjMessageMouseDown → msg.mouse = pos) ∧ Trail pos msgs last

section

variable {look : Look Ink} {s t : System Ink} {queue msgs more : List HjMessage} {msg : HjMessage}
  {pos mid last : NxgiPoint}

theorem Trail.append (trail : Trail pos msgs mid) (further : Trail mid more last) :
    Trail pos (msgs ++ more) last := by
  induction msgs generalizing pos with
  | nil =>
    obtain rfl : pos = mid := trail
    exact further
  | cons msg msgs inductionHypothesis =>
    rw [Trail] at trail
    rw [List.cons_append, Trail]
    split at trail
    · next moved =>
      rw [if_pos moved]
      exact inductionHypothesis trail
    · next other =>
      rw [if_neg other]
      exact ⟨trail.1, inductionHypothesis trail.2⟩

theorem Trail.quiet (quiet : ∀ msg ∈ more, messageType msg ≠ hjMessageMouseMoved ∧
    messageType msg ≠ hjMessageMouseDown) : Trail pos more pos := by
  induction more with
  | nil => exact rfl
  | cons msg more inductionHypothesis =>
    rw [List.forall_mem_cons] at quiet
    rw [Trail, if_neg quiet.1.1]
    exact ⟨fun down => absurd down quiet.1.2, inductionHypothesis quiet.2⟩

@[simp] theorem messageType_hjMouseMessage {type : Nat} (small : type ≤ 4) (pos : NxgiPoint)
    (button : Nat) : messageType (hjMouseMessage type pos button) = type :=
  hjMouseMessage_type small pos button

/-- A position that fits is read back from a message. -/
theorem OnMessage.mouse (sent : OnMessage pos) (type button : Nat) :
    (hjMouseMessage type pos button).mouse = pos := by
  rw [HjMessage.mouse, hjMouseMessage_x, hjMouseMessage_y, NxgiPoint.mk.injEq]
  exact ⟨asU32_mod_of_fits sent.x.1 sent.x.2, asU32_mod_of_fits sent.y.1 sent.y.2⟩

/-! ### Dispatching -/

theorem dispatchMouseMessage_sizes {controls : HjControls} {children : List HjControlMeta}
    (first c : Nat) :
    ((dispatchMouseMessage first controls children msg).controls c).size =
      (controls c).size := by
  simp only [dispatchMouseMessage]
  generalize recipientLoop controls children msg.mouse children.length first (0, false) = result
  obtain ⟨hr, k, dispatched⟩ := result
  dsimp only
  split
  · rfl
  · split
    · split
      · rfl
      · simp only [hjQueueMessageTo, Function.update_apply]
        split
        · next same => rw [same]
        · rfl
    · rfl

/-- Dispatching leaves the sizes, and says that it has dispatched clicks only. -/
theorem desktopDispatchMessage_spec (s : System Ink) (msg : HjMessage) :
    ∃ hr dispatched controls, desktopDispatchMessage s msg =
        (hr, dispatched, { s with controls := controls }) ∧
      (∀ c, (controls c).size = (s.controls c).size) ∧
      (dispatched = true → messageType msg = hjMessageMouseClick ∨
        messageType msg = hjMessageMouseDblClick) := by
  unfold desktopDispatchMessage
  split
  · exact ⟨_, false, _, rfl, dispatchMouseMessage_sizes 1, by simp⟩
  · split
    · next click => exact ⟨_, _, _, rfl, dispatchMouseMessage_sizes 1, fun _ => click⟩
    · exact ⟨_, false, s.controls, rfl, fun _ => rfl, by simp⟩

theorem Placed.congr {controls controls' : HjControls} {m : HjDragMeta}
    (placed : Placed controls m) (sizes : ∀ c, (controls' c).size = (controls c).size) :
    Placed controls' m := by
  refine ⟨placed.decor, ?_, ?_, placed.x, placed.y, placed.sourceX, placed.sourceY,
    placed.originX, placed.originY⟩
  · rw [sizes]
    exact placed.width
  · rw [sizes]
    exact placed.height

theorem Steady.dispatched (steady : Steady look s queue) {controls : HjControls}
    (sizes : ∀ c, (controls c).size = (s.controls c).size) :
    Steady look { s with controls := controls } queue := by
  have seen : scene look { s with controls := controls } = scene look s :=
    scene_congr rfl sizes rfl rfl
  refine ⟨steady.pending, ?_, fun m there => (steady.placed m there).congr sizes, steady.distinct,
    steady.mouseX, steady.mouseY⟩
  rw [seen]
  exact steady.fresh

/-- What comes of a message that is not a request: the pointer is where the message says, if it is
about a movement, and the window that is dragged follows it. -/
theorem processed {drawTime : Layer NxgiPoint Ink} {hr : HResult} (steady : Steady look s queue)
    (follows : ∀ m, dragged s = some m → Follows s.mousePos m)
    (down : messageType msg = hjMessageMouseDown → msg.mouse = s.mousePos)
    (room : queue.length + 3 ≤ 511) (other : messageType msg ≠ hjMessageRepaint)
    (done : hjProcessMessage look s msg drawTime = (hr, t)) (succeeded : hr.failed = false) :
    ∃ more, Handled look s t queue more ∧
      t.mousePos = (if messageType msg = hjMessageMouseMoved then msg.mouse else s.mousePos) ∧
      ∀ m, dragged t = some m → Follows t.mousePos m := by
  obtain ⟨status, dispatched, controls, dispatch, sizes, clicks⟩ := desktopDispatchMessage_spec s msg
  have steady' := steady.dispatched sizes
  have sent : OnMessage msg.mouse := ⟨msg.mouse_range.1, msg.mouse_range.2⟩
  have unchanged : Handled look s { s with controls := controls } queue [] :=
    ⟨by simpa using steady', by simp, rfl, rfl⟩
  unfold hjProcessMessage at done
  rw [dispatch] at done
  dsimp only at done
  split at done
  · next failed =>
    obtain ⟨rfl, -⟩ := Prod.mk.inj done
    rw [failed] at succeeded
    cases succeeded
  · split at done
    · next click =>
      obtain ⟨-, rfl⟩ := Prod.mk.inj done
      have still : messageType msg ≠ hjMessageMouseMoved := by
        cases clicks click with
        | inl type => rw [type]; decide
        | inr type => rw [type]; decide
      rw [if_neg still]
      exact ⟨[], unchanged, rfl, follows⟩
    · unfold desktopMessageHandler at done
      split at done
      · next moved =>
        obtain ⟨t', more, moves, handled, there, following⟩ := mouseMove steady' room sent
        rw [moves] at done
        obtain ⟨-, rfl⟩ := Prod.mk.inj done
        refine ⟨more, ⟨handled.steady, handled.requests, handled.mousePos, handled.screenRect⟩,
          ?_, ?_⟩
        · rw [if_pos moved, there]
        · rw [there]
          exact following
      · next still =>
        rw [if_neg still]
        split at done
        · next pressed =>
          have here : msg.mouse = s.mousePos := down pressed
          obtain ⟨t', grabs, handled, there, following⟩ :=
            mouseDown steady' follows (field 8 4 msg.bytes)
          rw [here] at done
          obtain ⟨-, rfl⟩ := Prod.mk.inj (grabs.symm.trans done)
          refine ⟨[], ⟨handled.steady, handled.requests, handled.mousePos, handled.screenRect⟩,
            there, ?_⟩
          rw [there]
          exact following
        · split at done
          · obtain ⟨t', drops, handled, there, free⟩ := mouseUp steady'
            obtain ⟨-, rfl⟩ := Prod.mk.inj (drops.symm.trans done)
            refine ⟨[], ⟨handled.steady, handled.requests, handled.mousePos, handled.screenRect⟩,
              there, ?_⟩
            intro m first
            rw [free] at first
            cases first
          · obtain ⟨-, rfl⟩ := Prod.mk.inj done
            exact ⟨[], unchanged, rfl, follows⟩

theorem hjProcessMessage_repaint (drawTime : Layer NxgiPoint Ink)
    (request : messageType msg = hjMessageRepaint) :
    hjProcessMessage look s msg drawTime =
      (.sOk, desktopRepaint look s (repaintRect msg) drawTime) := by
  have dispatch : desktopDispatchMessage s msg = (.sOk, false, s) := by
    simp [desktopDispatchMessage, request]
  simp [hjProcessMessage, dispatch, HResult.failed, HResult.succeeded, desktopMessageHandler,
    request]

/-- What comes of a request: what there is to be seen in its rectangle is shown. -/
theorem repainted {drawTime : Layer NxgiPoint Ink} {hr : HResult} (small : look.Small)
    (fresh : Fresh (region look) s.shown (scene look s) (requested (msg :: queue)))
    (placed : ∀ m ∈ s.children, Placed s.controls m)
    (time : ∀ p, p ∈ drawTimeRect.pixels ∨ drawTime p = none)
    (request : messageType msg = hjMessageRepaint)
    (done : hjProcessMessage look s msg drawTime = (hr, t)) :
    ∃ shown, t = { s with shown := shown } ∧
      Fresh (region look) shown (scene look s) (requested queue) := by
  rw [hjProcessMessage_repaint drawTime request] at done
  obtain ⟨-, rfl⟩ := Prod.mk.inj done
  refine ⟨(desktopRepaint look s (repaintRect msg) drawTime).shown, rfl, ?_⟩
  have silent : ∀ p ∈ region look, drawTime p = none :=
    fun p inside => (time p).resolve_left inside.2
  refine fresh.repaint (clipOf look (repaintRect msg)).pixels ?_ ?_ ?_
  · rintro p inside ⟨asking, member, type, there⟩
    cases member with
    | head => exact .inl ((clipOf_pixels small).mpr ⟨inside.1, there⟩)
    | tail _ later => exact .inr ⟨asking, later, type, there⟩
  · intro p inside clipped ink seen
    rw [desktopRepaint_shown small placed (silent p inside), if_pos clipped, seen]
    rfl
  · intro p inside outside
    rw [desktopRepaint_shown small placed (silent p inside), if_neg outside]

end

/-! ## The invariant -/

/-- With the messages of its queue, the desktop will have its pointer where the server has it; the
screen is fresh but for the requests, the one that is handled among them; and the window that is
dragged follows the pointer. -/
structure Holds (look : Look Ink) (s : System Ink) (queue : List HjMessage) : Prop where
  pending : Pending s.hj.desktop queue
  fresh : Fresh (region look) s.shown (scene look s) (requested (s.handling.toList ++ queue))
  placed : ∀ m ∈ s.children, Placed s.controls m
  distinct : (s.children.map (·.control)).Nodup
  mouse : OnMessage s.mousePos
  trail : Trail s.mousePos (s.handling.toList ++ queue) s.hj.mousePos
  screenRect : s.hj.screenRect = ⟨0, 0, look.screen.width, look.screen.height⟩
  onScreen : OnScreen s.hj.screenRect s.hj.mousePos
  follows : ∀ m, dragged s = some m → Follows s.mousePos m

section

variable {look : Look Ink} {s t : System Ink} {queue : List HjMessage} {msg : HjMessage}

theorem Holds.steady (holds : Holds look s queue) (other : ∀ msg, s.handling = some msg →
    messageType msg ≠ hjMessageRepaint) : Steady look s queue := by
  refine ⟨holds.pending, ?_, holds.placed, holds.distinct, holds.mouse.x, holds.mouse.y⟩
  have fresh := holds.fresh
  cases busy : s.handling with
  | none => simpa [busy] using fresh
  | some msg =>
    rw [busy, Option.toList_some, List.singleton_append,
      requested_cons_of_ne (other msg busy)] at fresh
    exact fresh

/-- The queue has room for so many messages. -/
theorem room_of {control : HjControl} (pending : Pending control queue) {count : Nat}
    (room : count * sizeofHjMessage ≤ rbGetWriteSize control.messageQueue) (some : 0 < count) :
    queue.length + count ≤ 511 := by
  rw [pending.writeSize] at room
  simp only [messageQueueSize, sizeofHjMessage] at room
  omega

theorem Holds.serverMouse (holds : Holds look s queue) (small : look.Small) :
    OnMessage s.hj.mousePos := by
  have ⟨wide, high⟩ := small
  have inside := holds.onScreen
  rw [holds.screenRect] at inside
  obtain ⟨⟨_, _⟩, ⟨_, _⟩, ⟨_, _⟩, ⟨_, _⟩⟩ := inside
  dsimp only at *
  constructor <;> omega

/-- Messages that request nothing come at the end of the queue. -/
theorem Holds.queued (holds : Holds look s queue) {hj : HjServerContext} {more : List HjMessage}
    (pending : Pending hj.desktop (queue ++ more))
    (trail : Trail s.hj.mousePos more hj.mousePos)
    (screenRect : hj.screenRect = s.hj.screenRect) (onScreen : OnScreen hj.screenRect hj.mousePos) :
    Holds look { s with hj := hj } (queue ++ more) := by
  refine ⟨pending, ?_, holds.placed, holds.distinct, holds.mouse, ?_,
    screenRect.trans holds.screenRect, onScreen, holds.follows⟩
  · rw [← List.append_assoc]
    exact holds.fresh.mono fun p damaged => mem_requested_append.mpr (.inl damaged)
  · rw [← List.append_assoc]
    exact holds.trail.append trail

theorem OnScreen.clipped {screen : NxgiRect} {pos : NxgiPoint} (inside : OnScreen screen pos)
    (other : NxgiPoint) : OnScreen screen (nxgigClipPoint other screen) := by
  obtain ⟨left, right, top, bottom⟩ := inside
  have across := clampTo_inside (by omega : screen.x1 ≤ screen.x2) other.x
  have down := clampTo_inside (by omega : screen.y1 ≤ screen.y2) other.y
  exact ⟨⟨left.1, across.1⟩, ⟨across.2, right.2⟩, ⟨top.1, down.1⟩, ⟨down.2, bottom.2⟩⟩

/-- The server's step on an event. -/
theorem Holds.event (holds : Holds look s queue) (small : look.Small) (ev : DriverEvent)
    (room : queue.length < 511) :
    ∃ queue', Holds look { s with hj := henjinProcessEvent s.hj ev.record } queue' := by
  obtain ⟨desktop, pending, processed⟩ := henjinProcessEvent_eq s.hj ev holds.pending room
  rw [processed]
  have here := holds.serverMouse small
  refine ⟨_, holds.queued pending ?_ rfl ?_⟩
  · cases event : ev.event with
    | movement x y =>
      have sent : OnMessage (serverStep s.hj.screenRect s.hj.mousePos (.movement x y)).1 := by
        have ⟨wide, high⟩ := small
        have inside := OnScreen.clipped holds.onScreen
          ⟨i32 (s.hj.mousePos.x + x), i32 (s.hj.mousePos.y - y)⟩
        rw [holds.screenRect] at inside ⊢
        obtain ⟨⟨_, _⟩, ⟨_, _⟩, ⟨_, _⟩, ⟨_, _⟩⟩ := inside
        dsimp only at *
        constructor
        · show 0 ≤ (nxgigClipPoint _ _).x ∧ (nxgigClipPoint _ _).x < 2 ^ 16
          omega
        · show 0 ≤ (nxgigClipPoint _ _).y ∧ (nxgigClipPoint _ _).y < 2 ^ 16
          omega
      have moved : messageType (hjMouseMessage hjMessageMouseMoved
          (serverStep s.hj.screenRect s.hj.mousePos (.movement x y)).1 0) = hjMessageMouseMoved :=
        messageType_hjMouseMessage (by decide) _ _
      show Trail s.hj.mousePos [hjMouseMessage hjMessageMouseMoved
        (serverStep s.hj.screenRect s.hj.mousePos (.movement x y)).1 0] _
      rw [Trail, if_pos moved, sent.mouse]
      exact rfl
    | scroll amount => exact rfl
    | buttonDown button =>
      have pressed : messageType (hjMouseMessage hjMessageMouseDown s.hj.mousePos 0) =
        hjMessageMouseDown := messageType_hjMouseMessage (by decide) _ _
      show Trail s.hj.mousePos [hjMouseMessage hjMessageMouseDown s.hj.mousePos 0] s.hj.mousePos
      rw [Trail, pressed, if_neg (by decide), here.mouse]
      exact ⟨fun _ => rfl, rfl⟩
    | buttonUp button =>
      refine Trail.quiet fun msg member => ?_
      obtain rfl := List.mem_singleton.mp member
      rw [messageType_hjMouseMessage (by decide)]
      decide
  · cases ev.event with
    | movement x y => exact OnScreen.clipped holds.onScreen _
    | scroll amount => exact holds.onScreen
    | buttonDown button => exact holds.onScreen
    | buttonUp button => exact holds.onScreen

/-- A message of others. -/
theorem Holds.others (holds : Holds look s queue) (others : FromOthers msg) :
    ∃ queue', Holds look
      { s with hj := { s.hj with desktop := (hjQueueMessage s.hj.desktop msg).2 } } queue' := by
  by_cases room : queue.length < 511
  · obtain ⟨desktop, queued, pending⟩ := holds.pending.queueMessage_room msg room
    rw [queued]
    refine ⟨_, holds.queued pending (.quiet fun other member => ?_) rfl holds.onScreen⟩
    obtain rfl := List.mem_singleton.mp member
    simp only [FromOthers, List.mem_cons, not_or] at others
    exact ⟨others.1, others.2.1⟩
  · rw [holds.pending.queueMessage_full msg (by omega)]
    exact ⟨queue, holds⟩

/-- The desktop takes the first message. -/
theorem Holds.take {desktop : HjControl} (holds : Holds look s queue) (free : s.handling = none)
    (got : hjGetMessage s.hj.desktop = (.sOk, msg.bytes, desktop)) :
    ∃ queue', Holds look
      { s with hj := { s.hj with desktop := desktop }, handling := some msg } queue' := by
  obtain ⟨pending, fresh, placed, distinct, mouse, trail, screenRect, onScreen, follows⟩ := holds
  rw [free, Option.toList_none, List.nil_append] at fresh trail
  cases queue with
  | nil =>
    rw [pending.getMessage_nil] at got
    cases got
  | cons first queue =>
    obtain ⟨desktop', got', pending'⟩ := pending.getMessage_cons
    obtain ⟨same, rfl⟩ := Prod.mk.inj (Prod.mk.inj (got'.symm.trans got)).2
    obtain rfl : first = msg := by
      cases first
      cases msg
      simpa using same
    exact ⟨queue, pending', fresh, placed, distinct, mouse, trail, screenRect, onScreen, follows⟩

/-- The desktop handles a message. -/
theorem Holds.handle {drawTime : Layer NxgiPoint Ink} {hr : HResult} (holds : Holds look s queue)
    (small : look.Small) (busy : s.handling = some msg) (room : queue.length + 3 ≤ 511)
    (time : ∀ p, p ∈ drawTimeRect.pixels ∨ drawTime p = none)
    (done : hjProcessMessage look s msg drawTime = (hr, t)) (succeeded : hr.failed = false) :
    ∃ queue', Holds look { t with handling := none } queue' := by
  have trail := holds.trail
  rw [busy, Option.toList_some, List.singleton_append, Trail] at trail
  by_cases request : messageType msg = hjMessageRepaint
  · have fresh := holds.fresh
    rw [busy, Option.toList_some, List.singleton_append] at fresh
    obtain ⟨shown, rfl, fresh⟩ := repainted small fresh holds.placed time request done
    rw [request, if_neg (by decide)] at trail
    exact ⟨queue, holds.pending, fresh, holds.placed, holds.distinct, holds.mouse, trail.2,
      holds.screenRect, holds.onScreen, holds.follows⟩
  · have steady : Steady look s queue := holds.steady fun other there => by
      obtain rfl : msg = other := Option.some.inj (busy.symm.trans there)
      exact request
    have down : messageType msg = hjMessageMouseDown → msg.mouse = s.mousePos := by
      intro pressed
      rw [pressed, if_neg (by decide)] at trail
      exact trail.1 rfl
    obtain ⟨more, handled, there, follows⟩ :=
      processed steady holds.follows down room request done succeeded
    have quiet : Trail s.hj.mousePos more s.hj.mousePos := Trail.quiet fun msg member => by
      rw [handled.requests msg member]
      decide
    have rest : Trail t.mousePos queue s.hj.mousePos := by
      rw [there]
      split at trail
      · next moved =>
        rw [if_pos moved]
        exact trail
      · next still =>
        rw [if_neg still]
        exact trail.2
    obtain ⟨pending, fresh, placed, distinct, mouseX, mouseY⟩ := handled.steady
    refine ⟨queue ++ more, pending, fresh, placed, distinct, ⟨mouseX, mouseY⟩, ?_, ?_, ?_, follows⟩
    · show Trail t.mousePos (queue ++ more) t.hj.mousePos
      rw [handled.mousePos]
      exact rest.append quiet
    · exact handled.screenRect.trans holds.screenRect
    · show OnScreen t.hj.screenRect t.hj.mousePos
      rw [handled.mousePos, handled.screenRect]
      exact holds.onScreen

theorem nxgigRectOffset_eq {rect : NxgiRect} {vector : NxgiPoint} (near : Near rect)
    (x : -2 ^ 21 ≤ vector.x ∧ vector.x ≤ 2 ^ 21) (y : -2 ^ 21 ≤ vector.y ∧ vector.y ≤ 2 ^ 21) :
    nxgigRectOffset rect vector = ⟨rect.x1 + vector.x, rect.y1 + vector.y, rect.x2 + vector.x,
      rect.y2 + vector.y⟩ ∧ Int32s (nxgigRectOffset rect vector) := by
  obtain ⟨⟨_, _⟩, ⟨_, _⟩, ⟨_, _⟩, ⟨_, _⟩⟩ := near
  have sums : nxgigRectOffset rect vector = ⟨rect.x1 + vector.x, rect.y1 + vector.y,
      rect.x2 + vector.x, rect.y2 + vector.y⟩ := by
    simp only [nxgigRectOffset, nxgigPointAdd, NxgiRect.ofPoints, NxgiRect.p1, NxgiRect.p2]
    rw [i32_of_range (by omega) (by omega), i32_of_range (by omega) (by omega),
      i32_of_range (by omega) (by omega), i32_of_range (by omega) (by omega)]
  refine ⟨sums, ?_⟩
  rw [sums]
  constructor <;> dsimp only <;> omega

/-- The pixel of its surface that a child has at a point of the screen. -/
def surfaceAt (surface : Nat → NxgiPoint → Option Ink) (controls : HjControls)
    (child : HjControlMeta) (p : NxgiPoint) : Option Ink :=
  surface child.control ⟨p.x - (childClient controls child).x1, p.y - (childClient controls child).y1⟩

theorem surfaceLayer_of_mem {child : HjControlMeta} {p : NxgiPoint}
    (inside : p ∈ (childClient s.controls child).pixels) :
    surfaceLayer s child p = surfaceAt s.surface s.controls child p := if_pos inside

theorem surfaceLayer_of_notMem {child : HjControlMeta} {p : NxgiPoint}
    (outside : p ∉ (childClient s.controls child).pixels) : surfaceLayer s child p = none :=
  if_neg outside

/-- A surface that changes makes a difference where it changes. -/
theorem scene_surface {surface : Nat → NxgiPoint → Option Ink} {p : NxgiPoint}
    (same : ∀ m ∈ s.children, p ∈ (childClient s.controls m.toHjControlMeta).pixels →
      surfaceAt surface s.controls m.toHjControlMeta p =
        surfaceAt s.surface s.controls m.toHjControlMeta p) :
    scene look { s with surface := surface } p = scene look s p := by
  let t := { s with surface := surface }
  have layers : compose ((metas s.children).map (childLayer look t)) p =
      compose ((metas s.children).map (childLayer look s)) p := by
    refine compose_map_congr fun child member => ?_
    obtain ⟨m, there, rfl⟩ := List.mem_map.mp member
    have surfaces : surfaceLayer t m.toHjControlMeta p = surfaceLayer s m.toHjControlMeta p := by
      by_cases inside : p ∈ (childClient s.controls m.toHjControlMeta).pixels
      · rw [surfaceLayer_of_mem inside]
        exact (surfaceLayer_of_mem (s := t) inside).trans (same m there inside)
      · rw [surfaceLayer_of_notMem inside]
        exact surfaceLayer_of_notMem (s := t) inside
    have frames : frameLayer look t m.toHjControlMeta = frameLayer look s m.toHjControlMeta := rfl
    simp only [childLayer, compose_cons, compose_nil, surfaces, frames]
  have seen : scene look t p = scene look s p := by
    simp only [scene, List.cons_append, compose_append, compose_cons, t] at layers ⊢
    rw [layers]
  exact seen

/-- A child that reports what it has drawn has it repainted. -/
theorem Holds.draw {surface : Nat → NxgiPoint → Option Ink} {control : Nat}
    {dirtyRect : Option NxgiRect} (holds : Holds look s queue)
    (near : ∀ rect ∈ dirtyRect, Near rect)
    (drawn : ∀ c p, c = control ∧ p ∈ (feedbackRect s.controls control dirtyRect).pixels ∨
      surface c p = s.surface c p)
    (reported : hjControlRequestParentRepaint { s with surface := surface } control dirtyRect =
      (.sOk, t)) :
    ∃ queue', Holds look t queue' := by
  unfold hjControlRequestParentRepaint desktopReceiveFeedback at reported
  cases found : hjChildFind s.children control with
  | none =>
    rw [show hjChildFind ({ s with surface := surface } : System Ink).children control = none
      from found] at reported
    cases reported
  | some i =>
    rw [show hjChildFind ({ s with surface := surface } : System Ink).children control = some i
      from found] at reported
    dsimp only at reported
    obtain ⟨below, is, -⟩ := List.findIdx?_eq_some_iff_getElem.mp found
    have there : s.children[i]? = some s.children[i] := List.getElem?_eq_getElem below
    have control_eq : s.children[i].control = control := by simpa using is
    have placed := holds.placed _ (List.getElem_mem below)
    rw [hjGetChildClientrect_eq there] at reported
    generalize s.children[i] = child at *
    subst control_eq
    have near : Near (feedbackRect s.controls child.control dirtyRect) := by
      cases dirtyRect with
      | none =>
        have wide := placed.width
        have high := placed.height
        constructor <;> simp only [feedbackRect, Option.getD_none, hjControlGetSize] <;> omega
      | some rect => exact near rect rfl
    obtain ⟨dx, dy, width, height, left, top, right, bottom, -, client⟩ := placed.rects
    have x := placed.x
    have y := placed.y
    generalize feedbackRect s.controls child.control dirtyRect = rect at *
    obtain ⟨sums, int32s⟩ := @nxgigRectOffset_eq rect
      (childClient s.controls child.toHjControlMeta).p1 near
      (by rw [client, NxgiRect.p1]; dsimp only; omega)
      (by rw [client, NxgiRect.p1]; dsimp only; omega)
    by_cases room : queue.length < 511
    · have pending : Pending ({ s with surface := surface } : System Ink).hj.desktop queue :=
        holds.pending
      obtain ⟨desktop, queued, pending⟩ := hjControlInvalidateRect_eq pending room
        (nxgigRectOffset rect (childClient s.controls child.toHjControlMeta).p1)
      obtain ⟨-, rfl⟩ := Prod.mk.inj (queued.symm.trans reported)
      refine ⟨_, pending, ?_, holds.placed, holds.distinct, holds.mouse, ?_, holds.screenRect,
        holds.onScreen, holds.follows⟩
      · rw [← List.append_assoc]
        refine holds.fresh.change (fun p damaged => mem_requested_append.mpr (.inl damaged)) ?_
        intro p _ undamaged
        show scene look { s with surface := surface } p = scene look s p
        refine scene_surface fun m member _ => ?_
        cases drawn m.control _ with
        | inr same => exact same
        | inl inside =>
          -- the controls are distinct, so it is this child, and the point is in the request
          obtain rfl : m = child := List.inj_on_of_nodup_map holds.distinct member
            (List.mem_of_getElem? there) inside.1
          refine absurd (mem_requested_append.mpr (.inr (mem_requested_repaint int32s ?_)))
            undamaged
          have drawn := inside.2
          rw [sums]
          simp only [NxgiRect.mem_pixels, NxgiRect.p1] at drawn ⊢
          omega
      · rw [← List.append_assoc]
        refine holds.trail.append (.quiet fun msg member => ?_)
        obtain rfl := List.mem_singleton.mp member
        rw [messageType_hjRepaintMessage]
        decide
    · have full := holds.pending.queueMessage_full (hjRepaintMessage
        (nxgigRectOffset rect (childClient s.controls child.toHjControlMeta).p1) 0) (by omega)
      have refused := congrArg Prod.fst reported
      simp only [hjControlInvalidateRect, full] at refused
      cases refused

theorem Holds.step (holds : Holds look s queue) (small : look.Small) {op : Unit}
    (step : Step look s op t) : ∃ queue', Holds look t queue' := by
  cases step with
  | event ev room =>
    have some := @room_of queue _ holds.pending 1 (by simpa using room) (by decide)
    exact holds.event small ev (by omega)
  | queue msg others => exact holds.others others
  | draw control dirtyRect near drawn reported => exact holds.draw near drawn reported
  | take free got => exact holds.take free got
  | handle busy room time done succeeded =>
    exact holds.handle small busy (room_of holds.pending room (by decide)) time done succeeded

end

/-! ## The screen -/

/-- The server and the desktop after a resolution was set: all of the screen is to be repainted, and
no window is dragged. -/
structure Started (look : Look Ink) (s : System Ink) : Prop where
  small : look.Small
  queue : Pending s.hj.desktop
    [hjRepaintMessage ⟨0, 0, look.screen.width, look.screen.height⟩ 0]
  handling : s.handling = none
  mousePos : s.mousePos = s.hj.mousePos
  screenRect : s.hj.screenRect = ⟨0, 0, look.screen.width, look.screen.height⟩
  onScreen : OnScreen s.hj.screenRect s.hj.mousePos
  placed : ∀ m ∈ s.children, Placed s.controls m
  distinct : (s.children.map (·.control)).Nodup
  free : dragged s = none

theorem Started.holds {look : Look Ink} {s : System Ink} (started : Started look s) :
    Holds look s [hjRepaintMessage ⟨0, 0, look.screen.width, look.screen.height⟩ 0] := by
  obtain ⟨small, queue, handling, mousePos, screenRect, onScreen, placed, distinct, free⟩ := started
  have ⟨wide, high⟩ := small
  have inside := onScreen
  rw [screenRect, ← mousePos] at inside
  obtain ⟨⟨_, _⟩, ⟨_, _⟩, ⟨_, _⟩, ⟨_, _⟩⟩ := inside
  dsimp only at *
  refine ⟨queue, ?_, placed, distinct, ⟨by omega, by omega⟩, ?_, screenRect, onScreen, ?_⟩
  · rintro p ⟨inside, -⟩ undamaged
    rw [handling, Option.toList_none, List.nil_append] at undamaged
    refine absurd (mem_requested_repaint ?_ ?_) undamaged
    · constructor <;> dsimp only <;> omega
    · exact inside
  · rw [handling, Option.toList_none, List.nil_append, mousePos]
    refine .quiet fun msg member => ?_
    obtain rfl := List.mem_singleton.mp member
    rw [messageType_hjRepaintMessage]
    decide
  · intro m first
    rw [free] at first
    cases first

end Antonix.Henjin.Damage
