import Antonix.Drivers.Ps2Mouse
import Antonix.Henjin.MessageQueue
import Antonix.Lib.LittleEndian
import Antonix.Nxgi.Geometry

/-! # Mouse events of the display server (`henjin.c`)

The mouse driver's events wait in a ring buffer; the server loop turns each into
a message for the desktop and keeps the position of the pointer.  An event and a
message are records of bytes on their way. -/

namespace Antonix.Henjin

open LittleEndian Ring

/-! ## Records -/

/-- The values of `K_MOUSE_EVENT_TYPE`. -/
abbrev mouseEventMovement : Nat := 0
abbrev mouseEventScroll : Nat := 1
abbrev mouseEventButtonDown : Nat := 2
abbrev mouseEventButtonUp : Nat := 3

/-- The values of `HJ_MESSAGE_TYPE` for the mouse. -/
abbrev hjMessageMouseMoved : Nat := 0
abbrev hjMessageMouseDown : Nat := 3
abbrev hjMessageMouseUp : Nat := 4

/-- The value of a button in `K_MOUSE_BUTTON`, and in `HJ_MOUSE_BUTTON`. -/
def buttonValue : MouseButton → Nat
  | .left => 0
  | .right => 1
  | .middle => 2
  | .button4 => 3
  | .button5 => 4

/-- `K_MOUSE_EVENT` in memory: the type and the two words of the union. -/
structure MouseRecord where
  type : Nat
  first : Nat
  second : Nat

/-- `sizeof(K_MOUSE_EVENT)` -/
abbrev sizeofMouseEvent : Nat := 12

def MouseRecord.bytes (ev : MouseRecord) : List (BitVec 8) :=
  bytesOf 4 ev.type ++ (bytesOf 4 ev.first ++ (bytesOf 4 ev.second ++ []))

def MouseRecord.load (bytes : List (BitVec 8)) : MouseRecord where
  type := field 0 4 bytes
  first := field 4 4 bytes
  second := field 8 4 bytes

/-- The movements are `int16_t`, as the mouse driver computes them. -/
def SmallMovement (event : MouseEvent) : Prop :=
  ∀ x y, event = .movement x y → -2 ^ 15 ≤ x ∧ x < 2 ^ 15 ∧ -2 ^ 15 ≤ y ∧ y < 2 ^ 15

/-- An event of the mouse driver.  `stale` is what the second word of the union held where the
event does not use it. -/
structure DriverEvent where
  event : MouseEvent
  stale : BitVec 32
  small : SmallMovement event

/-- The members that the driver sets. -/
def recordOf (stale : BitVec 32) : MouseEvent → MouseRecord
  | .movement x y => ⟨mouseEventMovement, asU32 x, asU32 y⟩
  | .scroll amount => ⟨mouseEventScroll, asU32 amount, stale.toNat⟩
  | .buttonDown button => ⟨mouseEventButtonDown, buttonValue button, stale.toNat⟩
  | .buttonUp button => ⟨mouseEventButtonUp, buttonValue button, stale.toNat⟩

def DriverEvent.record (ev : DriverEvent) : MouseRecord := recordOf ev.stale ev.event

/-- A message that was cleared and then given a type and the fields of `mouse`. -/
def hjMouseMessage (type : Nat) (pos : NxgiPoint) (button : Nat) : HjMessage where
  bytes := bytesOf 4 type ++ (bytesOf 2 (asU32 pos.x) ++ (bytesOf 2 (asU32 pos.y) ++
    (bytesOf 4 button ++ List.replicate 12 0#8)))
  size := by simp

/-! ## The server -/

/-- `HJ_SERVER_CONTEXT`, the part that handles the mouse; `desktop` is the desktop's control. -/
structure HjServerContext where
  mouseDriverEvents : RingBuffer
  mousePos : NxgiPoint
  screenRect : NxgiRect
  desktop : HjControl

/-- What `henjin_set_resolution` does to the server once the mode is set. -/
def henjinScreen (hj : HjServerContext) (width height : Nat) : HjServerContext :=
  let screenRect : NxgiRect := ⟨0, 0, i32 width, i32 height⟩
  { hj with
    screenRect := screenRect
    mousePos := nxgigClipPoint hj.mousePos screenRect }

/-- `henjin_mouse_driver_callback` -/
def henjinMouseDriverCallback (ev : MouseRecord) (rb : RingBuffer) : HResult × RingBuffer :=
  (.sOk, (rbWrite rb ev.bytes).2)

/-- The `switch` in the loop of `henjin_process_mouse_events`. -/
def henjinProcessEvent (hj : HjServerContext) (ev : MouseRecord) : HjServerContext :=
  if ev.type = mouseEventMovement then
    let pos : NxgiPoint :=
      { x := i32 (hj.mousePos.x + i32 ev.first)
        y := i32 (hj.mousePos.y - i32 ev.second) }
    let pos := nxgigClipPoint pos hj.screenRect
    { hj with
      mousePos := pos
      desktop := (hjQueueMessage hj.desktop (hjMouseMessage hjMessageMouseMoved pos 0)).2 }
  else if ev.type = mouseEventButtonUp then
    let msg := hjMouseMessage hjMessageMouseUp hj.mousePos ev.first
    { hj with desktop := (hjQueueMessage hj.desktop msg).2 }
  else if ev.type = mouseEventButtonDown then
    -- the button is not filled in
    let msg := hjMouseMessage hjMessageMouseDown hj.mousePos 0
    { hj with desktop := (hjQueueMessage hj.desktop msg).2 }
  else hj

/-- `henjin_process_mouse_events`, as many passes of its loop as `passes` allows. -/
def henjinProcessMouseEvents : Nat → HjServerContext → HResult × HjServerContext
  | 0, hj => (.sOk, hj)
  | passes + 1, hj =>
    if rbGetReadSize hj.mouseDriverEvents < sizeofMouseEvent then (.sOk, hj)
    else
      let (hr, ev, rb) := rbRead hj.mouseDriverEvents sizeofMouseEvent
      let hj := { hj with mouseDriverEvents := rb }
      if hr.failed then (hr, hj)
      else henjinProcessMouseEvents passes (henjinProcessEvent hj (MouseRecord.load ev))

/-! ## Records and their fields -/

theorem buttonValue_lt (button : MouseButton) : buttonValue button < 5 := by
  cases button <;> decide

theorem buttonValue_eq_zero_iff (button : MouseButton) :
    buttonValue button = 0 ↔ button = .left := by
  cases button <;> simp [buttonValue]

/-- The words of the record are words. -/
structure MouseRecord.Words (ev : MouseRecord) : Prop where
  type : ev.type < 2 ^ 32
  first : ev.first < 2 ^ 32
  second : ev.second < 2 ^ 32

theorem MouseRecord.length_bytes (ev : MouseRecord) : ev.bytes.length = sizeofMouseEvent := by
  simp [bytes]

theorem MouseRecord.load_bytes {ev : MouseRecord} (words : ev.Words) : load ev.bytes = ev := by
  have type : field 0 4 ev.bytes = ev.type := by
    rw [bytes, field_here]
    exact Nat.mod_eq_of_lt words.type
  have first : field 4 4 ev.bytes = ev.first := by
    rw [bytes, field_skip 4 0, field_here]
    exact Nat.mod_eq_of_lt words.first
  have second : field 8 4 ev.bytes = ev.second := by
    rw [bytes, field_skip 4 4, field_skip 4 0, field_here]
    exact Nat.mod_eq_of_lt words.second
  rw [load, type, first, second]

theorem recordOf_words (stale : BitVec 32) (event : MouseEvent) :
    (recordOf stale event).Words := by
  have stale_lt := stale.isLt
  have typeFits (type : Nat) (small : type ≤ 3) : type < 2 ^ 32 := by omega
  have valueFits (button : MouseButton) : buttonValue button < 2 ^ 32 := by
    have := buttonValue_lt button
    omega
  cases event with
  | movement x y => exact ⟨typeFits 0 (by decide), asU32_lt x, asU32_lt y⟩
  | scroll amount => exact ⟨typeFits 1 (by decide), asU32_lt amount, stale_lt⟩
  | buttonDown button => exact ⟨typeFits 2 (by decide), valueFits button, stale_lt⟩
  | buttonUp button => exact ⟨typeFits 3 (by decide), valueFits button, stale_lt⟩

theorem DriverEvent.words (ev : DriverEvent) : ev.record.Words := recordOf_words ev.stale ev.event

/-! What the desktop reads in a message. -/

theorem hjMouseMessage_type {type : Nat} (small : type ≤ 4) (pos : NxgiPoint) (button : Nat) :
    field 0 4 (hjMouseMessage type pos button).bytes = type := by
  rw [hjMouseMessage, field_here]
  exact Nat.mod_eq_of_lt (by omega)

theorem hjMouseMessage_x (type : Nat) (pos : NxgiPoint) (button : Nat) :
    field 4 2 (hjMouseMessage type pos button).bytes = asU32 pos.x % 256 ^ 2 := by
  rw [hjMouseMessage, field_skip 4 0, field_here]

theorem hjMouseMessage_y (type : Nat) (pos : NxgiPoint) (button : Nat) :
    field 6 2 (hjMouseMessage type pos button).bytes = asU32 pos.y % 256 ^ 2 := by
  rw [hjMouseMessage, field_skip 4 2, field_skip 2 0, field_here]

theorem hjMouseMessage_button {button : Nat} (small : button < 5) (type : Nat)
    (pos : NxgiPoint) : field 8 4 (hjMouseMessage type pos button).bytes = button := by
  rw [hjMouseMessage, field_skip 4 4, field_skip 2 2, field_skip 2 0, field_here]
  exact Nat.mod_eq_of_lt (by omega)

end Antonix.Henjin
