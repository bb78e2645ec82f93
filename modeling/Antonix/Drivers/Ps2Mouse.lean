import Antonix.Types
import Mathlib.Data.List.Nodup

/-! # The PS/2 mouse driver (`ps2mouse.c`)

The interrupt handler collects three bytes into a packet, turns the packet into
events by comparing it with the state of the buttons, and hands every event to
every registered callback.

A callback is a routine with its user pointer, a value of a type `κ`.  What the
driver does to the callbacks is a log of invocations, in order. -/

namespace Antonix

/-- `K_MOUSE_BUTTON` -/
inductive MouseButton where
  | left
  | right
  | middle
  | button4
  | button5
  deriving DecidableEq, Repr

/-- The buttons from `MOUSE_BUTTON_LEFT` to `MOUSE_BUTTON_5`. -/
def MouseButton.all : List MouseButton := [.left, .right, .middle, .button4, .button5]

theorem MouseButton.mem_all (button : MouseButton) : button ∈ all := by
  cases button <;> decide

/-- `K_MOUSE_EVENT` -/
inductive MouseEvent where
  | movement (x y : Int)
  | scroll (amount : Int)
  | buttonDown (button : MouseButton)
  | buttonUp (button : MouseButton)
  deriving DecidableEq, Repr

/-- `MOUSE_MAX_CB_COUNT` -/
abbrev mouseMaxCbCount : Nat := 32

variable {κ : Type}

/-- `cb_list` with `cb_user_list`, up to `cb_count`. -/
structure MouseCallbacks (κ : Type) where
  cbList : List κ
  distinct : cbList.Nodup
  bounded : cbList.length ≤ mouseMaxCbCount

/-- `mouse_register_cb` -/
def mouseRegisterCb [DecidableEq κ] (callbacks : MouseCallbacks κ) (cb : κ) :
    HResult × MouseCallbacks κ :=
  if full : mouseMaxCbCount ≤ callbacks.cbList.length then (.eFail, callbacks)
  else if known : cb ∈ callbacks.cbList then (.eInvalidArg, callbacks)
  else
    (.sOk,
      { cbList := callbacks.cbList ++ [cb]
        distinct := by simpa using callbacks.distinct.concat known
        bounded := by simp only [List.length_append, List.length_singleton]; omega })

/-- `mouse_unregister_cb` -/
def mouseUnregisterCb [DecidableEq κ] (callbacks : MouseCallbacks κ) (cb : κ) :
    HResult × MouseCallbacks κ :=
  if cb ∈ callbacks.cbList then
    (.sOk,
      { cbList := callbacks.cbList.erase cb
        distinct := callbacks.distinct.erase cb
        bounded := Nat.le_trans List.length_erase_le callbacks.bounded })
  else (.eNotFound, callbacks)

/-- `PS2MOUSE_DRV_CONTEXT`.  The fourth byte of `packet` is not used. -/
structure Ps2MouseDrvContext (κ : Type) where
  readCounter : Nat
  packet : Nat → BitVec 8
  buttonState : MouseButton → Bool
  callbacks : MouseCallbacks κ

/-- `mouse_decode_packet`: the two movements and the states of the buttons. -/
def mouseDecodePacket (packet : Nat → BitVec 8) (size : Nat) :
    Int × Int × (MouseButton → Bool) :=
  if size ≠ 3 then (0, 0, fun _ => false)
  else
    let xMovement : Int :=
      if (packet 0 >>> 4) &&& 1#8 ≠ 0#8 then (packet 1).toNat - 256 else (packet 1).toNat
    let yMovement : Int :=
      if (packet 0 >>> 5) &&& 1#8 ≠ 0#8 then (packet 2).toNat - 256 else (packet 2).toNat
    (xMovement, yMovement, fun
      | .left => packet 0 &&& 1#8 ≠ 0#8
      | .right => (packet 0 >>> 1) &&& 1#8 ≠ 0#8
      | .middle => (packet 0 >>> 2) &&& 1#8 ≠ 0#8
      | .button4 => false
      | .button5 => false)

/-- `mouse_emit_event`: its status and the invocations it makes. -/
def mouseEmitEvent (callbacks : MouseCallbacks κ) (event : MouseEvent) :
    HResult × List (κ × MouseEvent) :=
  (.sOk, callbacks.cbList.map fun cb => (cb, event))

/-- The loop of `mouse_parse_packet` over the buttons. -/
def mouseButtonLoop (context : Ps2MouseDrvContext κ) (newStates : MouseButton → Bool) :
    List MouseButton → HResult × List (κ × MouseEvent)
  | [] => (.sOk, [])
  | button :: buttons =>
    if context.buttonState button ≠ newStates button then
      let event := if newStates button then .buttonDown button else .buttonUp button
      let emitted := mouseEmitEvent context.callbacks event
      if emitted.1.failed then emitted
      else
        let rest := mouseButtonLoop context newStates buttons
        (rest.1, emitted.2 ++ rest.2)
    else mouseButtonLoop context newStates buttons

/-- `mouse_parse_packet` -/
def mouseParsePacket (context : Ps2MouseDrvContext κ) (packet : Nat → BitVec 8) (size : Nat) :
    HResult × List (κ × MouseEvent) :=
  let (xm, ym, newStates) := mouseDecodePacket packet size
  let buttons := mouseButtonLoop context newStates MouseButton.all
  if buttons.1.failed then buttons
  else if xm ≠ 0 ∨ ym ≠ 0 then
    let moved := mouseEmitEvent context.callbacks (.movement xm ym)
    if moved.1.failed then (moved.1, buttons.2 ++ moved.2)
    else (.sOk, buttons.2 ++ moved.2)
  else (.sOk, buttons.2)

/-- What the two ports read when the interrupt comes: the status byte and the data byte. -/
structure MouseRead where
  status : BitVec 8
  data : BitVec 8

/-- Reads that find bit 5 of the status set: the byte comes from the mouse. -/
abbrev MouseByte : Type := {read : MouseRead // read.status &&& 0x20#8 ≠ 0#8}

/-- The end of `mouse_isr`, where the packet has taken the byte. -/
def mouseIsrTail (context : Ps2MouseDrvContext κ) :
    Except Halt (Ps2MouseDrvContext κ × List (κ × MouseEvent)) :=
  if context.readCounter = 2 then
    let parsed := mouseParsePacket context context.packet 3
    if parsed.1.failed then .error (.panic "mouse_isr(): Unable to parse mouse packet.")
    else
      .ok ({ context with
        buttonState := (mouseDecodePacket context.packet 3).2.2
        readCounter := (context.readCounter + 1) % 3 }, parsed.2)
  else .ok ({ context with readCounter := (context.readCounter + 1) % 3 }, [])

/-- `mouse_isr` -/
def mouseIsr (context : Ps2MouseDrvContext κ) (read : MouseRead) :
    Except Halt (Ps2MouseDrvContext κ × List (κ × MouseEvent)) :=
  if read.status &&& 0x20#8 = 0#8 then .error (.panic "mouse_isr(): Unexpected")
  else
    let stored :=
      { context with packet := Function.update context.packet context.readCounter read.data }
    match context.readCounter with
    | 0 => if read.data &&& 0x08#8 = 0#8 then .ok (context, []) else mouseIsrTail stored
    | 1 | 2 => mouseIsrTail stored
    | _ => .error (.panic "PS/2 Mouse: mouse_isr(): unexpected read counter value.")

/-- The context that `mouse_init` sets up, with the callbacks registered since. -/
def mouseInitContext (callbacks : MouseCallbacks κ) : Ps2MouseDrvContext κ where
  readCounter := 0
  packet := fun _ => 0#8
  buttonState := fun _ => false
  callbacks := callbacks

end Antonix
