import Antonix.Lib.Bitmap
import Antonix.Types

/-! # Interrupt callbacks and IRQ lines (`desctables.c`)

One callback for each interrupt id, and the mask registers of the two interrupt
controllers: a set bit masks the line.  Lines 0 to 7 belong to the first
controller and lines 8 to 15 to the second, which raises its requests through
line 2 of the first.

Handlers are values of a type `κ`; `NULL` is `none`. -/

namespace Antonix

/-- `INVALID_IRQ_LINE` -/
abbrev invalidIrqLine : Nat := 0xFFFFFFFF

abbrev irq0IntId : Nat := 32
abbrev irq8IntId : Nat := 40
abbrev irq15IntId : Nat := 47

/-- `isr_callbacks` and what the data ports of the two controllers read. -/
structure IsrState (κ : Type) where
  isrCallbacks : Nat → Option κ
  pic1Data : BitVec 8
  pic2Data : BitVec 8

/-- The value of an expression converted to `BYTE`. -/
def asByte (x : Nat) : Nat := x % 256

/-- `irq_to_intid` -/
def irqToIntid (irqId : Nat) : Nat :=
  if 15 < irqId then 0xFFFFFFFF
  else if irqId < 8 then irq0IntId + irqId
  else irq8IntId + (irqId - 8)

/-- `intid_to_irq` -/
def intidToIrq (intId : Nat) : Nat :=
  if irq0IntId ≤ intId ∧ intId ≤ irq15IntId then intId - irq0IntId else invalidIrqLine

variable {κ : Type}

/-- `irq_enable` -/
def irqEnable (state : IsrState κ) (irqId : Nat) : HResult × IsrState κ :=
  if 15 < irqId then (.eInvalidArg, state)
  else if irqId < 8 then
    (.sOk, { state with pic1Data := state.pic1Data &&& ~~~(1#8 <<< irqId) })
  else
    (.sOk, { state with pic2Data := state.pic2Data &&& ~~~(1#8 <<< (irqId - 8)) })

/-- `irq_disable` -/
def irqDisable (state : IsrState κ) (irqId : Nat) : HResult × IsrState κ :=
  if 15 < irqId then (.eInvalidArg, state)
  else if irqId < 8 then
    (.sOk, { state with pic1Data := state.pic1Data ||| (1#8 <<< irqId) })
  else
    (.sOk, { state with pic2Data := state.pic2Data ||| (1#8 <<< (irqId - 8)) })

/-- `irq_disable_all` -/
def irqDisableAll (state : IsrState κ) : HResult × IsrState κ :=
  (.sOk, { state with pic1Data := 0xFF#8, pic2Data := 0xFF#8 })

/-- `register_isr_callback` -/
def registerIsrCallback (state : IsrState κ) (intId : Nat) (callback : Option κ) :
    HResult × IsrState κ :=
  if 256 ≤ intId then (.eInvalidArg, state)
  else
    let state :=
      { state with isrCallbacks := Function.update state.isrCallbacks intId callback }
    if intidToIrq intId ≠ invalidIrqLine then
      (.sOk, (irqEnable state (asByte (intidToIrq intId))).2)
    else (.sOk, state)

/-- `unregister_isr_callback`.  The line that is disabled is the truth value of
`intid_to_irq(int_id) != INVALID_IRQ_LINE`. -/
def unregisterIsrCallback (state : IsrState κ) (intId : Nat) : HResult × IsrState κ :=
  let state :=
    if intidToIrq intId ≠ 0 then
      (irqDisable state (if intidToIrq intId ≠ invalidIrqLine then 1 else 0)).2
    else state
  registerIsrCallback state intId none

/-- What `idt_initialize` does to the callbacks and the lines.  `gpf` is
`exception_handler_gpf`. -/
def idtInitialize (state : IsrState κ) (gpf : κ) : IsrState κ :=
  let state := (irqDisableAll state).2
  let state := (irqEnable state 2).2
  let state := { state with isrCallbacks := fun _ => none }
  (registerIsrCallback state 0xD (some gpf)).2

/-- The command ports that `pic_send_eoi` writes `PIC_EOI` to. -/
def picSendEoi (irq : Nat) : List Nat :=
  if 8 ≤ irq then [0xA0, 0x20] else [0x20]

/-- `irq_handler_gateway`: the command ports that are told the end of the interrupt, and the
handler that is invoked.  `irr` is the byte read from port `0x20` when the interrupt may be
spurious.  The text of the panic is the format string that is printed. -/
def irqHandlerGateway (state : IsrState κ) (intNo irr : Nat) :
    Except Halt (List Nat × Option κ) :=
  let irqId := intidToIrq intNo
  if intNo = 0x27 ∧ irr &&& 0x80 = 0 then .ok ([], none)
  else
    match state.isrCallbacks intNo with
    | some handler => .ok (picSendEoi (asByte irqId), some handler)
    | none => .error (.panic "Unhandled IRQ (int_id= %x; dec= %d)\n")

end Antonix
