import Antonix.Lib.Buffer
import Antonix.Types

/-! # The text terminal (`vga.c`)

The screen has 80x25 cells, kept twice: in video memory and in a copy that is read
when the screen scrolls.  A store outside of them is `stuck`.  A string is the list of
its characters before the terminator.  The spinlock of `vga_print` is left out: it
keeps interrupts off. -/

namespace Antonix.Vga

structure Terminal where
  /-- `term_buff` -/
  termBuff : Nat → BitVec 16
  /-- `term_buff_sw` -/
  termBuffSw : Nat → BitVec 16
  /-- `term_pointer` -/
  termPointer : Nat
  /-- `term_cursor_update_cntr` -/
  cursorUpdateCntr : Int
  /-- `term_fg` and `term_bg` -/
  termFg : Nat
  termBg : Nat
  /-- The position that the VGA board holds in its two cursor registers. -/
  cursor : Nat

/-- `vga_make_color` -/
def vgaMakeColor (fg bg : Nat) : BitVec 8 := BitVec.ofNat 8 (bg ||| fg &&& 0xF)

/-- `vga_make_entry`; `c` is a signed character. -/
def vgaMakeEntry (c color : BitVec 8) : BitVec 16 :=
  c.signExtend 16 ||| color.zeroExtend 16 <<< 8

namespace Terminal

variable (t : Terminal)

/-- The color that characters are written in. -/
def color : BitVec 8 := vgaMakeColor t.termFg t.termBg

/-- `vga_set_cursor_position` -/
def vgaSetCursorPosition (dwPos : Nat) : Terminal :=
  if t.cursorUpdateCntr ≠ 0 then t
  else { t with cursor := 2 ^ 8 * (dwPos / 2 ^ 8 % 2 ^ 8) + dwPos % 2 ^ 8 }

/-- `vga_cursor_begin_update` -/
def vgaCursorBeginUpdate : Terminal := { t with cursorUpdateCntr := i32 (t.cursorUpdateCntr + 1) }

/-- `vga_cursor_end_update` -/
def vgaCursorEndUpdate : Except Halt Terminal :=
  let t := { t with cursorUpdateCntr := i32 (t.cursorUpdateCntr - 1) }
  if t.cursorUpdateCntr = 0 then .ok (t.vgaSetCursorPosition t.termPointer)
  else if t.cursorUpdateCntr < 0 then
    .error (.panic "VGA: Cursor update counter dropped below 0.")
  else .ok t

/-- A cell is written in both buffers. -/
def setCell (id : Nat) (entry : BitVec 16) : Terminal :=
  { t with
    termBuff := Buffer.writeAt t.termBuff id [entry]
    termBuffSw := Buffer.writeAt t.termBuffSw id [entry] }

/-- The loops of `vga_clear`, over the first cells. -/
def clearCells : Nat → Terminal
  | 0 => t
  | id + 1 => (clearCells id).setCell id (vgaMakeEntry 0x20 t.color)

/-- `vga_clear` -/
def vgaClear : Terminal := ({ t.clearCells (80 * 25) with termPointer := 0 }).vgaSetCursorPosition 0

/-- `vga_init_terminal` -/
def vgaInitTerminal : Terminal :=
  { t with termPointer := 0, cursorUpdateCntr := 0, termFg := 7, termBg := 0 }.vgaClear

/-- `vga_set_color` -/
def vgaSetColor (fg bg : Nat) : Terminal := { t with termFg := fg, termBg := bg }

/-- The loop of `vga_scroll_vert` that copies the first lines. -/
def copyLines : Nat → Terminal
  | 0 => t
  | y + 1 =>
    let t := copyLines y
    let line := Buffer.readAt t.termBuffSw ((y + 1) * 80) 80
    { t with
      termBuff := Buffer.writeAt t.termBuff (y * 80) line
      termBuffSw := Buffer.writeAt t.termBuffSw (y * 80) line }

/-- The loop of `vga_scroll_vert` that fills the last line, from its end. -/
def fillLine : Nat → Terminal
  | 0 => t
  | i + 1 => (fillLine i).setCell (25 * 80 - i - 1) (vgaMakeEntry 0x20 t.color)

/-- `vga_scroll_vert` -/
def vgaScrollVert : Except Halt Terminal :=
  let t := (t.copyLines (25 - 1)).fillLine 80
  let t := { t with termPointer := sub32 t.termPointer 80 }
  let t := t.vgaSetCursorPosition t.termPointer
  if t.termPointer / 80 ≥ 25 then .error (.panic "VGA: vga_scroll_vert(): failed.") else .ok t

/-- `vga_print_char` -/
def vgaPrintChar (c : BitVec 8) : Except Halt Terminal := do
  -- the scroll that the last character has put off
  let t ← if t.termPointer ≥ 80 * 25 then t.vgaScrollVert else .ok t
  if t.termPointer ≥ 80 * 25 then .error .stuck
  else
    let t := t.setCell t.termPointer (vgaMakeEntry c t.color)
    let t := { t with termPointer := u32 (t.termPointer + 1) }
    .ok (t.vgaSetCursorPosition t.termPointer)

/-- `vga_new_line` -/
def vgaNewLine : Except Halt Terminal :=
  let t := { t with termPointer := u32 (u32 (t.termPointer + 80) / 80 * 80) }
  if t.termPointer ≥ 80 * 25 then t.vgaScrollVert else .ok (t.vgaSetCursorPosition t.termPointer)

/-- The loop of `vga_apply_tab`. -/
def printSpaces : Nat → Terminal → Except Halt Terminal
  | 0, t => .ok t
  | cnt + 1, t => do
    let t ← t.vgaPrintChar 0x20
    printSpaces cnt t

/-- `vga_apply_tab` -/
def vgaApplyTab : Except Halt Terminal := do
  -- the column past the last stop, not what is left to the next one
  let cnt := t.termPointer % 8
  let t ← printSpaces cnt t.vgaCursorBeginUpdate
  t.vgaCursorEndUpdate

/-- `vga_apply_carriage_return` -/
def vgaApplyCarriageReturn : Terminal :=
  let t := { t with termPointer := t.termPointer - t.termPointer % 80 }
  t.vgaSetCursorPosition t.termPointer

/-- The `switch` of `vga_print`. -/
def printStep (c : BitVec 8) : Except Halt Terminal :=
  if c = 0x0A then t.vgaNewLine
  else if c = 0x09 then t.vgaApplyTab
  else if c = 0x0D then .ok t.vgaApplyCarriageReturn
  else t.vgaPrintChar c

/-- The loop of `vga_print`. -/
def printLoop : List (BitVec 8) → Terminal → Except Halt Terminal
  | [], t => .ok t
  | c :: str, t => do
    let t ← t.printStep c
    printLoop str t

/-- `vga_print` -/
def vgaPrint (str : List (BitVec 8)) : Except Halt Terminal := do
  let t ← printLoop str t.vgaCursorBeginUpdate
  t.vgaCursorEndUpdate

end Terminal

end Antonix.Vga
