import Antonix.Lib.Buffer
import Antonix.Lib.Transition
import Antonix.Types

/-! # The keyboard (`ps2.c`, `keyboard.h`)

`keyboard_irq_handler` takes one byte of scan code set 1, and `getch` and `readch` take
characters out of `kbd_buffer`. -/

namespace Antonix.Ps2

def VKEY_ESC : BitVec 16 := 0xFF01
def VKEY_LEFTCTRL : BitVec 16 := 0xFF0D
def VKEY_BACKSP : BitVec 16 := 0xFF0E
def VKEY_TAB : BitVec 16 := 0xFF0F
def VKEY_LEFTSHIFT : BitVec 16 := 0xFF2A
def VKEY_RIGHTSHIFT : BitVec 16 := 0xFF36
def VKEY_LEFTALT : BitVec 16 := 0xFF38
def VKEY_CAPSLOCK : BitVec 16 := 0xFF3A
def VKEY_NUMLOCK : BitVec 16 := 0xFF45
def VKEY_SCROLLLOCK : BitVec 16 := 0xFF46

def VKEY_F1 : BitVec 16 := 0xFF3B
def VKEY_F2 : BitVec 16 := 0xFF3C
def VKEY_F3 : BitVec 16 := 0xFF3D
def VKEY_F4 : BitVec 16 := 0xFF3E
def VKEY_F5 : BitVec 16 := 0xFF3F
def VKEY_F6 : BitVec 16 := 0xFF40
def VKEY_F7 : BitVec 16 := 0xFF41
def VKEY_F8 : BitVec 16 := 0xFF42
def VKEY_F9 : BitVec 16 := 0xFF43
def VKEY_F10 : BitVec 16 := 0xFF44
def VKEY_F11 : BitVec 16 := 0xFF57
def VKEY_F12 : BitVec 16 := 0xFF58

/-- The entries of a run of keys that have characters. -/
def chars (text : String) : List (BitVec 16) := text.toList.map fun c => BitVec.ofNat 16 c.toNat

/-- The entries from `VKEY_CAPSLOCK` to the end, which both tables have. -/
def functionKeys : List (BitVec 16) :=
  [VKEY_CAPSLOCK, VKEY_F1, VKEY_F2, VKEY_F3, VKEY_F4, VKEY_F5, VKEY_F6, VKEY_F7, VKEY_F8,
    VKEY_F9, VKEY_F10, VKEY_F11, VKEY_F12] ++ chars "_________"

/-- The initialisers of `__keyboard_scs1`. -/
def keyboardScs1 : List (BitVec 16) :=
  [0, VKEY_ESC] ++ chars "1234567890-=" ++ [VKEY_BACKSP, VKEY_TAB] ++ chars "qwertyuiop[]\n" ++
    [VKEY_LEFTCTRL] ++ chars "asdfghjkl;'`" ++ [VKEY_LEFTSHIFT] ++ chars "\\zxcvbnm,./" ++
    [VKEY_RIGHTSHIFT] ++ chars "*" ++ [VKEY_LEFTALT] ++ chars " " ++ functionKeys

/-- The initialisers of `__keyboard_scs1_uc`. -/
def keyboardScs1Uc : List (BitVec 16) :=
  [0, VKEY_ESC] ++ chars "!@#$%^&*()_+" ++ [VKEY_BACKSP, VKEY_TAB] ++
    chars "QWERTYUIOP\x7b\x7d\n" ++ [VKEY_LEFTCTRL] ++ chars "ASDFGHJKL:\"~" ++
    [VKEY_LEFTSHIFT] ++ chars "|ZXCVBNM<>?" ++ [VKEY_RIGHTSHIFT] ++ chars "*" ++
    [VKEY_LEFTALT] ++ chars " " ++ functionKeys

/-- An entry of a table of 128 words; those without an initialiser are 0. -/
def entry (table : List (BitVec 16)) (code : BitVec 8) : BitVec 16 := table.getD code.toNat 0

/-- `__is_ascii_sym` -/
def isAsciiSym (scancode : BitVec 16) : Bool := scancode &&& 0xFF00 != 0xFF00

example : keyboardScs1.length = 0x50 ∧ entry keyboardScs1 0x1E = 0x61 ∧
    entry keyboardScs1Uc 0x1E = 0x41 ∧ entry keyboardScs1 0x36 = VKEY_RIGHTSHIFT ∧
    entry keyboardScs1Uc 0x39 = 0x20 := by decide

/-- `keyboard_driver_state` with `kbd_buffer` and `kbd_ptr`. -/
structure Keyboard where
  psCaps : Bool
  psScroll : Bool
  psNum : Bool
  /-- `keydown_map`, by scan code. -/
  keydownMap : BitVec 8 → Bool
  kbdBuffer : Nat → BitVec 8
  kbdPtr : Nat

/-- The driver as it is linked: every byte is 0. -/
def Keyboard.initial : Keyboard where
  psCaps := false
  psScroll := false
  psNum := false
  keydownMap := fun _ => false
  kbdBuffer := fun _ => 0
  kbdPtr := 0

/-- Set an entry of `keydown_map`. -/
def Keyboard.setDown (kb : Keyboard) (key : BitVec 8) (down : Bool) : Keyboard :=
  { kb with keydownMap := fun k => if k = key then down else kb.keydownMap k }

/-- `kbd_buffer[kbd_ptr++] = pseudoascii` -/
def Keyboard.append (kb : Keyboard) (pseudoascii : BitVec 16) : Keyboard :=
  { kb with
    kbdBuffer := Buffer.writeAt kb.kbdBuffer kb.kbdPtr [pseudoascii.setWidth 8]
    kbdPtr := kb.kbdPtr + 1 }

/-- The switch at the end of `keyboard_irq_handler`. -/
def Keyboard.toggle (kb : Keyboard) (pseudoascii : BitVec 16) : Keyboard :=
  if pseudoascii = VKEY_CAPSLOCK then { kb with psCaps := !kb.psCaps }
  else if pseudoascii = VKEY_SCROLLLOCK then { kb with psScroll := !kb.psScroll }
  else if pseudoascii = VKEY_NUMLOCK then { kb with psNum := !kb.psNum }
  else kb

/-- `keyboard_irq_handler`; `b` is the byte that `ps2_device_read_ex` returns. -/
def keyboardIrqHandler (b : BitVec 8) (kb : Keyboard) : Except Halt Keyboard :=
  if kb.kbdPtr ≥ 256 then .error (.panic "Keyboard buffer overflow!")
  else if b &&& 0x80 ≠ 0 then .ok (kb.setDown (b &&& 0x7F) false)
  else
    let kb := kb.setDown b true
    -- the shift keys alone choose the table
    let pseudoascii :=
      if kb.keydownMap 0x2A || kb.keydownMap 0x36 then entry keyboardScs1Uc b
      else entry keyboardScs1 b
    if isAsciiSym pseudoascii then .ok (kb.append pseudoascii) else .ok (kb.toggle pseudoascii)

/-- `getch`, which waits while there is nothing to take. -/
def getch (kb : Keyboard) : Except Halt (BitVec 8 × Keyboard) :=
  if kb.kbdPtr = 0 then .error .stuck
  else
    let res := kb.kbdBuffer 0
    let kb := { kb with kbdBuffer := Buffer.shiftDown kb.kbdBuffer 0 (kb.kbdPtr - 1) }
    .ok (res, { kb with kbdPtr := kb.kbdPtr - 1 })

/-- `readch`; the character is what it stores in `*c`. -/
def readch (kb : Keyboard) : HResult × Option (BitVec 8) × Keyboard :=
  if kb.kbdPtr = 0 then (.eEndOfStr, none, kb)
  else
    let c := kb.kbdBuffer 0
    let kb := { kb with kbdPtr := kb.kbdPtr - 1 }
    (.sOk, some c, { kb with kbdBuffer := Buffer.shiftDown kb.kbdBuffer 0 kb.kbdPtr })

/-! ## The events of a session -/

/-- A call with what it returned. -/
inductive Event where
  | scan (code : BitVec 8)
  | getch (res : BitVec 8)
  | readch (hr : HResult) (c : Option (BitVec 8))

/-- A call that returns. -/
def Event.Serves (kb : Keyboard) : Event → Keyboard → Prop
  | .scan code, kb' => keyboardIrqHandler code kb = .ok kb'
  | .getch res, kb' => Ps2.getch kb = .ok (res, kb')
  | .readch hr c, kb' => Ps2.readch kb = (hr, c, kb')

/-- The scan code that an event handles. -/
def Event.scanned : Event → List (BitVec 8)
  | .scan code => [code]
  | _ => []

/-- The character that an event hands to the reader. -/
def Event.returned : Event → List (BitVec 8)
  | .getch res => [res]
  | .readch _ c => c.toList
  | .scan _ => []

/-- The characters that wait in the buffer. -/
def Keyboard.pending (kb : Keyboard) : List (BitVec 8) := Buffer.readAt kb.kbdBuffer 0 kb.kbdPtr

/-! ## What is typed -/

/-- A key is down after some codes when the last one that it sent is its make code. -/
def isDown (key : BitVec 8) (seen : List (BitVec 8)) : Bool :=
  (seen.filter fun code => code &&& 0x7F = key).getLast? = some key

/-- The entry of a key that is pressed, which is the upper-case one while a shift key is down. -/
def translation (seen : List (BitVec 8)) (code : BitVec 8) : BitVec 16 :=
  entry (if isDown 0x2A seen || isDown 0x36 seen then keyboardScs1Uc else keyboardScs1) code

/-- The character that the last of some codes types, when it is a make code whose entry counts
as one. -/
def lastTyped (counts : BitVec 16 → Bool) (seen : List (BitVec 8)) : List (BitVec 8) :=
  match seen.getLast? with
  | none => []
  | some code =>
    if code &&& 0x80 = 0 ∧ counts (translation seen code) then
      [(translation seen code).setWidth 8]
    else []

/-- The characters that some codes type, in order. -/
def typed (counts : BitVec 16 → Bool) (codes : List (BitVec 8)) : List (BitVec 8) :=
  codes.inits.flatMap (lastTyped counts)

/-- The entry of a key that has a character: it is neither a virtual key nor missing. -/
def isCharacter (entry : BitVec 16) : Bool := isAsciiSym entry && entry != 0

/-- A make code of a key that the tables do not have. -/
def Unassigned (code : BitVec 8) : Prop := code = 0 ∨ 0x50 ≤ code.toNat ∧ code.toNat < 0x80

instance : DecidablePred Unassigned := fun code =>
  inferInstanceAs (Decidable (code = 0 ∨ 0x50 ≤ code.toNat ∧ code.toNat < 0x80))

end Antonix.Ps2
