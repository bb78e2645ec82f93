import Antonix.Lib.Buffer
import Antonix.Lib.Numeral
import Antonix.Types

/-! # Formatted text (`libc/string.c`)

`vsprintf` writes to a buffer that is large enough, a byte at every offset from
`target`.  A format is the list of its characters before the terminator. -/

namespace Antonix.Libc

/-- The bytes from `target` on. -/
abbrev Target := Nat → BitVec 8

/-- `*dst = c` -/
def put (target : Target) (dst : Nat) (c : BitVec 8) : Target := Buffer.writeAt target dst [c]

/-- What `va_arg` can take from the list: a word, or a string; `none` is `NULL`. -/
inductive VaArg where
  | int (v : BitVec 32)
  | str (s : Option (List (BitVec 8)))
  deriving DecidableEq

/-- The word that an argument is. -/
def VaArg.word : VaArg → Option (BitVec 32)
  | .int v => some v
  | .str _ => none

/-! ## `__sprint_hex` -/

/-- `hexmap` -/
def hexmap : List (BitVec 8) :=
  [0x30, 0x31, 0x32, 0x33, 0x34, 0x35, 0x36, 0x37, 0x38, 0x39, 0x41, 0x42, 0x43, 0x44, 0x45, 0x46]

/-- The loop that counts the digits. -/
def countHex (num : Nat) : Nat :=
  if num / 16 > 0 then countHex (num / 16) + 1 else 1
  decreasing_by omega

/-- The loop that writes the digits, from the last one down. -/
def fillHex (target : Target) (dst usrc : Nat) : Target × Nat :=
  let target := put target (dst - 1) (hexmap.getD (usrc % 16) 0)
  if usrc / 16 > 0 then fillHex target (dst - 1) (usrc / 16) else (target, dst - 1)
  decreasing_by omega

/-- `__sprint_hex` -/
def sprintHex (target : Target) (dst : Nat) (src : BitVec 32) : Target × Nat :=
  let usrc := src.toNat
  let digits := countHex usrc
  let target := put (put target dst 0x30) (dst + 1) 0x78
  let (target, dst) := fillHex target (dst + 2 + digits) usrc
  (target, dst + digits)

/-! ## `__sprint_dec` -/

/-- The loop that reverses the order of the digits and counts them. -/
def reverseDec (src reversed : Int) (cnt : Nat) : Int × Nat :=
  if 0 < src then
    reverseDec (src.tdiv 10) (i32 (i32 (reversed * 10) + src.tmod 10)) (cnt + 1)
  else (reversed, cnt)
  termination_by src.toNat
  decreasing_by rw [Int.tdiv_eq_ediv_of_nonneg (by omega)]; omega

/-- The loop that writes the digits of the reversed number, at least one of them. -/
def fillDec (target : Target) (dst : Nat) (reversed : Int) : Nat → Target × Nat
  | 0 | 1 => (put target dst (BitVec.ofInt 8 (0x30 + reversed.tmod 10)), dst + 1)
  | cnt + 2 =>
    fillDec (put target dst (BitVec.ofInt 8 (0x30 + reversed.tmod 10))) (dst + 1)
      (reversed.tdiv 10) (cnt + 1)

/-- `__sprint_dec` -/
def sprintDec (target : Target) (dst : Nat) (src : BitVec 32) : Target × Nat :=
  let (target, dst, src) :=
    if src.toInt < 0 then (put target dst 0x2D, dst + 1, i32 (src.toInt * -1))
    else (target, dst, src.toInt)
  let (reversed, cnt) := reverseDec src 0 0
  fillDec target dst reversed cnt

/-! ## `__sprint_str` and `vsprintf` -/

/-- The loop that copies a string. -/
def copyStr (target : Target) (dst : Nat) : List (BitVec 8) → Target × Nat
  | [] => (target, dst)
  | c :: src => copyStr (put target dst c) (dst + 1) src

/-- `__sprint_str`.  After it has written a `NULL` string, it reads from address 0. -/
def sprintStr (target : Target) (dst : Nat) (src : Option (List (BitVec 8))) (incNull : Bool) :
    Except Halt (Target × Nat) :=
  match src with
  | none => .error .stuck
  | some src =>
    let (target, dst) := copyStr target dst src
    .ok (if incNull then put target dst 0 else target, dst)

/-- The `switch` on the character behind a `%`: what is written for a place holder, and the
arguments that are left.  An argument that is not there, or not of the type asked for, is
undefined. -/
def placeHolder (target : Target) (dst : Nat) (id : BitVec 8) (args : List VaArg) :
    Option (Except Halt (Target × Nat × List VaArg)) :=
  if id = 0x64 then
    match args with
    | .int number :: args =>
      let (target, dst) := sprintDec target dst number
      some (.ok (target, dst, args))
    | _ => some (.error .stuck)
  else if id = 0x78 then
    match args with
    | .int number :: args =>
      let (target, dst) := sprintHex target dst number
      some (.ok (target, dst, args))
    | _ => some (.error .stuck)
  else if id = 0x73 then
    match args with
    | .str str :: args => some (do
      let (target, dst) ← sprintStr target dst str false
      .ok (target, dst, args))
    | _ => some (.error .stuck)
  else none

/-- The loop of `vsprintf`.  A format that ends with `%` is read beyond its terminator. -/
def vsprintfLoop (target : Target) (dst : Nat) :
    List (BitVec 8) → List VaArg → Except Halt (Target × Nat)
  | [], _ => .ok (target, dst)
  | [pc], _ => if pc = 0x25 then .error .stuck else .ok (put target dst pc, dst + 1)
  | pc :: id :: fmt, args =>
    if pc = 0x25 then
      match placeHolder target dst id args with
      | some handled => do
        let (target, dst, args) ← handled
        vsprintfLoop target dst fmt args
      | none =>
        -- the `%` is dropped, the next character is written
        vsprintfLoop (put target dst id) (dst + 1) fmt args
    else vsprintfLoop (put target dst pc) (dst + 1) (id :: fmt) args

/-- `vsprintf` -/
def vsprintf (target : Target) (fmt : List (BitVec 8)) (args : List VaArg) :
    Except Halt (Target × Int) := do
  let (target, dst) ← vsprintfLoop target 0 fmt args
  .ok (put target dst 0, i32 dst)

/-! ## Numerals -/

/-- The character of a digit, in upper case. -/
def digitChar (d : Nat) : BitVec 8 :=
  if d < 10 then BitVec.ofNat 8 (0x30 + d) else BitVec.ofNat 8 (0x41 + (d - 10))

/-- The digit that a character stands for. -/
def charDigit (c : BitVec 8) : Nat :=
  if c.toNat < 0x41 then c.toNat - 0x30 else c.toNat - 0x41 + 10

/-- The decimal numeral of a number. -/
def decimal (a : Int) : List (BitVec 8) :=
  (if a < 0 then [0x2D] else []) ++ (Numeral.digits 10 a.natAbs).map digitChar

/-- `0x` and the hexadecimal numeral of a number. -/
def hexadecimal (n : Nat) : List (BitVec 8) :=
  0x30 :: 0x78 :: (Numeral.digits 16 n).map digitChar

def parseDecimal (text : List (BitVec 8)) : Int :=
  if text.head? = some 0x2D then -(Numeral.value 10 (text.tail.map charDigit) : Nat)
  else (Numeral.value 10 (text.map charDigit) : Nat)

def parseHexadecimal (text : List (BitVec 8)) : Nat :=
  Numeral.value 16 ((text.drop 2).map charDigit)

theorem charDigit_digitChar {d : Nat} (digit : d < 16) : charDigit (digitChar d) = d := by
  revert d
  decide

theorem digitChar_ne_minus {d : Nat} (digit : d < 10) : digitChar d ≠ 0x2D := by
  revert d
  decide

theorem map_charDigit {b : Nat} (base : 1 < b) (digit : b ≤ 16) (n : Nat) :
    ((Numeral.digits b n).map digitChar).map charDigit = Numeral.digits b n := by
  rw [List.map_map]
  refine (List.map_congr_left fun d member => ?_).trans (List.map_id _)
  exact charDigit_digitChar (Nat.lt_of_lt_of_le (Numeral.lt_of_mem_digits base member) digit)

theorem parseHexadecimal_hexadecimal (n : Nat) : parseHexadecimal (hexadecimal n) = n := by
  rw [parseHexadecimal, hexadecimal, List.drop_succ_cons, List.drop_succ_cons, List.drop_zero,
    map_charDigit (by decide) (by decide), Numeral.value_digits]

theorem parseDecimal_decimal (a : Int) : parseDecimal (decimal a) = a := by
  by_cases negative : a < 0
  · have text : decimal a = 0x2D :: (Numeral.digits 10 a.natAbs).map digitChar := by
      rw [decimal, if_pos negative]
      rfl
    rw [parseDecimal, text, List.head?_cons, if_pos rfl, List.tail_cons,
      map_charDigit (by decide) (by decide), Numeral.value_digits]
    omega
  · have text : decimal a = (Numeral.digits 10 a.natAbs).map digitChar := by
      rw [decimal, if_neg negative]
      rfl
    have noSign : (decimal a).head? ≠ some 0x2D := by
      rw [text, List.head?_map]
      intro sign
      obtain ⟨d, first, minus⟩ := Option.map_eq_some_iff.mp sign
      have digit := Numeral.lt_of_mem_digits (by decide) (List.mem_of_head? first)
      exact digitChar_ne_minus digit minus
    rw [parseDecimal, if_neg noSign, text, map_charDigit (by decide) (by decide),
      Numeral.value_digits]
    omega

end Antonix.Libc
