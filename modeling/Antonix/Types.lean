import Mathlib.Algebra.Group.Int.Defs
import Mathlib.Algebra.Group.Nat.Defs
import Mathlib.Data.Int.Init

/-! # Basic types

The status codes of `types.h`, the ways a kernel routine can stop, and the
wrap-around of 32-bit and 64-bit arithmetic. -/

namespace Antonix

/-- `HRESULT`, the codes that the modelled routines return. -/
inductive HResult where
  | sOk
  | sFalse
  | eInvalidArg
  | ePointer
  | eFail
  | eNotImpl
  | eEndOfStr
  | eAccessDenied
  | eNotFound
  | eOutOfMem
  | eInvalidData
  | eTimedOut
  | eBufferOverflow
  | eBufferUnderflow
  | eInvalidState
  | eNotSupported
  deriving DecidableEq, Repr

/-- `SUCCEEDED(x)` -/
def HResult.succeeded : HResult → Bool
  | .sOk | .sFalse => true
  | _ => false

/-- `FAILED(x)` -/
def HResult.failed (hr : HResult) : Bool := !hr.succeeded

/-- `S_OK` and `S_FALSE` are the statuses that succeed. -/
theorem HResult.eq_sOk {hr : HResult} (notFalse : hr ≠ .sFalse) (succeeded : ¬ hr.failed = true) :
    hr = .sOk := by
  cases hr with
  | sOk => rfl
  | sFalse => exact absurd rfl notFalse
  | _ => exact absurd rfl succeeded

/-- The word that a status is. -/
def HResult.code : HResult → Nat
  | .sOk => 0x00
  | .sFalse => 0x01
  | .eInvalidArg => 0x10
  | .ePointer => 0x11
  | .eFail => 0x12
  | .eNotImpl => 0x13
  | .eEndOfStr => 0x14
  | .eAccessDenied => 0x15
  | .eNotFound => 0x16
  | .eOutOfMem => 0x17
  | .eInvalidData => 0x18
  | .eNotSupported => 0x19
  | .eInvalidState => 0x1A
  | .eTimedOut => 0x1B
  | .eBufferOverflow => 0x1C
  | .eBufferUnderflow => 0x1D

/-- A routine that does not return: `HalKernelPanic(text)` halts the machine.
`assertion` is an `assert` that does not hold, `stuck` a step that C leaves
undefined or a loop that does not end. -/
inductive Halt where
  | panic (text : String)
  | assertion
  | stuck
  deriving DecidableEq, Repr

/-- A sequence that returned consists of calls that returned. -/
theorem exists_of_bind {α β : Type} {call : Except Halt α} {next : α → Except Halt β} {value : β}
    (returned : call >>= next = .ok value) : ∃ x, call = .ok x ∧ next x = .ok value := by
  cases call with
  | error halt => contradiction
  | ok x => exact ⟨x, rfl, returned⟩

/-- The value and the state that a call returned. -/
theorem eq_of_returned {α σ : Type*} {x y : α} {s t : σ}
    (returned : (.ok (x, s) : Except Halt (α × σ)) = .ok (y, t)) : x = y ∧ s = t :=
  Prod.mk.inj (Except.ok.inj returned)

/-- The status, the answer and the state that a call returned. -/
theorem eq_of_answered {α β σ : Type*} {x y : α} {a b : β} {s t : σ}
    (returned : (.ok (x, a, s) : Except Halt (α × β × σ)) = .ok (y, b, t)) :
    x = y ∧ a = b ∧ s = t := by
  obtain ⟨status, rest⟩ := eq_of_returned returned
  exact ⟨status, Prod.mk.inj rest⟩

/-- A call has returned when something of its result is known. -/
theorem exists_of_known {α β : Type*} {call : Except Halt α} {f : α → β} {value : β}
    (known : call.toOption.map f = some value) :
    ∃ result, call = .ok result ∧ f result = value := by
  cases call with
  | error halt => simp [Except.toOption] at known
  | ok result => exact ⟨result, rfl, by simpa [Except.toOption] using known⟩

/-- A call whose value is known has returned. -/
theorem exists_of_value {α σ : Type*} {call : Except Halt (α × σ)} {value : α}
    (known : call.toOption.map Prod.fst = some value) : ∃ state, call = .ok (value, state) := by
  obtain ⟨result, returned, rfl⟩ := exists_of_known known
  exact ⟨result.2, returned⟩

/-- Why a call has not returned. -/
def haltOf {α : Type*} : Except Halt α → Option Halt
  | .error halt => some halt
  | .ok _ => none

theorem eq_error_of_haltOf {α : Type*} {call : Except Halt α} {halt : Halt}
    (stopped : haltOf call = some halt) : call = .error halt := by
  cases call with
  | error halt' => rw [Option.some.inj stopped]
  | ok value => cases stopped

/-- `KPMM_BLOCK_SIZE` and `VM_PAGE_FRAME_SIZE`, both 4096. -/
abbrev pageSize : Nat := 0x1000

/-! ## `K_VMM_REGION_USAGE` and `K_VMM_ACCESS_FLAG` -/

abbrev usageReserved : Nat := 0x1
abbrev usageKernel : Nat := 0x2
abbrev usageUser : Nat := 0x4
abbrev usageHeap : Nat := 0x8
abbrev usageStack : Nat := 0x10
abbrev usageAutofree : Nat := 0x20
abbrev usageTemp : Nat := 0x40
abbrev usageCode : Nat := 0x80
abbrev usageData : Nat := 0x100

abbrev accessRead : Nat := 0x01
abbrev accessWrite : Nat := 0x02
abbrev accessReadWrite : Nat := accessRead ||| accessWrite

/-! ## 32-bit arithmetic -/

/-- The value of a 32-bit unsigned expression. -/
def u32 (x : Nat) : Nat := x % 2 ^ 32

theorem u32_lt (x : Nat) : u32 x < 2 ^ 32 := Nat.mod_lt _ (by decide)

theorem u32_of_lt {x : Nat} (small : x < 2 ^ 32) : u32 x = x := Nat.mod_eq_of_lt small

theorem u32_add_left (x y : Nat) : u32 (u32 x + y) = u32 (x + y) := Nat.mod_add_mod x _ y

/-- A 32-bit difference of an address and a base below it. -/
theorem u32_offset {base offset : Nat} (baseFits : base < 2 ^ 32) (fits : offset < 2 ^ 32) :
    u32 (base + offset + (2 ^ 32 - base)) = offset := by
  rw [u32]; omega

/-- `a - b` of two 32-bit unsigned values. -/
def sub32 (a b : Nat) : Nat := u32 (2 ^ 32 + a - b)

theorem sub32_of_le {a b : Nat} (below : b ≤ a) (fits : a < 2 ^ 32) : sub32 a b = a - b := by
  rw [sub32, u32]; omega

/-- `a - b` of two 64-bit unsigned values. -/
def sub64 (a b : Nat) : Nat := (2 ^ 64 + a - b) % 2 ^ 64

theorem sub64_of_le {a b : Nat} (below : b ≤ a) (fits : a < 2 ^ 64) : sub64 a b = a - b := by
  rw [sub64]; omega

/-- An `int32_t` passed as a `uint32_t`. -/
def asU32 (x : Int) : Nat := (x % 2 ^ 32).toNat

theorem asU32_lt (x : Int) : asU32 x < 2 ^ 32 := by unfold asU32; omega

theorem asU32_natCast {n : Nat} (small : n < 2 ^ 32) : asU32 n = n := by unfold asU32; omega

/-- The value of a 32-bit signed expression. -/
def i32 (x : Int) : Int := Int.bmod x (2 ^ 32)

theorem i32_of_small {n : Nat} (small : n < 2 ^ 31) : i32 n = n := by
  have same : (n : Int) % (2 ^ 32 : Nat) = n := Int.emod_eq_of_lt (by omega) (by omega)
  simp only [i32, Int.bmod, same]
  exact if_pos (by omega)

/-- Reading back an `int32_t` stored as a word. -/
theorem i32_asU32 {x : Int} (low : -2 ^ 31 ≤ x) (high : x < 2 ^ 31) : i32 (asU32 x) = x := by
  simp only [i32, asU32, Int.bmod_def]
  omega

theorem i32_asU32_add (x d : Int) : i32 (asU32 x + d) = i32 (x + d) := by
  simp only [i32, asU32, Int.bmod_def]
  omega

theorem i32_of_range {x : Int} (low : -2 ^ 31 ≤ x) (high : x < 2 ^ 31) : i32 x = x := by
  simp only [i32, Int.bmod_def]
  omega

end Antonix
