import Antonix.Drivers.Console
import Antonix.Lib.Words

/-! # Command lines (`kconsole.c`, `libc/string.c`)

`kcon_parse_command` splits a line with `str_explode`, drops the empty substrings from
the array and frees what the array still holds.  The heap is the number of the next block
and the blocks that were freed; `grants` says which calls of `kmalloc` succeed.  No
result of `kmalloc` is checked. -/

namespace Antonix.KConsole

open Libc Drivers

structure Heap where
  /-- The number of the next block. -/
  next : Nat
  /-- The blocks passed to `kfree`. -/
  freed : List Nat
  deriving DecidableEq

/-- An entry of the array: a pointer to a block with a string. -/
structure Substr where
  block : Nat
  text : List (BitVec 8)
  deriving DecidableEq

/-- The array of pointers. -/
abbrev SubstrArr := Nat → Substr

/-- `kmalloc`, when its result is used at once. -/
def kmalloc (grants : Nat → Bool) (heap : Heap) : Except Halt (Nat × Heap) :=
  if grants heap.next then .ok (heap.next, { heap with next := heap.next + 1 })
  else .error .stuck

/-- `kfree` -/
def kfree (heap : Heap) (block : Nat) : Heap := { heap with freed := heap.freed ++ [block] }

/-- The loop of `str_explode`; `d` is what is left of the line. -/
def explodeLoop (grants : Nat → Bool) (delim : BitVec 8) :
    Nat → Nat → List (BitVec 8) → SubstrArr → Heap → Except Halt (SubstrArr × Heap)
  | 0, _, _, arr, heap => .ok (arr, heap)
  | n + 1, i, d, arr, heap => do
    let piece := d.takeWhile (· ≠ delim)
    let (block, heap) ← kmalloc grants heap
    let arr := Buffer.writeAt arr i [⟨block, piece⟩]
    explodeLoop grants delim n (i + 1) (d.drop (piece.length + 1)) arr heap

/-- `str_explode`: the block of the array, the array and its count. -/
def strExplode (grants : Nat → Bool) (src : List (BitVec 8)) (delim : BitVec 8) (stale : SubstrArr)
    (heap : Heap) : Except Halt ((Nat × SubstrArr × Nat) × Heap) := do
  let targetCnt := src.count delim + 1
  let (target, heap) ← kmalloc grants heap
  let (arr, heap) ← explodeLoop grants delim targetCnt 0 src stale heap
  .ok ((target, arr, targetCnt), heap)

/-- The outer loop of `str_remove_empty_substrings`, from `i - 1` down; the inner one moves the
entries behind an empty one. -/
def removeLoop : Nat → SubstrArr → Nat → SubstrArr × Nat
  | 0, arr, c => (arr, c)
  | i + 1, arr, c =>
    -- the pointer is overwritten, and nothing frees its block
    if (arr i).text = [] then removeLoop i (Buffer.shiftDown arr i (c - 1 - i)) (c - 1)
    else removeLoop i arr c

/-- `str_remove_empty_substrings` -/
def strRemoveEmptySubstrings (arr : SubstrArr) (cnt : Nat) : SubstrArr × Nat :=
  removeLoop cnt arr cnt

/-- `str_explode_cleanup` -/
def strExplodeCleanup (target : Nat) (arr : SubstrArr) (cnt : Nat) (heap : Heap) : Heap :=
  kfree ((List.range cnt).foldl (fun heap i => kfree heap (arr i).block) heap) target

section model

variable {σ : Type}

/-- `K_CMD_HANDLER`: the name of a command and its handler.  `args` is a pointer to the arguments
or `NULL`. -/
structure CmdHandler (σ : Type) where
  cmd : List (BitVec 8)
  handler : List (BitVec 8) → Option (List (List (BitVec 8))) → Nat → σ → Except Halt (HResult × σ)

variable (print : List (BitVec 8) → σ → Except Halt σ) (stack : Target)
  (cmdList : List (CmdHandler σ))

/-- The bytes of a text of the source. -/
def ascii (text : String) : List (BitVec 8) := text.toList.map fun c => BitVec.ofNat 8 c.toNat

/-- The loop over `cmd_list`: the handler of a command is invoked, and its failure reported. -/
def invokeCommand (cmd cmdName : List (BitVec 8)) (args : Option (List (List (BitVec 8))))
    (argc : Nat) (screen : σ) : Except Halt σ :=
  match cmdList.find? fun handler => handler.cmd = cmdName with
  | some found => do
    let (hr, screen) ← found.handler cmd args argc screen
    if hr.failed then
      if hr = .eInvalidArg then
        vgaPrintf print stack (ascii "Invalid arguments for command \"%s\"\n") [.str (some cmdName)]
          screen
      else .error (.panic "Kernel console: command failed.")
    else .ok screen
  | none => vgaPrintf print stack (ascii "Unknown command \"%s\"\n") [.str (some cmdName)] screen

/-- `kcon_parse_command`; `stale` is what the block of the array holds at first. -/
def kconParseCommand (grants : Nat → Bool) (stale : SubstrArr) (cmd : List (BitVec 8))
    (heap : Heap) (screen : σ) : Except Halt (σ × Heap) := do
  let ((target, arr, cmdArgs), heap) ← strExplode grants cmd 0x20 stale heap
  let (cmdDecomposed, cmdArgs) := strRemoveEmptySubstrings arr cmdArgs
  -- returns before `str_explode_cleanup`
  if cmdArgs = 0 then .ok (screen, heap)
  else
    let cmdName := (cmdDecomposed 0).text
    let args := if cmdArgs > 1 then
      some ((List.range (cmdArgs - 1)).map fun i => (cmdDecomposed (i + 1)).text) else none
    let screen ← invokeCommand print stack cmdList cmd cmdName args (cmdArgs - 1) screen
    .ok (screen, strExplodeCleanup target cmdDecomposed cmdArgs heap)

/-- What is to happen to a line with some words: nothing without a word, and otherwise the command
that the first one names gets the others. -/
def handOver (cmd : List (BitVec 8)) (ws : List (List (BitVec 8))) (screen : σ) : Except Halt σ :=
  match ws with
  | [] => .ok screen
  | name :: args =>
    invokeCommand print stack cmdList cmd name (if args = [] then none else some args) args.length
      screen

end model

/-- Whatever the commands are, a line hands its words over, and when that returns, every block
allocated for it has been freed exactly once. -/
def LeavesNoGarbage (grants : Nat → Bool) (heap : Heap) (line : List (BitVec 8)) : Prop :=
  ∀ (σ : Type) (print : List (BitVec 8) → σ → Except Halt σ) (stack : Target)
    (cmdList : List (CmdHandler σ)) (stale : SubstrArr) (screen : σ),
    ∃ ws heap' freed, Words 0x20 line ws ∧
      kconParseCommand print stack cmdList grants stale line heap screen =
        (handOver print stack cmdList line ws screen).map (fun screen => (screen, heap')) ∧
      heap'.freed = heap.freed ++ freed ∧
      freed.Perm (List.range' heap.next (heap'.next - heap.next))

end Antonix.KConsole
