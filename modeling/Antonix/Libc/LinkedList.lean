import Mathlib.Logic.Function.Basic
import Antonix.Types
import Antonix.Lib.DoublyLinked
import Antonix.Lib.Transition

/-! # The doubly linked list (`libc/linkedlist.c`)

The list knows its first entry and how many there are; everything else is found by way of the
links.  An entry that is not allocated cannot be read or written, and a loop over a list that
does not end is stuck. -/

namespace Antonix.Libc

open Function

/-- `DOUBLE_LIST_ENTRY`, with `none` for `NULL`. -/
structure DoubleListEntry where
  prev : Option Nat
  next : Option Nat
  payload : Nat
  deriving DecidableEq

/-- `DOUBLE_LIST` -/
structure DoubleList where
  nodeCount : Nat
  rootNode : Option Nat

/-- The entries that are allocated, those of other lists among them. -/
abbrev Entries := Nat → Option DoubleListEntry

/-- A list and the memory. -/
structure DlistState where
  entries : Entries
  list : DoubleList

/-- What `current_node` points to. -/
def fetch (entries : Entries) (node : Nat) : Except Halt DoubleListEntry :=
  match entries node with
  | some entry => .ok entry
  | none => .error .stuck

/-- `node->next = next` -/
def setNext (entries : Entries) (node : Nat) (next : Option Nat) : Except Halt Entries :=
  match entries node with
  | some entry => .ok (update entries node (some { entry with next := next }))
  | none => .error .stuck

/-- `node->prev = prev` -/
def setPrev (entries : Entries) (node : Nat) (prev : Option Nat) : Except Halt Entries :=
  match entries node with
  | some entry => .ok (update entries node (some { entry with prev := prev }))
  | none => .error .stuck

/-- `if (node) node->next = next` -/
def setNextOf (entries : Entries) (node next : Option Nat) : Except Halt Entries :=
  match node with
  | none => .ok entries
  | some node => setNext entries node next

/-- `if (node) node->prev = prev` -/
def setPrevOf (entries : Entries) (node prev : Option Nat) : Except Halt Entries :=
  match node with
  | none => .ok entries
  | some node => setPrev entries node prev

/-- `dlist_create`, where the memory is available. -/
def dlistCreate (entries : Entries) : DlistState where
  entries := entries
  list := { nodeCount := 0, rootNode := none }

/-- `dlist_entry_create`, with what `kmalloc` returns. -/
def dlistEntryCreate (kmalloc : Option Nat) (payload : Nat) (entries : Entries) :
    Option Nat × Entries :=
  match kmalloc with
  | none => (none, entries)
  | some node => (some node, update entries node (some { prev := none, next := none, payload }))

/-- `dlist_entry_destroy` -/
def dlistEntryDestroy (node : Nat) (entries : Entries) : Except Halt (Nat × Entries) := do
  let entry ← fetch entries node
  .ok (entry.payload, update entries node none)

/-- The number of addresses; no loop over a list that ends takes more turns. -/
abbrev addresses : Nat := 2 ^ 32

/-- The loop of `dlist_add` to the last entry. -/
def lastNode (entries : Entries) : Nat → Nat → Except Halt Nat
  | 0, _ => .error .stuck
  | turns + 1, currentNode => do
    let entry ← fetch entries currentNode
    match entry.next with
    | none => .ok currentNode
    | some next => lastNode entries turns next

/-- `dlist_add` -/
def dlistAdd (kmalloc : Option Nat) (payload : Nat) (s : DlistState) :
    Except Halt (Nat × DlistState) :=
  match dlistEntryCreate kmalloc payload s.entries with
  | (none, _) => .ok (0, s)
  | (some newNode, entries) =>
    let nodeCount := u32 (s.list.nodeCount + 1)
    match s.list.rootNode with
    | none => .ok (nodeCount, { entries, list := { nodeCount, rootNode := some newNode } })
    | some root => do
      let currentNode ← lastNode entries addresses root
      let entries ← setNext entries currentNode (some newNode)
      let entries ← setPrev entries newNode (some currentNode)
      .ok (nodeCount, { entries, list := { s.list with nodeCount } })

/-- The loop of `dlist_get_at` and `dlist_remove_at`; `none` where the list ends too early. -/
def nodeAt (entries : Entries) : Nat → Nat → Except Halt (Option Nat)
  | 0, currentNode => .ok (some currentNode)
  | left + 1, currentNode => do
    let entry ← fetch entries currentNode
    match entry.next with
    | none => .ok none
    | some next => nodeAt entries left next

/-- `dlist_get_at`, with 0 for `NULL`. -/
def dlistGetAt (index : Nat) (s : DlistState) : Except Halt Nat :=
  if index ≥ s.list.nodeCount then .ok 0
  else
    match s.list.rootNode with
    | none => .ok 0
    | some root => do
      match ← nodeAt s.entries index root with
      | none => .ok 0
      | some currentNode =>
        let entry ← fetch s.entries currentNode
        .ok entry.payload

/-- `dlist_remove_at`, with 0 for `NULL`. -/
def dlistRemoveAt (index : Nat) (s : DlistState) : Except Halt (Nat × DlistState) :=
  if index ≥ s.list.nodeCount then .ok (0, s)
  else
    match s.list.rootNode with
    | none => .ok (0, s)
    | some root => do
      match ← nodeAt s.entries index root with
      | none => .ok (0, s)
      | some currentNode =>
        let entry ← fetch s.entries currentNode
        let entries ← setNextOf s.entries entry.prev entry.next
        let entry ← fetch entries currentNode
        let entries ← setPrevOf entries entry.next entry.prev
        let entry ← fetch entries currentNode
        let rootNode := if index = 0 then entry.next else some root
        let (payload, entries) ← dlistEntryDestroy currentNode entries
        .ok (payload, { entries, list := { nodeCount := sub32 s.list.nodeCount 1, rootNode } })

/-- The loop of `dlist_find`; `index` is a `uint32_t`, and returned as an `int32_t`. -/
def findNode (entries : Entries) (payload : Nat) : Nat → Option Nat → Nat → Except Halt Int
  | 0, _, _ => .error .stuck
  | _ + 1, none, _ => .ok (-1)
  | turns + 1, some currentNode, index => do
    let entry ← fetch entries currentNode
    if entry.payload = payload then .ok (i32 index)
    else findNode entries payload turns entry.next (u32 (index + 1))

/-- `dlist_find` -/
def dlistFind (payload : Nat) (s : DlistState) : Except Halt Int :=
  findNode s.entries payload addresses s.list.rootNode 0

/-- `dlist_get_count` -/
def dlistGetCount (s : DlistState) : Nat := s.list.nodeCount

/-! ## Calls and their answers -/

/-- The calls that a list is used with. -/
inductive DlistCall where
  | add (payload : Nat)
  | getAt (index : Nat)
  | removeAt (index : Nat)
  | find (payload : Nat)
  | getCount

/-- What they return. -/
inductive DlistAnswer where
  | count (nodeCount : Nat)
  | payload (payload : Nat)
  | index (index : Int)
  deriving DecidableEq

/-- A call, with what `kmalloc` returns if it is called. -/
def dlistCall (kmalloc : Option Nat) (s : DlistState) :
    DlistCall → Except Halt (DlistAnswer × DlistState)
  | .add payload => do
    let (nodeCount, s) ← dlistAdd kmalloc payload s
    .ok (.count nodeCount, s)
  | .getAt index => do
    let payload ← dlistGetAt index s
    .ok (.payload payload, s)
  | .removeAt index => do
    let (payload, s) ← dlistRemoveAt index s
    .ok (.payload payload, s)
  | .find payload => do
    let index ← dlistFind payload s
    .ok (.index index, s)
  | .getCount => .ok (.count (dlistGetCount s), s)

/-- `sizeof(DOUBLE_LIST_ENTRY)` -/
abbrev entrySize : Nat := 12

/-- Two entries do not overlap. -/
def Apart (a b : Nat) : Prop := a + entrySize ≤ b ∨ b + entrySize ≤ a

/-- What `kmalloc` may return for a new entry: memory that no other entry is in. -/
structure Fresh (entries : Entries) (node : Nat) : Prop where
  notNull : 0 < node
  inMemory : node + entrySize ≤ addresses
  apart : ∀ a, entries a ≠ none → Apart a node

/-- The allocation of a call succeeds, if it makes one. -/
def Grants (entries : Entries) (kmalloc : Option Nat) (call : DlistCall) : Prop :=
  ∀ payload, call = .add payload → ∃ node, kmalloc = some node ∧ Fresh entries node

/-- The calls whose allocations succeed, with their answers. -/
def DlistStep (s : DlistState) (op : DlistCall × DlistAnswer) (t : DlistState) : Prop :=
  ∃ kmalloc, Grants s.entries kmalloc op.1 ∧ dlistCall kmalloc s op.1 = .ok (op.2, t)

/-- What a list is for: the calls on a sequence of payloads. -/
def dlistSpec (payloads : List Nat) : DlistCall → DlistAnswer × List Nat
  | .add payload => (.count (payloads.length + 1), payloads ++ [payload])
  | .getAt index => (.payload (payloads[index]?.getD 0), payloads)
  | .removeAt index => (.payload (payloads[index]?.getD 0), payloads.eraseIdx index)
  | .find payload =>
    (.index (if payload ∈ payloads then payloads.idxOf payload else -1), payloads)
  | .getCount => (.count payloads.length, payloads)

end Antonix.Libc
