import Mathlib.Data.List.Basic

/-! # Bounded queues

The abstract model of a first-in first-out buffer: at most `capacity` items,
appended at the back and removed, oldest first, from the front. -/

/-- The items that wait, oldest first; a queue that is too long cannot be built. -/
structure BoundedQueue (α : Type*) (capacity : Nat) where
  items : List α
  bounded : items.length ≤ capacity

namespace BoundedQueue

variable {α : Type*} {capacity : Nat}

/-- Nothing waits. -/
def empty (α : Type*) (capacity : Nat) : BoundedQueue α capacity where
  items := []
  bounded := Nat.zero_le capacity

/-- Append `xs`, if there is room for all of it. -/
def push (queue : BoundedQueue α capacity) (xs : List α) : Option (BoundedQueue α capacity) :=
  if room : queue.items.length + xs.length ≤ capacity then
    some { items := queue.items ++ xs
           bounded := by rw [List.length_append]; exact room }
  else none

/-- Remove the `n` oldest items, or all when there are fewer. -/
def popUpto (queue : BoundedQueue α capacity) (n : Nat) : List α × BoundedQueue α capacity :=
  (queue.items.take n,
    { items := queue.items.drop n
      bounded := by
        have bounded := queue.bounded
        rw [List.length_drop]
        omega })

/-- Remove the `n` oldest items, if there are as many. -/
def pop (queue : BoundedQueue α capacity) (n : Nat) :
    Option (List α × BoundedQueue α capacity) :=
  if n ≤ queue.items.length then some (queue.popUpto n) else none

@[simp] theorem items_empty : (empty α capacity).items = [] := rfl

@[ext] theorem ext {first second : BoundedQueue α capacity} (same : first.items = second.items) :
    first = second := by
  cases first
  cases second
  simp_all

theorem push_eq_none {queue : BoundedQueue α capacity} {xs : List α} :
    queue.push xs = none ↔ capacity < queue.items.length + xs.length := by
  unfold push
  split
  case isTrue room => simp [room]
  case isFalse full => simp only [true_iff]; omega

theorem push_eq_some {queue queue' : BoundedQueue α capacity} {xs : List α} :
    queue.push xs = some queue' ↔
      queue.items.length + xs.length ≤ capacity ∧ queue'.items = queue.items ++ xs := by
  unfold push
  split
  case isTrue room => simp [room, BoundedQueue.ext_iff, eq_comm]
  case isFalse full => simp [full]

end BoundedQueue
