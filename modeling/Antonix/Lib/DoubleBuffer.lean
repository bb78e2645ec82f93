import Antonix.Lib.Buffer

/-! # Double buffers

A device plays the two halves of a buffer in turn, and its driver fills them from a
queue.  What the driver commits to the buffer, fill after fill, is a tape: the data
of the queue in order, with padding behind it where the queue has run dry.  When
each fill goes to the half that has just been played, the device plays the tape. -/

namespace DoubleBuffer

open Buffer

variable {α : Type*} {size h : Nat} {buffer : Nat → α}

/-! ## The halves -/

/-- A half of the buffer. -/
def half (buffer : Nat → α) (size h : Nat) : List α := readAt buffer (h * size) size

/-- What is played next: the half that is being played, and then the other one. -/
def upcoming (buffer : Nat → α) (size playing : Nat) : List α :=
  half buffer size playing ++ half buffer size (1 - playing)

theorem half_writeAt_same {block : List α} (whole : block.length = size) :
    half (writeAt buffer (h * size) block) size h = block := by
  rw [half, ← whole]
  exact readAt_writeAt

theorem half_writeAt_other {block : List α} (whole : block.length = size) {other : Nat}
    (different : other ≠ h) :
    half (writeAt buffer (h * size) block) size other = half buffer size other := by
  refine readAt_congr fun i inside => writeAt_outside ?_
  cases Nat.lt_or_gt_of_ne different with
  | inl before =>
    have room := Nat.mul_le_mul_right size (show other + 1 ≤ h from before)
    rw [Nat.add_mul] at room
    omega
  | inr behind =>
    have room := Nat.mul_le_mul_right size (show h + 1 ≤ other from behind)
    rw [Nat.add_mul] at room
    omega

/-- The whole buffer, from its first half on. -/
theorem upcoming_zero : upcoming buffer size 0 = readAt buffer 0 (2 * size) := by
  rw [upcoming, half, half, Nat.two_mul, readAt_add, Nat.zero_mul, Nat.sub_zero, Nat.one_mul,
    Nat.zero_add]

/-- A block at the start of a buffer that was cleared. -/
theorem readAt_writeAt_cleared {silence : α} {n : Nat} {block : List α} (fits : block.length ≤ n) :
    readAt (writeAt (writeAt buffer 0 (List.replicate n silence)) 0 block) 0 n =
      block ++ List.replicate (n - block.length) silence := by
  have cleared : readAt (writeAt buffer 0 (List.replicate n silence)) 0 n =
      List.replicate n silence := by
    have whole : readAt (writeAt buffer 0 (List.replicate n silence)) 0
        (List.replicate n silence).length = _ := readAt_writeAt
    rwa [List.length_replicate] at whole
  have spliced : readAt (writeAt (writeAt buffer 0 (List.replicate n silence)) 0 block) 0
      (max n (0 + block.length)) = _ := readAt_writeAt_splice (Nat.zero_le n)
  rw [Nat.zero_add, Nat.max_eq_left fits, cleared] at spliced
  rw [spliced, splice, List.take_zero, List.nil_append, Nat.zero_add, List.drop_replicate]

/-- A fill of the half that has just been played comes behind everything else. -/
theorem upcoming_writeAt {block : List α} (whole : block.length = size) {playing : Nat}
    (one : playing ≤ 1) :
    half buffer size playing ++ upcoming (writeAt buffer (playing * size) block) size (1 - playing) =
      upcoming buffer size playing ++ block := by
  have back : 1 - (1 - playing) = playing := by omega
  rw [upcoming, upcoming, back, half_writeAt_same whole,
    half_writeAt_other whole (by omega : 1 - playing ≠ playing), List.append_assoc]

/-! ## The tape -/

/-- A queue, what was committed of it, and the data in that. -/
structure Feed (α : Type*) where
  queue : List α
  tape : List α
  data : List α

/-- Nothing is committed yet. -/
def Feed.start (queue : List α) : Feed α := ⟨queue, [], []⟩

/-- New data. -/
def Feed.accept (feed : Feed α) (xs : List α) : Feed α := { feed with queue := feed.queue ++ xs }

/-- What a fill of `n` cells commits: data, and padding only where the queue is too short. -/
def Feed.block (silence : α) (n : Nat) (feed : Feed α) : List α :=
  feed.queue.take n ++ List.replicate (n - feed.queue.length) silence

/-- A fill of `n` cells. -/
def Feed.fill (silence : α) (n : Nat) (feed : Feed α) : Feed α where
  queue := feed.queue.drop n
  tape := feed.tape ++ feed.block silence n
  data := feed.data ++ feed.queue.take n

/-- All data that was accepted, in order. -/
def Feed.accepted (feed : Feed α) : List α := feed.data ++ feed.queue

@[simp] theorem Feed.accepted_start (queue : List α) : (start queue).accepted = queue := rfl

@[simp] theorem Feed.accepted_accept (feed : Feed α) (xs : List α) :
    (feed.accept xs).accepted = feed.accepted ++ xs := by
  simp [accepted, accept]

@[simp] theorem Feed.accepted_fill (silence : α) (n : Nat) (feed : Feed α) :
    (feed.fill silence n).accepted = feed.accepted := by
  simp [accepted, fill]

@[simp] theorem Feed.length_block (silence : α) (n : Nat) (feed : Feed α) :
    (feed.block silence n).length = n := by
  simp only [block, List.length_append, List.length_take, List.length_replicate]
  omega

end DoubleBuffer
