import Antonix.Lib.BoundedQueue
import Antonix.Lib.Transition
import Antonix.RingBuffer.Basic

/-! # A ring buffer is a queue of bytes

`Stores rb cap queue` ties a ring buffer to the queue of the bytes it holds; one
byte of the buffer is always spare, so the queue is bounded by `cap - 1`.  Each
routine has one lemma that says what it does to that queue, and nothing below
looks into the routines again. -/

namespace Antonix

open Buffer Ring Transition

/-! ## Calls -/

/-- The calls on a ring buffer. -/
inductive RbCall where
  | write (src : List (BitVec 8))
  | read (len : Nat)
  | readUpto (max : Nat)
  | getReadSize
  | getWriteSize

/-- What a call hands back. -/
inductive RbAnswer where
  | status (hr : HResult)
  | data (hr : HResult) (dst : List (BitVec 8))
  | upto (hr : HResult) (dst : List (BitVec 8)) (actualBytes : Nat)
  | size (n : Nat)

/-- The call was refused. -/
def RbAnswer.refused : RbAnswer → Prop
  | .status hr | .data hr _ | .upto hr _ _ => hr.failed
  | .size _ => False

def rbCall (rb : RingBuffer) : RbCall → RbAnswer × RingBuffer
  | .write src =>
    let (hr, rb) := rbWrite rb src
    (.status hr, rb)
  | .read len =>
    let (hr, dst, rb) := rbRead rb len
    (.data hr dst, rb)
  | .readUpto max =>
    let (hr, dst, actual, rb) := rbReadUpto rb max
    (.upto hr dst actual, rb)
  | .getReadSize => (.size (rbGetReadSize rb), rb)
  | .getWriteSize => (.size (rbGetWriteSize rb), rb)

def sb16RbCall (ctx : Sb16DrvContext) : RbCall → RbAnswer × Sb16DrvContext
  | .write src =>
    let (hr, ctx) := Sb16.rbWrite ctx src
    (.status hr, ctx)
  | .read len =>
    let (hr, dst, ctx) := Sb16.rbRead ctx len
    (.data hr dst, ctx)
  | .readUpto max =>
    let (hr, dst, actual, ctx) := Sb16.rbReadUpto ctx max
    (.upto hr dst actual, ctx)
  | .getReadSize => (.size (Sb16.rbGetReadSize ctx), ctx)
  | .getWriteSize => (.size (Sb16.rbGetWriteSize ctx), ctx)

/-- The same calls on a queue of bytes. -/
def fifoCall {capacity : Nat} (queue : BoundedQueue (BitVec 8) capacity) :
    RbCall → RbAnswer × BoundedQueue (BitVec 8) capacity
  | .write src =>
    match queue.push src with
    | some queue' => (.status .sOk, queue')
    | none => (.status .eBufferOverflow, queue)
  | .read len =>
    match queue.pop len with
    | some (dst, queue') => (.data .sOk dst, queue')
    | none => (.data .eBufferUnderflow [], queue)
  | .readUpto max =>
    match queue.popUpto max with
    | ([], _) => (.upto .eBufferUnderflow [] 0, queue)
    | (dst, queue') => (.upto .sOk dst dst.length, queue')
  | .getReadSize => (.size queue.items.length, queue)
  | .getWriteSize => (.size (capacity - queue.items.length), queue)

/-! ## What the routines do to the queue -/

/-- The pointers of a ring buffer are in its memory, or directly behind it, and a byte is spare. -/
structure RingBuffer.WellFormed (rb : RingBuffer) : Prop where
  capacity : rb.bufferCapacity < 2 ^ 32
  read : rb.readPointer ≤ rb.bufferCapacity
  write : rb.writePointer ≤ rb.bufferCapacity
  spare : rb.writePointer < rb.readPointer + rb.bufferCapacity

section

variable {rb : RingBuffer}

namespace RingBuffer.WellFormed

theorem readSize (wellFormed : rb.WellFormed) :
    rbGetReadSize rb = stored rb.bufferCapacity rb.readPointer rb.writePointer := by
  obtain ⟨capacity, read, write, spare⟩ := wellFormed
  rw [rbGetReadSize, stored]
  split
  · rw [sub32_of_le (a := rb.readPointer) (by omega) (by omega),
      sub32_of_le (by omega) (by omega)]
  · rw [sub32_of_le (by omega) (by omega)]

/-- What is free, and the spare byte, is what is not stored. -/
theorem writeSize (wellFormed : rb.WellFormed) :
    rbGetWriteSize rb + 1 + rbGetReadSize rb = rb.bufferCapacity := by
  have size := wellFormed.readSize
  obtain ⟨capacity, read, write, spare⟩ := wellFormed
  rw [size, stored, rbGetWriteSize]
  by_cases behind : rb.writePointer < rb.readPointer
  · rw [if_pos behind, if_neg (by omega), sub32_of_le (a := rb.readPointer) (by omega) (by omega),
      sub32_of_le (by omega) (by omega)]
    omega
  · rw [if_neg behind, if_pos (by omega), sub32_of_le (a := rb.writePointer) (by omega) (by omega),
      sub32_of_le (a := rb.bufferCapacity) (by omega) (by omega), sub32_of_le (by omega) (by omega)]
    omega

end RingBuffer.WellFormed

end

/-- The ring buffer has `cap` bytes of memory and holds `queue`. -/
structure Stores (rb : RingBuffer) (cap : Nat) (queue : List (BitVec 8)) : Prop where
  capacity : rb.bufferCapacity = cap
  small : cap < 2 ^ 31
  holds : Holds rb.buffer cap rb.readPointer rb.writePointer queue

section routines

variable {rb : RingBuffer} {cap : Nat} {queue src : List (BitVec 8)}

theorem stores_createRingBuffer {buffer : Nat → BitVec 8} (positive : 0 < cap)
    (small : cap < 2 ^ 31) : Stores (createRingBuffer buffer cap) cap [] where
  capacity := rfl
  small := small
  holds := .empty positive

namespace Stores

theorem wellFormed (stores : Stores rb cap queue) : rb.WellFormed := by
  have readBounded := stores.holds.readBounded
  have writeBounded := stores.holds.writeBounded
  have unambiguous := stores.holds.unambiguous
  have small := stores.small
  have capacity := stores.capacity
  constructor <;> omega

theorem readSize (stores : Stores rb cap queue) : rbGetReadSize rb = queue.length := by
  rw [stores.wellFormed.readSize, stores.holds.length, stores.capacity]

theorem writeSize (stores : Stores rb cap queue) :
    rbGetWriteSize rb = cap - 1 - queue.length := by
  have sizes := stores.wellFormed.writeSize
  rw [stores.readSize, stores.capacity] at sizes
  omega

/-- A write that fits copies its bytes into the window behind the write pointer. -/
theorem rbWrite_eq (stores : Stores rb cap queue) (room : queue.length + src.length < cap) :
    rbWrite rb src = (.sOk, { rb with
      buffer := putWindow rb.buffer cap rb.writePointer src
      writePointer := advance cap rb.writePointer src.length }) := by
  have writeBounded := stores.holds.writeBounded
  have small := stores.small
  have segment : sub32 rb.bufferCapacity rb.writePointer = cap - rb.writePointer := by
    rw [stores.capacity, sub32_of_le writeBounded (by omega)]
  rw [rbWrite, if_neg (by rw [stores.writeSize]; omega), segment]
  split
  case isTrue wrap =>
    -- two copies: up to the end of the memory, and the rest from its start
    have second : sub32 src.length (cap - rb.writePointer) =
        src.length - (cap - rb.writePointer) := sub32_of_le (by omega) (by omega)
    have whole : (src.drop (cap - rb.writePointer)).take
        (src.length - (cap - rb.writePointer)) = src.drop (cap - rb.writePointer) := by
      rw [← List.length_drop, List.take_length]
    simp only [putWindow, advance, second, whole, if_neg (Nat.not_le.mpr wrap)]
  case isFalse once =>
    have fits : src.length ≤ cap - rb.writePointer := by omega
    simp only [putWindow, advance, if_pos fits, List.take_of_length_le fits,
      List.drop_eq_nil_of_le fits, writeAt_nil, u32_of_lt
        (show rb.writePointer + src.length < 2 ^ 32 by omega)]

/-- A read of no more than is stored copies the window before the read pointer out. -/
theorem rbRead_eq (stores : Stores rb cap queue) {len : Nat} (enough : len ≤ queue.length) :
    rbRead rb len = (.sOk, getWindow rb.buffer cap rb.readPointer len,
      { rb with readPointer := advance cap rb.readPointer len }) := by
  have readBounded := stores.holds.readBounded
  have small := stores.small
  have short := stores.holds.length_lt
  have sum : u32 (rb.readPointer + len) = rb.readPointer + len := u32_of_lt (by omega)
  rw [rbRead, if_neg (by rw [stores.readSize]; omega), sum, stores.capacity]
  split
  case isTrue wrap =>
    have segment : sub32 cap rb.readPointer = cap - rb.readPointer :=
      sub32_of_le readBounded (by omega)
    have second : sub32 len (cap - rb.readPointer) = len - (cap - rb.readPointer) :=
      sub32_of_le (by omega) (by omega)
    simp only [getWindow, advance, segment, second,
      Nat.min_eq_right (show cap - rb.readPointer ≤ len by omega),
      if_neg (show ¬ len ≤ cap - rb.readPointer by omega)]
  case isFalse once =>
    have fits : len ≤ cap - rb.readPointer := by omega
    simp only [getWindow, advance, if_pos fits, Nat.min_eq_left fits, Nat.sub_eq_zero_of_le fits,
      readAt_zero, List.append_nil]

theorem rbWrite_refused (stores : Stores rb cap queue) (full : cap ≤ queue.length + src.length) :
    rbWrite rb src = (.eBufferOverflow, rb) := by
  have short := stores.holds.length_lt
  rw [rbWrite, if_pos (by rw [stores.writeSize]; omega)]

theorem rbRead_refused (stores : Stores rb cap queue) {len : Nat} (short : queue.length < len) :
    rbRead rb len = (.eBufferUnderflow, [], rb) := by
  rw [rbRead, if_pos (by rw [stores.readSize]; exact short)]

theorem rbReadUpto_refused (stores : Stores rb cap queue) {max : Nat}
    (none : max = 0 ∨ queue = []) : rbReadUpto rb max = (.eBufferUnderflow, [], 0, rb) := by
  have size : (if rbGetReadSize rb > max then max else rbGetReadSize rb) = 0 := by
    rw [stores.readSize]
    cases none with
    | inl zero => split <;> omega
    | inr empty =>
      subst empty
      exact if_neg (by simp)
  rw [rbReadUpto, size, if_pos rfl]

theorem rbReadUpto_eq (stores : Stores rb cap queue) {max : Nat} (asked : max ≠ 0)
    (some : queue ≠ []) :
    rbReadUpto rb max = (.sOk, queue.take max, min max queue.length,
      { rb with readPointer := advance cap rb.readPointer (min max queue.length) }) := by
  have length : 0 < queue.length := List.length_pos_iff.mpr some
  have size : (if rbGetReadSize rb > max then max else rbGetReadSize rb) =
      min max queue.length := by
    rw [stores.readSize]
    split <;> omega
  have enough : min max queue.length ≤ queue.length := Nat.min_le_right max queue.length
  have taken : queue.take (min max queue.length) = queue.take max := by
    rw [List.take_eq_take_min (i := max)]
  rw [rbReadUpto, size, if_neg (by omega), stores.rbRead_eq enough, stores.holds.take enough, taken]

/-- The ring buffer after a write that fits. -/
theorem written (stores : Stores rb cap queue) (room : queue.length + src.length < cap) :
    Stores { rb with
      buffer := putWindow rb.buffer cap rb.writePointer src
      writePointer := advance cap rb.writePointer src.length } cap (queue ++ src) where
  capacity := stores.capacity
  small := stores.small
  holds := stores.holds.append room

/-- The ring buffer after a read of what is stored. -/
theorem consumed (stores : Stores rb cap queue) {len : Nat} (enough : len ≤ queue.length) :
    Stores { rb with readPointer := advance cap rb.readPointer len } cap (queue.drop len) where
  capacity := stores.capacity
  small := stores.small
  holds := stores.holds.drop enough

end Stores

end routines

/-- One call of `ringbuffer.c` is the same call on the queue. -/
theorem rbCall_stores {cap : Nat} {rb rb' : RingBuffer} {queue : BoundedQueue (BitVec 8) (cap - 1)}
    {call : RbCall} {answer : RbAnswer} (stores : Stores rb cap queue.items)
    (called : rbCall rb call = (answer, rb')) :
    ∃ queue', fifoCall queue call = (answer, queue') ∧ Stores rb' cap queue'.items ∧
      ∀ a, cap ≤ a → rb'.buffer a = rb.buffer a := by
  have bounded := queue.bounded
  have nonempty := stores.holds.length_lt
  cases call with
  | write src =>
    by_cases room : queue.items.length + src.length < cap
    · obtain ⟨rfl, rfl⟩ : _ ∧ _ := by simpa [rbCall, stores.rbWrite_eq room] using called
      cases pushed : queue.push src with
      | none => rw [BoundedQueue.push_eq_none] at pushed; omega
      | some queue' =>
        refine ⟨queue', by simp [fifoCall, pushed], ?_, ?_⟩
        · rw [(BoundedQueue.push_eq_some.mp pushed).2]
          exact stores.written room
        · intro a beyond
          exact putWindow_beyond beyond stores.holds.writeBounded (by omega)
    · obtain ⟨rfl, rfl⟩ : _ ∧ _ := by
        simpa [rbCall, stores.rbWrite_refused (Nat.not_lt.mp room)] using called
      have refused : queue.push src = none := BoundedQueue.push_eq_none.mpr (by omega)
      exact ⟨queue, by simp [fifoCall, refused], stores, fun _ _ => rfl⟩
  | read len =>
    by_cases enough : len ≤ queue.items.length
    · obtain ⟨rfl, rfl⟩ : _ ∧ _ := by simpa [rbCall, stores.rbRead_eq enough] using called
      refine ⟨(queue.popUpto len).2, ?_, stores.consumed enough, fun _ _ => rfl⟩
      simp [fifoCall, BoundedQueue.pop, enough, BoundedQueue.popUpto, stores.holds.take enough]
    · obtain ⟨rfl, rfl⟩ : _ ∧ _ := by
        simpa [rbCall, stores.rbRead_refused (Nat.not_le.mp enough)] using called
      exact ⟨queue, by simp [fifoCall, BoundedQueue.pop, enough], stores, fun _ _ => rfl⟩
  | readUpto max =>
    by_cases none : max = 0 ∨ queue.items = []
    · obtain ⟨rfl, rfl⟩ : _ ∧ _ := by simpa [rbCall, stores.rbReadUpto_refused none] using called
      have nothing : queue.items.take max = [] := by simpa using none
      exact ⟨queue, by simp [fifoCall, BoundedQueue.popUpto, nothing], stores, fun _ _ => rfl⟩
    · -- a read of what is stored, when that is less than what was asked for
      obtain ⟨asked, some⟩ := not_or.mp none
      obtain ⟨rfl, rfl⟩ : _ ∧ _ := by simpa [rbCall, stores.rbReadUpto_eq asked some] using called
      have consumed := stores.consumed (Nat.min_le_right max queue.items.length)
      have dropped : queue.items.drop (min max queue.items.length) = queue.items.drop max := by
        rw [List.drop_eq_drop_min (i := max)]
      rw [dropped] at consumed
      refine ⟨(queue.popUpto max).2, ?_, consumed, fun _ _ => rfl⟩
      have nonempty : queue.items.take max ≠ [] := by simpa using none
      simp [fifoCall, BoundedQueue.popUpto]
  | getReadSize =>
    obtain ⟨rfl, rfl⟩ : _ ∧ _ := by simpa [rbCall] using called
    exact ⟨queue, by simp [fifoCall, stores.readSize], stores, fun _ _ => rfl⟩
  | getWriteSize =>
    obtain ⟨rfl, rfl⟩ : _ ∧ _ := by simpa [rbCall] using called
    exact ⟨queue, by simp [fifoCall, stores.writeSize], stores, fun _ _ => rfl⟩

/-! ## Refused calls change nothing -/

section refused

variable {rb : RingBuffer}

theorem rbWrite_of_failed {src : List (BitVec 8)} (failed : (rbWrite rb src).1.failed) :
    (rbWrite rb src).2 = rb := by
  unfold rbWrite at failed ⊢
  by_cases full : rbGetWriteSize rb < src.length
  · rw [if_pos full]
  · rw [if_neg full] at failed
    split at failed <;> contradiction

theorem rbRead_of_failed {len : Nat} (failed : (rbRead rb len).1.failed) :
    (rbRead rb len).2.2 = rb := by
  unfold rbRead at failed ⊢
  by_cases short : rbGetReadSize rb < len
  · rw [if_pos short]
  · rw [if_neg short] at failed
    split at failed <;> contradiction

theorem rbReadUpto_of_failed {max : Nat} (failed : (rbReadUpto rb max).1.failed) :
    (rbReadUpto rb max).2.2.2 = rb := by
  unfold rbReadUpto at failed ⊢
  generalize (if rbGetReadSize rb > max then max else rbGetReadSize rb) = size at *
  by_cases nothing : size = 0
  · simp only [if_pos nothing]
  · simp only [if_neg nothing] at failed ⊢
    exact rbRead_of_failed failed

theorem rbCall_refused {rb' : RingBuffer} {call : RbCall} {answer : RbAnswer}
    (called : rbCall rb call = (answer, rb')) (refused : answer.refused) : rb' = rb := by
  obtain ⟨rfl, rfl⟩ := Prod.mk.inj called
  cases call with
  | write src => exact rbWrite_of_failed refused
  | read len => exact rbRead_of_failed refused
  | readUpto max => exact rbReadUpto_of_failed refused
  | getReadSize => rfl
  | getWriteSize => rfl

end refused

/-! ## Runs -/

/-- Every run of calls on a ring buffer is a run of the same calls, with the same answers, on a
queue. -/
theorem ringBuffer_run {cap : Nat} (positive : 1 ≤ cap) (small : cap < 2 ^ 31)
    {buffer : Nat → BitVec 8} {ops : List (RbCall × RbAnswer)} {rb : RingBuffer}
    (run : Run (Answers rbCall) (createRingBuffer buffer cap) ops rb) :
    ∃ queue : BoundedQueue (BitVec 8) (cap - 1),
      Run (Answers fifoCall) (.empty _ _) ops queue ∧ Stores rb cap queue.items ∧
        ∀ a, cap ≤ a → rb.buffer a = buffer a := by
  apply run.simulate fun rb (queue : BoundedQueue (BitVec 8) (cap - 1)) =>
    Stores rb cap queue.items ∧ ∀ a, cap ≤ a → rb.buffer a = buffer a
  · intro rb op rb' queue related called
    obtain ⟨queue', answered, stores', same⟩ := rbCall_stores related.1 called
    refine ⟨queue', answered, stores', ?_⟩
    intro a beyond
    rw [same a beyond, related.2 a beyond]
  · exact ⟨stores_createRingBuffer positive small, fun _ _ => rfl⟩

/-- A call on the driver's buffer is the call of `ringbuffer.c` on the same fields. -/
theorem sb16RbCall_ring {ctx ctx' : Sb16DrvContext} {call : RbCall} {answer : RbAnswer}
    (called : sb16RbCall ctx call = (answer, ctx')) :
    rbCall (Sb16.ring ctx) call = (answer, Sb16.ring ctx') := by
  cases call with
  | write src =>
    obtain ⟨rfl, rfl⟩ := Prod.mk.inj called
    rfl
  | read len =>
    obtain ⟨rfl, rfl⟩ := Prod.mk.inj called
    rfl
  | readUpto max =>
    obtain ⟨rfl, rfl⟩ := Prod.mk.inj called
    rfl
  | getReadSize =>
    obtain ⟨rfl, rfl⟩ := Prod.mk.inj called
    rfl
  | getWriteSize =>
    obtain ⟨rfl, rfl⟩ := Prod.mk.inj called
    rfl

theorem sb16_run {ctx ctx' : Sb16DrvContext} {ops : List (RbCall × RbAnswer)}
    (run : Run (Answers sb16RbCall) ctx ops ctx') :
    Run (Answers rbCall) (Sb16.ring ctx) ops (Sb16.ring ctx') := by
  have matched : ∀ ctx op ctx' rb, Sb16.ring ctx = rb → Answers sb16RbCall ctx op ctx' →
      ∃ rb', Answers rbCall rb op rb' ∧ Sb16.ring ctx' = rb' := by
    intro ctx op ctx' rb same called
    subst same
    exact ⟨_, sb16RbCall_ring called, rfl⟩
  obtain ⟨rb, run', same⟩ := run.simulate (fun ctx rb => Sb16.ring ctx = rb) matched rfl
  rwa [same]

/-- The state of a ring buffer in which `queue` waits: how much is stored and how much room is
left is what the routines report, the pointers are never at `0` and the capacity at once, and a
call that is refused changes nothing. -/
structure RingState (rb : RingBuffer) (cap : Nat) (queue : List (BitVec 8)) : Prop where
  stores : Stores rb cap queue
  readSize : rbGetReadSize rb = queue.length
  writeSize : rbGetWriteSize rb = cap - 1 - queue.length
  unambiguous : ¬ (rb.readPointer = 0 ∧ rb.writePointer = cap)
  refused : ∀ call answer rb', rbCall rb call = (answer, rb') → answer.refused → rb' = rb

theorem Stores.state {rb : RingBuffer} {cap : Nat} {queue : List (BitVec 8)}
    (stores : Stores rb cap queue) : RingState rb cap queue where
  stores := stores
  readSize := stores.readSize
  writeSize := stores.writeSize
  unambiguous := stores.holds.unambiguous
  refused := fun _ _ _ => rbCall_refused

/-- After any calls on a new ring buffer, the answers and the state are those of a queue of at
most `cap - 1` bytes; nothing outside its memory is written.  The same holds of the driver's
copy. -/
theorem ringBuffer_refines_queue {cap : Nat} (positive : 1 ≤ cap) (small : cap < 2 ^ 31)
    (buffer : Nat → BitVec 8) (ops : List (RbCall × RbAnswer)) :
    (∀ rb, Run (Answers rbCall) (createRingBuffer buffer cap) ops rb →
      ∃ queue : BoundedQueue (BitVec 8) (cap - 1),
        Run (Answers fifoCall) (.empty _ _) ops queue ∧ RingState rb cap queue.items ∧
          ∀ a, cap ≤ a → rb.buffer a = buffer a) ∧
    (∀ ctx, Run (Answers sb16RbCall) (Sb16.deviceInit buffer cap) ops ctx →
      ∃ queue : BoundedQueue (BitVec 8) (cap - 1),
        Run (Answers fifoCall) (.empty _ _) ops queue ∧
          RingState (Sb16.ring ctx) cap queue.items ∧
          ∀ a, cap ≤ a → ctx.audioBuffer a = buffer a) := by
  constructor
  · intro rb run
    obtain ⟨queue, run', stores, beyond⟩ := ringBuffer_run positive small run
    exact ⟨queue, run', stores.state, beyond⟩
  · intro ctx run
    obtain ⟨queue, run', stores, beyond⟩ := ringBuffer_run positive small (sb16_run run)
    exact ⟨queue, run', stores.state, beyond⟩

/-- A ring of four bytes takes three, refuses a fourth, and hands out the oldest two. -/
theorem ringBuffer_refines_queue_four :
    ∃ queue : BoundedQueue (BitVec 8) 3,
      Run (Answers fifoCall) (.empty _ _)
        [(.write [1, 2, 3], .status .sOk), (.write [4], .status .eBufferOverflow),
          (.read 2, .data .sOk [1, 2])] queue := by
  have run : Run (Answers rbCall) (createRingBuffer (fun _ => 0) 4)
      [(.write [1, 2, 3], .status .sOk), (.write [4], .status .eBufferOverflow),
        (.read 2, .data .sOk [1, 2])]
      (rbRead (rbWrite (createRingBuffer (fun _ => 0) 4) [1, 2, 3]).2 2).2.2 :=
    .cons rfl (.cons rfl (.cons rfl (.nil _)))
  obtain ⟨queue, run', -⟩ := (ringBuffer_refines_queue (by decide : 1 ≤ 4) (by decide)
    (fun _ => 0) _).1 _ run
  exact ⟨queue, run'⟩

end Antonix
