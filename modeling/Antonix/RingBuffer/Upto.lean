import Mathlib.Logic.Function.Basic
import Antonix.RingBuffer.Refinement

/-! # `rb_read_upto` among other calls (`ringbuffer.c`)

`rb_read_upto` asks for the number of stored bytes and reads them under two
separate locks, and has told the caller the number before it reads.  Between the
two any other call may run.  What it tells is true as long as nobody takes bytes
that it has counted; with a single reader nobody does. -/

namespace Antonix

open Buffer Ring Transition
open Function (update update_self update_of_ne)

/-! ## The two halves of a call -/

/-- What `rb_read_upto` hands back: its status, `dst` and `actual_bytes`. -/
structure UptoResult where
  hr : HResult
  dst : List (BitVec 8)
  actualBytes : Nat
deriving DecidableEq

/-- `rb_read_upto` up to its read: it returns, or has stored a size in `actual_bytes`. -/
def rbReadUptoSize (rb : RingBuffer) (max : Nat) : Except UptoResult Nat :=
  let size := if rbGetReadSize rb > max then max else rbGetReadSize rb
  if size = 0 then .error ⟨.eBufferUnderflow, [], size⟩ else .ok size

/-- The rest of `rb_read_upto` for the size that it has stored. -/
def rbReadUptoRead (rb : RingBuffer) (size : Nat) : UptoResult × RingBuffer :=
  let (hr, dst, rb) := rbRead rb size
  (⟨hr, dst, size⟩, rb)

/-- Nothing comes in between when nobody else runs. -/
theorem rbReadUpto_eq_halves (rb : RingBuffer) (max : Nat) :
    rbReadUpto rb max =
      match rbReadUptoSize rb max with
      | .error result => (result.hr, result.dst, result.actualBytes, rb)
      | .ok size =>
        let (result, rb) := rbReadUptoRead rb size
        (result.hr, result.dst, result.actualBytes, rb) := by
  unfold rbReadUpto rbReadUptoSize
  generalize (if rbGetReadSize rb > max then max else rbGetReadSize rb) = size
  by_cases none : size = 0
  · simp only [if_pos none]
  · simp only [if_neg none]
    rfl

/-- With `n > 0` in `actual_bytes` the call is `S_OK` and `n` bytes are in `dst`; with nothing in
`dst` it is 0. -/
structure UptoResult.Truth (result : UptoResult) : Prop where
  delivered : 0 < result.actualBytes →
    result.hr = .sOk ∧ result.dst.length = result.actualBytes
  nothing : result.dst = [] → result.actualBytes = 0

/-! ## Any calls in any order -/

/-- A ring buffer, and the size that each call in progress has stored. -/
structure RbShared (τ : Type) where
  rb : RingBuffer
  stored : τ → Option Nat

/-- The locked steps of the calls; a thread is in one call at a time. -/
inductive RbStep (τ : Type) where
  | call (call : RbCall)
  | uptoSize (thread : τ) (max : Nat)
  | uptoRead (thread : τ)

section

variable {τ : Type} [DecidableEq τ]

inductive RbSharedStep (s : RbShared τ) : RbStep τ → RbShared τ → Prop
  /-- A call that takes its lock once. -/
  | call {call : RbCall} {answer : RbAnswer} {rb : RingBuffer}
      (single : ∀ max, call ≠ .readUpto max)
      (called : rbCall s.rb call = (answer, rb)) :
      RbSharedStep s (.call call) { s with rb := rb }
  | empty {thread : τ} {max : Nat} {result : UptoResult} (idle : s.stored thread = none)
      (returned : rbReadUptoSize s.rb max = .error result) :
      RbSharedStep s (.uptoSize thread max) s
  | size {thread : τ} {max size : Nat} (idle : s.stored thread = none)
      (stored : rbReadUptoSize s.rb max = .ok size) :
      RbSharedStep s (.uptoSize thread max) { s with stored := update s.stored thread (some size) }
  | read {thread : τ} {size : Nat} {result : UptoResult} {rb : RingBuffer}
      (stored : s.stored thread = some size) (returned : rbReadUptoRead s.rb size = (result, rb)) :
      RbSharedStep s (.uptoRead thread) ⟨rb, update s.stored thread none⟩

/-- A call of `rb_read_upto` that returns in this step tells the truth. -/
def TellsTruth (s : RbShared τ) : RbStep τ → Prop
  | .call _ => True
  | .uptoSize thread max => s.stored thread = none →
      ∀ result, rbReadUptoSize s.rb max = .error result → result.Truth
  | .uptoRead thread => ∀ size, s.stored thread = some size →
      (rbReadUptoRead s.rb size).1.Truth

/-- The bytes that a call has counted are still stored when it comes to read them. -/
def StillStored (s : RbShared τ) : RbStep τ → Prop
  | .call _ | .uptoSize _ _ => True
  | .uptoRead thread => ∀ size, s.stored thread = some size → size ≤ rbGetReadSize s.rb

theorem wellFormed_createRingBuffer {buffer : Nat → BitVec 8} {cap : Nat} (positive : 0 < cap)
    (small : cap < 2 ^ 32) : (createRingBuffer buffer cap).WellFormed where
  capacity := small
  read := Nat.zero_le cap
  write := Nat.zero_le cap
  spare := by simpa [createRingBuffer] using positive

namespace RingBuffer.WellFormed

variable {rb : RingBuffer} {src : List (BitVec 8)} {len : Nat}

/-- The write pointer may move on as far as there is room. -/
theorem moveWrite (wellFormed : rb.WellFormed) (buffer : Nat → BitVec 8) {write : Nat}
    (inside : write ≤ rb.bufferCapacity) (room : len ≤ rbGetWriteSize rb)
    (more : stored rb.bufferCapacity rb.readPointer write = rbGetReadSize rb + len) :
    RingBuffer.WellFormed { rb with buffer := buffer, writePointer := write } ∧
      rbGetReadSize rb ≤ rbGetReadSize { rb with buffer := buffer, writePointer := write } := by
  have free := wellFormed.writeSize
  have read := wellFormed.read
  have spare : write < rb.readPointer + rb.bufferCapacity := by
    unfold stored at more
    split at more <;> omega
  have moved : RingBuffer.WellFormed { rb with buffer := buffer, writePointer := write } :=
    ⟨wellFormed.capacity, read, inside, spare⟩
  refine ⟨moved, ?_⟩
  rw [moved.readSize, more]
  exact Nat.le_add_right _ _

/-- A write leaves at least as much as was stored. -/
theorem rbWrite (wellFormed : rb.WellFormed) (src : List (BitVec 8)) :
    (rbWrite rb src).2.WellFormed ∧ rbGetReadSize rb ≤ rbGetReadSize (rbWrite rb src).2 := by
  have free := wellFormed.writeSize
  have size := wellFormed.readSize
  have ⟨capacity, read, write, spare⟩ := wellFormed
  have segment : sub32 rb.bufferCapacity rb.writePointer = rb.bufferCapacity - rb.writePointer :=
    sub32_of_le write capacity
  unfold Antonix.rbWrite
  by_cases full : rbGetWriteSize rb < src.length
  · rw [if_pos full]
    exact ⟨wellFormed, Nat.le_refl _⟩
  · have room := Nat.le_of_not_lt full
    rw [if_neg full, segment]
    unfold stored at size
    by_cases wrap : src.length > rb.bufferCapacity - rb.writePointer
    · have second : sub32 src.length (rb.bufferCapacity - rb.writePointer) =
          src.length - (rb.bufferCapacity - rb.writePointer) :=
        sub32_of_le (by omega) (by omega)
      rw [if_pos wrap]
      dsimp only
      rw [second]
      -- a write that goes round ends before the read pointer
      have ahead : ¬rb.writePointer < rb.readPointer := by
        intro behind
        rw [if_pos behind] at size
        omega
      rw [if_neg ahead] at size
      have around : src.length - (rb.bufferCapacity - rb.writePointer) < rb.readPointer := by omega
      refine wellFormed.moveWrite _ (by omega) room ?_
      rw [stored, if_pos around]
      omega
    · have sum : u32 (rb.writePointer + src.length) = rb.writePointer + src.length :=
        u32_of_lt (by omega)
      rw [if_neg wrap, sum]
      refine wellFormed.moveWrite _ (by omega) room ?_
      rw [stored]
      split at size <;> split <;> omega

/-- A read of no more than is stored delivers that many bytes. -/
theorem rbRead_delivers (wellFormed : rb.WellFormed) (enough : len ≤ rbGetReadSize rb) :
    (rbRead rb len).1 = .sOk ∧ (rbRead rb len).2.1.length = len := by
  have size := wellFormed.readSize
  obtain ⟨capacity, read, write, spare⟩ := wellFormed
  unfold stored at size
  have small : len < 2 ^ 32 := by split at size <;> omega
  unfold Antonix.rbRead
  rw [if_neg (Nat.not_lt.mpr enough)]
  by_cases wrap : u32 (rb.readPointer + len) > rb.bufferCapacity
  · -- the sum did not overflow: it is behind the memory
    have behind : rb.readPointer + len > rb.bufferCapacity := by
      unfold u32 at wrap
      omega
    rw [if_pos wrap]
    refine ⟨rfl, ?_⟩
    have first : sub32 rb.bufferCapacity rb.readPointer = rb.bufferCapacity - rb.readPointer :=
      sub32_of_le read capacity
    have second : sub32 len (rb.bufferCapacity - rb.readPointer) =
        len - (rb.bufferCapacity - rb.readPointer) := sub32_of_le (by omega) small
    simp only [first, second, List.length_append, length_readAt]
    omega
  · rw [if_neg wrap]
    exact ⟨rfl, length_readAt⟩

theorem rbRead (wellFormed : rb.WellFormed) (len : Nat) : (rbRead rb len).2.2.WellFormed := by
  have size := wellFormed.readSize
  obtain ⟨capacity, read, write, spare⟩ := wellFormed
  unfold stored at size
  unfold Antonix.rbRead
  by_cases short : rbGetReadSize rb < len
  · rw [if_pos short]
    exact ⟨capacity, read, write, spare⟩
  · rw [if_neg short]
    have small : len < 2 ^ 32 := by split at size <;> omega
    by_cases wrap : u32 (rb.readPointer + len) > rb.bufferCapacity
    · have behind : rb.readPointer + len > rb.bufferCapacity := by
        unfold u32 at wrap
        omega
      have first : sub32 rb.bufferCapacity rb.readPointer = rb.bufferCapacity - rb.readPointer :=
        sub32_of_le read capacity
      have second : sub32 len (rb.bufferCapacity - rb.readPointer) =
          len - (rb.bufferCapacity - rb.readPointer) := sub32_of_le (by omega) small
      rw [if_pos wrap]
      dsimp only
      rw [first, second]
      refine ⟨capacity, ?_, write, ?_⟩ <;> dsimp only <;> split at size <;> omega
    · rw [if_neg wrap]
      refine ⟨capacity, Nat.le_of_not_lt wrap, write, ?_⟩
      unfold u32
      dsimp only
      split at size <;> omega

theorem rbCall {call : RbCall} {answer : RbAnswer} {rb' : RingBuffer} (wellFormed : rb.WellFormed)
    (single : ∀ max, call ≠ .readUpto max) (called : rbCall rb call = (answer, rb')) :
    rb'.WellFormed := by
  cases call with
  | write src =>
    cases called
    exact (wellFormed.rbWrite src).1
  | read len =>
    cases called
    exact wellFormed.rbRead len
  | readUpto max => exact absurd rfl (single max)
  | getReadSize | getWriteSize =>
    cases called
    exact wellFormed

end RingBuffer.WellFormed

/-! ## What the calls tell -/

/-- The ring buffer is well formed, and no call in progress has counted nothing. -/
structure SharedValid (s : RbShared τ) : Prop where
  wellFormed : s.rb.WellFormed
  counted : ∀ thread size, s.stored thread = some size → 0 < size

theorem rbReadUptoSize_eq_ok {rb : RingBuffer} {max size : Nat}
    (counted : rbReadUptoSize rb max = .ok size) : 0 < size ∧ size ≤ rbGetReadSize rb := by
  unfold rbReadUptoSize at counted
  by_cases more : rbGetReadSize rb > max
  · simp only [if_pos more] at counted
    split at counted
    · cases counted
    · cases counted
      omega
  · simp only [if_neg more] at counted
    split at counted
    · cases counted
    · cases counted
      omega

/-- A call that returns early has delivered nothing and says so. -/
theorem rbReadUptoSize_truth {rb : RingBuffer} {max : Nat} {result : UptoResult}
    (returned : rbReadUptoSize rb max = .error result) : result.Truth := by
  unfold rbReadUptoSize at returned
  generalize (if rbGetReadSize rb > max then max else rbGetReadSize rb) = size at returned
  by_cases none : size = 0
  · simp only [if_pos none] at returned
    cases returned
    exact ⟨fun some => absurd none (Nat.ne_of_gt some), fun _ => none⟩
  · simp only [if_neg none] at returned
    cases returned

/-- A read tells the truth where the bytes that were counted are stored, and nowhere else. -/
theorem rbReadUptoRead_truth_iff {rb : RingBuffer} {size : Nat} (wellFormed : rb.WellFormed)
    (counted : 0 < size) :
    (rbReadUptoRead rb size).1.Truth ↔ size ≤ rbGetReadSize rb := by
  constructor
  · intro truth
    by_contra short
    have refused : rbRead rb size = (.eBufferUnderflow, [], rb) := by
      rw [rbRead, if_pos (Nat.lt_of_not_le short)]
    have status : (rbReadUptoRead rb size).1.hr = .sOk := (truth.delivered counted).1
    rw [rbReadUptoRead, refused] at status
    cases status
  · intro enough
    have delivers := wellFormed.rbRead_delivers enough
    refine ⟨fun _ => delivers, fun nothing => ?_⟩
    have length : (rbReadUptoRead rb size).1.dst.length = size := delivers.2
    rw [nothing] at length
    exact length.symm

theorem SharedValid.step {s t : RbShared τ} {op : RbStep τ} (valid : SharedValid s)
    (step : RbSharedStep s op t) : SharedValid t := by
  obtain ⟨wellFormed, counted⟩ := valid
  cases step with
  | call single called => exact ⟨wellFormed.rbCall single called, counted⟩
  | empty => exact ⟨wellFormed, counted⟩
  | @size thread max size idle stored =>
    refine ⟨wellFormed, fun other count is => ?_⟩
    dsimp only at is
    by_cases same : other = thread
    · subst same
      rw [update_self] at is
      cases is
      exact (rbReadUptoSize_eq_ok stored).1
    · rw [update_of_ne same] at is
      exact counted other count is
  | @read thread size result rb stored returned =>
    have left : rb = (rbRead s.rb size).2.2 := congrArg Prod.snd returned.symm
    refine ⟨left ▸ wellFormed.rbRead size, fun other count is => ?_⟩
    dsimp only at is
    by_cases same : other = thread
    · subst same
      rw [update_self] at is
      cases is
    · rw [update_of_ne same] at is
      exact counted other count is

theorem tellsTruth_iff {s : RbShared τ} {op : RbStep τ} (valid : SharedValid s) :
    TellsTruth s op ↔ StillStored s op := by
  cases op with
  | call call => exact Iff.rfl
  | uptoSize thread max =>
    exact ⟨fun _ => trivial, fun _ _ _ returned => rbReadUptoSize_truth returned⟩
  | uptoRead thread =>
    apply forall_congr'
    intro size
    apply imp_congr_right
    intro stored
    exact rbReadUptoRead_truth_iff valid.wellFormed (valid.counted thread size stored)

theorem sharedValid_idle {rb : RingBuffer} (wellFormed : rb.WellFormed) :
    SharedValid (⟨rb, fun _ => none⟩ : RbShared τ) :=
  ⟨wellFormed, fun _ _ is => by cases is⟩

/-- A step of a thread that alone reads, or of one that does not read. -/
def OneReader (reader : τ) : RbStep τ → Prop
  | .call call => ∀ len, call ≠ .read len
  | .uptoSize thread _ | .uptoRead thread => thread = reader

/-- With a single reader every call tells the truth. -/
theorem rbReadUpto_oneReader {rb : RingBuffer} (wellFormed : rb.WellFormed) {reader : τ}
    {ops : List (RbStep τ)} (one : ∀ op ∈ ops, OneReader reader op) :
    Along RbSharedStep TellsTruth ⟨rb, fun _ => none⟩ ops := by
  apply Along.of_inv
    (fun s => SharedValid s ∧ ∀ size, s.stored reader = some size → size ≤ rbGetReadSize s.rb) one
  · intro s op ⟨valid, enough⟩ own
    apply (tellsTruth_iff valid).mpr
    cases op with
    | call call => trivial
    | uptoSize thread max => trivial
    | uptoRead thread =>
      cases own
      exact enough
  · intro s op t ⟨valid, enough⟩ own step
    refine ⟨valid.step step, ?_⟩
    intro size is
    cases step with
    | @call call answer rb single called =>
      have before := enough size is
      cases call with
      | write src =>
        cases called
        exact Nat.le_trans before (valid.wellFormed.rbWrite src).2
      | read len => exact absurd rfl (own len)
      | readUpto max => exact absurd rfl (single max)
      | getReadSize | getWriteSize =>
        cases called
        exact before
    | empty => exact enough size is
    | @size thread max count idle stored =>
      cases own
      dsimp only at is
      rw [update_self] at is
      cases is
      exact (rbReadUptoSize_eq_ok stored).2
    | read stored returned =>
      cases own
      dsimp only at is
      rw [update_self] at is
      cases is
  · exact ⟨sharedValid_idle wellFormed, fun _ is => by cases is⟩

/-- The calls of any threads tell the truth along exactly those sequences of steps in which
nobody takes what a call in progress has counted. -/
theorem rbReadUpto_truth_iff {rb : RingBuffer} (wellFormed : rb.WellFormed)
    (ops : List (RbStep τ)) :
    Along RbSharedStep TellsTruth ⟨rb, fun _ => none⟩ ops ↔
      Along RbSharedStep StillStored ⟨rb, fun _ => none⟩ ops :=
  Along.iff_of_inv SharedValid (fun _ _ => trivial) (fun _ _ valid _ => tellsTruth_iff valid)
    (fun _ _ _ valid _ _ step => valid.step step) (sharedValid_idle wellFormed)

end

/-- A thread that has the ring buffer to itself. -/
theorem rbReadUpto_truth_iff_alone :
    Along RbSharedStep TellsTruth ⟨createRingBuffer (fun _ => 0) 2, fun _ : Nat => none⟩
        [.uptoSize 0 1] ↔
      Along RbSharedStep StillStored ⟨createRingBuffer (fun _ => 0) 2, fun _ : Nat => none⟩
        [.uptoSize 0 1] :=
  rbReadUpto_truth_iff (wellFormed_createRingBuffer (by decide) (by decide)) _

/-- Two readers count the only byte before either of them reads it. -/
theorem rbReadUpto_not_truth :
    ¬∀ ops : List (RbStep Nat),
      Along RbSharedStep TellsTruth ⟨createRingBuffer (fun _ => 0) 2, fun _ => none⟩ ops := by
  intro truth
  have along := truth
    [.call (.write [7]), .uptoSize 0 1, .uptoSize 1 1, .uptoRead 0, .uptoRead 1]
  have written := along.2 _ (.call (fun _ => RbCall.noConfusion) rfl)
  have counted := written.2 _ (.size rfl rfl)
  have twice := counted.2 _ (.size rfl rfl)
  have taken := twice.2 _ (.read rfl rfl)
  have told := taken.1 1 rfl
  exact absurd (told.delivered Nat.one_pos).1 (by decide)

end Antonix
