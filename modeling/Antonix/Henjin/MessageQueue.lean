import Antonix.RingBuffer.Refinement

/-! # Message queues of windows (`henjin_control.c`)

A deferred control keeps its messages in a ring buffer of 512 message sizes.  The
ring holds one byte less than that, so 511 messages fit.  `message_lock` makes each
call atomic and is left out, as is what `hj_control_init` sets besides the queue. -/

namespace Antonix.Henjin

open Ring Transition

/-- `sizeof(HJ_MESSAGE)`: the type and, at its largest, a rectangle with a pointer. -/
abbrev sizeofHjMessage : Nat := 4 + (16 + 4)

/-- `MESSAGE_QUEUE_SIZE` -/
abbrev messageQueueSize : Nat := 512 * sizeofHjMessage

/-- `HJ_MESSAGE`, byte by byte. -/
structure HjMessage where
  bytes : List (BitVec 8)
  size : bytes.length = sizeofHjMessage

/-- `HJ_CONTROL_TYPE` -/
inductive HjControlType where
  | deferred
  | immediate
  deriving DecidableEq

/-- `HJ_CONTROL`, the part that handles messages.  The dispatcher is optional and reports
whether it has dispatched the message. -/
structure HjControl where
  type : HjControlType
  messageQueue : RingBuffer
  messageHandler : HjMessage → HResult
  messageDispatcher : Option (HjMessage → HResult × Bool)

/-- `hj_control_init`.  `memory` is what `kmalloc` returns for the queue, `stale` what the field
held before. -/
def hjControlInit (type : HjControlType) (msgHandler : HjMessage → HResult)
    (dispatcher : Option (HjMessage → HResult × Bool)) (memory : Option (Nat → BitVec 8))
    (stale : RingBuffer) : HResult × HjControl :=
  let ctrl : HjControl :=
    { type := type
      messageQueue := stale
      messageHandler := msgHandler
      messageDispatcher := dispatcher }
  match type, memory with
  | .immediate, _ => (.sOk, ctrl)
  | .deferred, none => (.eOutOfMem, ctrl)
  | .deferred, some buffer =>
    (.sOk, { ctrl with messageQueue := createRingBuffer buffer messageQueueSize })

/-- `hj_process_message` -/
def hjProcessMessage (control : HjControl) (msg : HjMessage) : HResult :=
  match control.messageDispatcher with
  | none => control.messageHandler msg
  | some dispatcher =>
    let (hr, dispatched) := dispatcher msg
    if hr.failed then hr
    else if dispatched then hr
    else control.messageHandler msg

/-- `hj_queue_message` -/
def hjQueueMessage (control : HjControl) (msg : HjMessage) : HResult × HjControl :=
  if control.type = .immediate then (hjProcessMessage control msg, control)
  else if rbGetWriteSize control.messageQueue < sizeofHjMessage then (.eBufferOverflow, control)
  else
    let (hr, messageQueue) := rbWrite control.messageQueue msg.bytes
    (hr, { control with messageQueue := messageQueue })

/-- `hj_get_message`, with the bytes that it copies to `msg`. -/
def hjGetMessage (control : HjControl) : HResult × List (BitVec 8) × HjControl :=
  if control.type = .immediate then (.eFail, [], control)
  else if rbGetReadSize control.messageQueue < sizeofHjMessage then
    (.eBufferUnderflow, [], control)
  else
    let (hr, msg, messageQueue) := rbRead control.messageQueue sizeofHjMessage
    (hr, msg, { control with messageQueue := messageQueue })

/-! ## Calls -/

/-- The calls on a control. -/
inductive HjCall where
  | queueMessage (msg : HjMessage)
  | getMessage

/-- What a call hands back. -/
inductive HjAnswer where
  | status (hr : HResult)
  | message (hr : HResult) (msg : List (BitVec 8))

/-- The call was refused, or there was nothing to get. -/
def HjAnswer.refused : HjAnswer → Prop
  | .status hr | .message hr _ => hr.failed

def hjCall (control : HjControl) : HjCall → HjAnswer × HjControl
  | .queueMessage msg =>
    let (hr, control) := hjQueueMessage control msg
    (.status hr, control)
  | .getMessage =>
    let (hr, msg, control) := hjGetMessage control
    (.message hr msg, control)

/-- The same calls on a queue of messages. -/
def mailboxCall {capacity : Nat} (queue : BoundedQueue HjMessage capacity) :
    HjCall → HjAnswer × BoundedQueue HjMessage capacity
  | .queueMessage msg =>
    match queue.push [msg] with
    | some queue' => (.status .sOk, queue')
    | none => (.status .eBufferOverflow, queue)
  | .getMessage =>
    match queue.popUpto 1 with
    | ([], _) => (.message .eBufferUnderflow [], queue)
    | (msg :: _, queue') => (.message .sOk msg.bytes, queue')

/-- The message of a call of `hj_queue_message` that succeeded. -/
def accepted : HjCall × HjAnswer → List (List (BitVec 8))
  | (.queueMessage msg, .status .sOk) => [msg.bytes]
  | _ => []

/-- The message that a call of `hj_get_message` returned. -/
def delivered : HjCall × HjAnswer → List (List (BitVec 8))
  | (.getMessage, .message .sOk msg) => [msg]
  | _ => []

/-- A mailbox hands out what it has accepted, in order. -/
theorem mailboxCall_kept {capacity : Nat} {queue queue' : BoundedQueue HjMessage capacity}
    {op : HjCall × HjAnswer} (called : Answers mailboxCall queue op queue') :
    queue.items.map HjMessage.bytes ++ accepted op =
      delivered op ++ queue'.items.map HjMessage.bytes := by
  obtain ⟨call, answer⟩ := op
  simp only [Answers] at called
  cases call with
  | queueMessage msg =>
    cases pushed : queue.push [msg] with
    | none =>
      simp only [mailboxCall, pushed] at called
      obtain ⟨rfl, rfl⟩ := Prod.mk.inj called
      simp [accepted, delivered]
    | some longer =>
      simp only [mailboxCall, pushed] at called
      obtain ⟨rfl, rfl⟩ := Prod.mk.inj called
      simp [accepted, delivered, (BoundedQueue.push_eq_some.mp pushed).2]
  | getMessage =>
    simp only [mailboxCall, BoundedQueue.popUpto] at called
    cases waiting : queue.items with
    | nil =>
      simp only [waiting, List.take_nil] at called
      obtain ⟨rfl, rfl⟩ := Prod.mk.inj called
      simp [accepted, delivered, waiting]
    | cons msg rest =>
      simp only [waiting, List.take_succ_cons, List.take_zero] at called
      obtain ⟨rfl, rfl⟩ := Prod.mk.inj called
      simp [accepted, delivered]

/-! ## The ring buffer of a control -/

section

variable {msgs : List HjMessage} {msg : HjMessage}

theorem length_flatMap_bytes :
    (msgs.flatMap HjMessage.bytes).length = sizeofHjMessage * msgs.length := by
  induction msgs with
  | nil => rfl
  | cons msg rest inductionHypothesis =>
    rw [List.flatMap_cons, List.length_append, inductionHypothesis, msg.size, List.length_cons,
      Nat.mul_succ, Nat.add_comm]

theorem take_flatMap_bytes :
    ((msg :: msgs).flatMap HjMessage.bytes).take sizeofHjMessage = msg.bytes := by
  rw [List.flatMap_cons, List.take_append_of_le_length (Nat.le_of_eq msg.size.symm),
    ← msg.size, List.take_length]

theorem drop_flatMap_bytes :
    ((msg :: msgs).flatMap HjMessage.bytes).drop sizeofHjMessage =
      msgs.flatMap HjMessage.bytes := by
  rw [List.flatMap_cons, ← msg.size, List.drop_left]

end

/-- A deferred control whose ring buffer holds the messages `msgs`, whole and in order. -/
structure Pending (control : HjControl) (msgs : List HjMessage) : Prop where
  deferred : control.type = .deferred
  stores : Stores control.messageQueue messageQueueSize (msgs.flatMap HjMessage.bytes)

section

variable {control control' : HjControl} {msgs : List HjMessage}

/-- The number of stored bytes is a multiple of the message size. -/
theorem Pending.readSize (pending : Pending control msgs) :
    rbGetReadSize control.messageQueue = sizeofHjMessage * msgs.length := by
  rw [pending.stores.readSize, length_flatMap_bytes]

theorem Pending.writeSize (pending : Pending control msgs) :
    rbGetWriteSize control.messageQueue =
      messageQueueSize - 1 - sizeofHjMessage * msgs.length := by
  rw [pending.stores.writeSize, length_flatMap_bytes]

theorem Pending.notImmediate (pending : Pending control msgs) : control.type ≠ .immediate := by
  rw [pending.deferred]
  exact fun same => HjControlType.noConfusion same

/-- A message is refused exactly when 511 are pending. -/
theorem Pending.queueMessage_full (pending : Pending control msgs) (msg : HjMessage)
    (full : 511 ≤ msgs.length) : hjQueueMessage control msg = (.eBufferOverflow, control) := by
  have small : rbGetWriteSize control.messageQueue < sizeofHjMessage := by
    rw [pending.writeSize]
    simp only [messageQueueSize, sizeofHjMessage]
    omega
  rw [hjQueueMessage, if_neg pending.notImmediate, if_pos small]

theorem Pending.queueMessage_room (pending : Pending control msgs) (msg : HjMessage)
    (room : msgs.length < 511) :
    ∃ control', hjQueueMessage control msg = (.sOk, control') ∧
      Pending control' (msgs ++ [msg]) := by
  have large : ¬ rbGetWriteSize control.messageQueue < sizeofHjMessage := by
    rw [pending.writeSize]
    simp only [messageQueueSize, sizeofHjMessage]
    omega
  have fits : (msgs.flatMap HjMessage.bytes).length + msg.bytes.length < messageQueueSize := by
    rw [length_flatMap_bytes, msg.size]
    simp only [messageQueueSize, sizeofHjMessage]
    omega
  -- so the inner call of `rb_write` is not refused
  have written := pending.stores.written fits
  rw [hjQueueMessage, if_neg pending.notImmediate, if_neg large, pending.stores.rbWrite_eq fits]
  refine ⟨_, rfl, pending.deferred, ?_⟩
  rw [List.flatMap_append, List.flatMap_singleton]
  exact written

theorem Pending.getMessage_nil (pending : Pending control []) :
    hjGetMessage control = (.eBufferUnderflow, [], control) := by
  have nothing : rbGetReadSize control.messageQueue < sizeofHjMessage := by
    rw [pending.readSize]
    decide
  rw [hjGetMessage, if_neg pending.notImmediate, if_pos nothing]

theorem Pending.getMessage_cons {msg : HjMessage} (pending : Pending control (msg :: msgs)) :
    ∃ control', hjGetMessage control = (.sOk, msg.bytes, control') ∧ Pending control' msgs := by
  have enough : sizeofHjMessage ≤ ((msg :: msgs).flatMap HjMessage.bytes).length := by
    rw [length_flatMap_bytes, List.length_cons, Nat.mul_succ]
    exact Nat.le_add_left _ _
  have some : ¬ rbGetReadSize control.messageQueue < sizeofHjMessage := by
    rw [pending.stores.readSize]
    omega
  -- the bytes at the front of the ring are those of the first message
  have consumed := pending.stores.consumed enough
  rw [drop_flatMap_bytes] at consumed
  rw [hjGetMessage, if_neg pending.notImmediate, if_neg some, pending.stores.rbRead_eq enough,
    pending.stores.holds.take enough, take_flatMap_bytes]
  exact ⟨_, rfl, pending.deferred, consumed⟩

/-- One call on a control is the same call on the queue of its pending messages. -/
theorem hjCall_pending {queue : BoundedQueue HjMessage 511} {call : HjCall} {answer : HjAnswer}
    (pending : Pending control queue.items) (called : hjCall control call = (answer, control')) :
    ∃ queue', mailboxCall queue call = (answer, queue') ∧ Pending control' queue'.items := by
  have bounded := queue.bounded
  cases call with
  | queueMessage msg =>
    by_cases room : queue.items.length < 511
    · obtain ⟨after, queued, pending'⟩ := pending.queueMessage_room msg room
      obtain ⟨rfl, rfl⟩ : _ ∧ _ := by simpa [hjCall, queued] using called
      cases pushed : queue.push [msg] with
      | none =>
        rw [BoundedQueue.push_eq_none, List.length_singleton] at pushed
        omega
      | some queue' =>
        refine ⟨queue', by simp [mailboxCall, pushed], ?_⟩
        rw [(BoundedQueue.push_eq_some.mp pushed).2]
        exact pending'
    · have full := pending.queueMessage_full msg (Nat.not_lt.mp room)
      obtain ⟨rfl, rfl⟩ : _ ∧ _ := by simpa [hjCall, full] using called
      have refused : queue.push [msg] = none := by
        rw [BoundedQueue.push_eq_none, List.length_singleton]
        omega
      exact ⟨queue, by simp [mailboxCall, refused], pending⟩
  | getMessage =>
    cases waiting : queue.items with
    | nil =>
      have nothing := (waiting ▸ pending).getMessage_nil
      obtain ⟨rfl, rfl⟩ : _ ∧ _ := by simpa [hjCall, nothing] using called
      exact ⟨queue, by simp [mailboxCall, BoundedQueue.popUpto, waiting], pending⟩
    | cons msg rest =>
      rw [waiting] at pending
      obtain ⟨after, got, pending'⟩ := pending.getMessage_cons
      obtain ⟨rfl, rfl⟩ : _ ∧ _ := by simpa [hjCall, got] using called
      refine ⟨(queue.popUpto 1).2, by simp [mailboxCall, BoundedQueue.popUpto, waiting], ?_⟩
      simpa [BoundedQueue.popUpto, waiting] using pending'

/-- A call that is refused changes nothing. -/
theorem hjCall_refused {call : HjCall} {answer : HjAnswer}
    (called : hjCall control call = (answer, control')) (refused : answer.refused) :
    control' = control := by
  obtain ⟨rfl, rfl⟩ := Prod.mk.inj called
  cases call with
  | queueMessage msg =>
    change (hjQueueMessage control msg).1.failed at refused
    change (hjQueueMessage control msg).2 = control
    unfold hjQueueMessage at refused ⊢
    split
    · rfl
    · split
      · rfl
      · rename_i deferred room
        rw [if_neg deferred, if_neg room] at refused
        have same := rbWrite_of_failed refused
        simp only [same]
  | getMessage =>
    change (hjGetMessage control).1.failed at refused
    change (hjGetMessage control).2.2 = control
    unfold hjGetMessage at refused ⊢
    split
    · rfl
    · split
      · rfl
      · rename_i deferred some
        rw [if_neg deferred, if_neg some] at refused
        have same := rbRead_of_failed refused
        simp only [same]

end

/-! ## Runs -/

/-- After any calls on a deferred control: the calls had the answers of a queue of at most 511
messages; what was accepted is what was delivered, whole and in order, and then what is still
pending; a message is refused exactly when 511 are pending; a refused call changes nothing;
the ring buffer holds whole messages. -/
theorem hjControl_delivers {msgHandler : HjMessage → HResult}
    {dispatcher : Option (HjMessage → HResult × Bool)} {buffer : Nat → BitVec 8}
    {stale : RingBuffer} {ops : List (HjCall × HjAnswer)} {control : HjControl}
    (run : Run (Answers hjCall)
      (hjControlInit .deferred msgHandler dispatcher (some buffer) stale).2 ops control) :
    ∃ pending : BoundedQueue HjMessage 511,
      Run (Answers mailboxCall) (.empty _ _) ops pending ∧
      ops.flatMap accepted = ops.flatMap delivered ++ pending.items.map HjMessage.bytes ∧
      (∀ msg, (hjQueueMessage control msg).1 = .eBufferOverflow ↔ pending.items.length = 511) ∧
      (∀ call answer control', hjCall control call = (answer, control') → answer.refused →
        control' = control) ∧
      rbGetReadSize control.messageQueue = sizeofHjMessage * pending.items.length := by
  have start : Pending (hjControlInit .deferred msgHandler dispatcher (some buffer) stale).2
      (BoundedQueue.empty HjMessage 511).items :=
    { deferred := rfl
      stores := stores_createRingBuffer (by decide) (by decide) }
  have matched : ∀ (control : HjControl) op control' (queue : BoundedQueue HjMessage 511),
      Pending control queue.items → Answers hjCall control op control' →
      ∃ queue', Answers mailboxCall queue op queue' ∧ Pending control' queue'.items :=
    fun _ _ _ _ => hjCall_pending
  obtain ⟨queue, run', pending⟩ := run.simulate
    (fun control (queue : BoundedQueue HjMessage 511) => Pending control queue.items) matched start
  refine ⟨queue, run', ?_, ?_, fun _ _ _ => hjCall_refused, pending.readSize⟩
  · have kept := run'.conserve (fun queue => queue.items.map HjMessage.bytes)
      fun _ _ _ => mailboxCall_kept
    simpa using kept
  · -- the ring buffer refuses a message when less than one fits
    intro msg
    have bounded := queue.bounded
    by_cases room : queue.items.length < 511
    · obtain ⟨after, queued, -⟩ := pending.queueMessage_room msg room
      rw [queued]
      constructor
      · intro same
        contradiction
      · omega
    · rw [pending.queueMessage_full msg (Nat.not_lt.mp room)]
      constructor
      · omega
      · intro _
        rfl

/-- One message goes in and comes out again; then there is nothing to get. -/
theorem hjControl_delivers_one :
    ∃ pending : BoundedQueue HjMessage 511,
      Run (Answers mailboxCall) (.empty _ _)
        [(.queueMessage ⟨List.replicate 24 7, rfl⟩, .status .sOk),
          (.getMessage, .message .sOk (List.replicate 24 7)),
          (.getMessage, .message .eBufferUnderflow [])] pending := by
  have run : Run (Answers hjCall)
      (hjControlInit .deferred (fun _ => .sOk) none (some fun _ => 0)
        (createRingBuffer (fun _ => 0) 1)).2
      [(.queueMessage ⟨List.replicate 24 7, rfl⟩, .status .sOk),
        (.getMessage, .message .sOk (List.replicate 24 7)),
        (.getMessage, .message .eBufferUnderflow [])] _ :=
    .cons rfl (.cons rfl (.cons rfl (.nil _)))
  obtain ⟨pending, run', -⟩ := hjControl_delivers run
  exact ⟨pending, run'⟩

end Antonix.Henjin
