import Antonix.Drivers.Ps2Mouse
import Antonix.Lib.Bitmap
import Mathlib.Algebra.BigOperators.Group.List.Basic
import Mathlib.Algebra.Group.Prod
import Mathlib.Algebra.Ring.Int.Defs

/-! # What the mouse driver reports of a byte stream

`frames` says how a stream of bytes is cut into packets: a byte that cannot
start a packet (bit 3 clear) is skipped, and three bytes make a packet.
`streamEvents` says which events the packets stand for.  The interrupt handler
delivers exactly these events, all of them to every callback, and replaying
them gives back the buttons and the movement of the packets. -/

namespace Antonix

variable {κ : Type}

/-! ## Packets and their events -/

/-- Three bytes from the mouse. -/
structure MousePacket where
  first : BitVec 8
  second : BitVec 8
  third : BitVec 8
  deriving DecidableEq, Repr

namespace MousePacket

/-- Bits 0 to 2 of the first byte. -/
def buttons (packet : MousePacket) : MouseButton → Bool
  | .left => packet.first.getLsbD 0
  | .right => packet.first.getLsbD 1
  | .middle => packet.first.getLsbD 2
  | .button4 => false
  | .button5 => false

/-- The movement, as signed numbers of 9 bits whose top bits are in the first byte. -/
def delta (packet : MousePacket) : Int × Int :=
  ((BitVec.cons (packet.first.getLsbD 4) packet.second).toInt,
    (BitVec.cons (packet.first.getLsbD 5) packet.third).toInt)

end MousePacket

/-- The packets of a stream of bytes. -/
def frames : List (BitVec 8) → List MousePacket
  | first :: second :: third :: bytes =>
    if first.getLsbD 3 then ⟨first, second, third⟩ :: frames bytes
    else frames (second :: third :: bytes)
  | _ => []

/-- What an event says of the buttons. -/
def MouseEvent.apply (held : MouseButton → Bool) : MouseEvent → MouseButton → Bool
  | .buttonDown button => Function.update held button true
  | .buttonUp button => Function.update held button false
  | .movement _ _ | .scroll _ => held

/-- What an event says of the position. -/
def MouseEvent.delta : MouseEvent → Int × Int
  | .movement x y => (x, y)
  | .buttonDown _ | .buttonUp _ | .scroll _ => 0

def MouseEvent.isButton : MouseEvent → Bool
  | .buttonDown _ | .buttonUp _ => true
  | .movement _ _ | .scroll _ => false

def MouseEvent.isMovement : MouseEvent → Bool
  | .movement _ _ => true
  | .buttonDown _ | .buttonUp _ | .scroll _ => false

/-- The buttons after the events. -/
def replay (held : MouseButton → Bool) (events : List MouseEvent) : MouseButton → Bool :=
  events.foldl MouseEvent.apply held

/-- The sum of the movements. -/
def displacement (events : List MouseEvent) : Int × Int :=
  (events.map MouseEvent.delta).sum

def released : MouseButton → Bool := fun _ => false

/-- The transitions of the listed buttons. -/
def transitions (held new : MouseButton → Bool) (buttons : List MouseButton) : List MouseEvent :=
  (buttons.filter fun button => held button ≠ new button).map fun button =>
    if new button then .buttonDown button else .buttonUp button

/-- The movement event, if there is movement. -/
def motion (delta : Int × Int) : List MouseEvent :=
  if delta = 0 then [] else [.movement delta.1 delta.2]

/-- The events of a packet that finds these buttons held. -/
def packetEvents (held : MouseButton → Bool) (packet : MousePacket) : List MouseEvent :=
  transitions held packet.buttons MouseButton.all ++ motion packet.delta

/-- The events of a sequence of packets, packet by packet. -/
def streamEvents : (MouseButton → Bool) → List MousePacket → List (List MouseEvent)
  | _, [] => []
  | held, packet :: packets => packetEvents held packet :: streamEvents packet.buttons packets

/-! ## What the events of a packet say -/

theorem replay_append (held : MouseButton → Bool) (events more : List MouseEvent) :
    replay held (events ++ more) = replay (replay held events) more :=
  List.foldl_append

theorem displacement_append (events more : List MouseEvent) :
    displacement (events ++ more) = displacement events + displacement more := by
  simp [displacement]

theorem apply_transition (start new : MouseButton → Bool) (button : MouseButton) :
    (if new button then MouseEvent.buttonDown button else .buttonUp button).apply start =
      Function.update start button (new button) := by
  cases newState : new button <;> simp [MouseEvent.apply]

/-- Replaying the transitions of some buttons sets the buttons that differ. -/
theorem replay_transitions (held new : MouseButton → Bool) (buttons : List MouseButton) :
    ∀ (start : MouseButton → Bool) (button : MouseButton),
      replay start (transitions held new buttons) button =
        if button ∈ buttons ∧ held button ≠ new button then new button else start button := by
  induction buttons with
  | nil => simp [transitions, replay]
  | cons first buttons inductionHypothesis =>
    intro start button
    by_cases differs : held first = new first
    · have skipped : transitions held new (first :: buttons) = transitions held new buttons := by
        simp [transitions, differs]
      rw [skipped, inductionHypothesis]
      by_cases same : button = first
      · simp [same, differs]
      · simp [same]
    · have emitted : transitions held new (first :: buttons) =
          (if new first then .buttonDown first else .buttonUp first) ::
            transitions held new buttons := by
        simp [transitions, differs]
      rw [emitted]
      change replay (MouseEvent.apply start _) _ _ = _
      rw [apply_transition, inductionHypothesis]
      by_cases same : button = first
      · simp [same, differs]
      · simp [same]

theorem isButton_of_mem_transitions {held new : MouseButton → Bool} {buttons : List MouseButton}
    {event : MouseEvent} (member : event ∈ transitions held new buttons) :
    event.isButton = true := by
  obtain ⟨button, -, rfl⟩ := List.mem_map.mp member
  split <;> rfl

theorem isMovement_of_mem_motion {delta : Int × Int} {event : MouseEvent}
    (member : event ∈ motion delta) : event.isMovement = true := by
  rw [motion] at member
  split at member
  · contradiction
  · obtain rfl := List.mem_singleton.mp member
    rfl

theorem displacement_buttons {events : List MouseEvent}
    (buttons : ∀ event ∈ events, event.isButton = true) : displacement events = 0 := by
  refine List.sum_eq_zero fun delta member => ?_
  obtain ⟨event, isEvent, rfl⟩ := List.mem_map.mp member
  have isButton := buttons event isEvent
  cases event with
  | buttonDown button => rfl
  | buttonUp button => rfl
  | movement x y => contradiction
  | scroll amount => contradiction

theorem replay_motion (held : MouseButton → Bool) (delta : Int × Int) :
    replay held (motion delta) = held := by
  rw [motion]
  split <;> rfl

theorem displacement_motion (delta : Int × Int) : displacement (motion delta) = delta := by
  rw [motion]
  split
  · rename_i still
    simp [still, displacement]
  · simp [displacement, MouseEvent.delta]

/-- A packet's events lead from the buttons held to the packet's. -/
theorem replay_packetEvents (held : MouseButton → Bool) (packet : MousePacket) :
    replay held (packetEvents held packet) = packet.buttons := by
  funext button
  rw [packetEvents, replay_append, replay_motion, replay_transitions]
  by_cases differs : held button = packet.buttons button
  · simp [differs]
  · simp [differs, MouseButton.mem_all]

theorem displacement_packetEvents (held : MouseButton → Bool) (packet : MousePacket) :
    displacement (packetEvents held packet) = packet.delta := by
  rw [packetEvents, displacement_append, displacement_motion,
    displacement_buttons fun _ => isButton_of_mem_transitions, zero_add]

theorem packetEvents_unchanged {packet : MousePacket} (still : packet.delta = 0) :
    packetEvents packet.buttons packet = [] := by
  simp [packetEvents, transitions, motion, still]

/-! ## What the driver does with a packet -/

/-- Every callback is invoked with every event, event by event. -/
def invocations (callbacks : MouseCallbacks κ) (events : List MouseEvent) :
    List (κ × MouseEvent) :=
  events.flatMap fun event => callbacks.cbList.map fun cb => (cb, event)

theorem invocations_append (callbacks : MouseCallbacks κ) (events more : List MouseEvent) :
    invocations callbacks (events ++ more) =
      invocations callbacks events ++ invocations callbacks more :=
  List.flatMap_append

/-- The bytes of the context's packet are those of a packet. -/
def HoldsPacket (bytes : Nat → BitVec 8) (packet : MousePacket) : Prop :=
  bytes 0 = packet.first ∧ bytes 1 = packet.second ∧ bytes 2 = packet.third

/-- `byte >> n & 1` tests a bit. -/
theorem and_one_ne_zero_iff (byte : BitVec 8) (n : Nat) :
    (byte >>> n) &&& 1#8 ≠ 0#8 ↔ byte.getLsbD n = true := by
  rw [BitVec.and_one_eq_setWidth_ofBool_getLsbD, BitVec.getLsbD_ushiftRight, Nat.add_zero]
  cases byte.getLsbD n <;> decide

/-- A sign bit and a byte are a signed number of 9 bits. -/
theorem toInt_cons (sign : Bool) (byte : BitVec 8) :
    (BitVec.cons sign byte).toInt = if sign then (byte.toNat : Int) - 256 else byte.toNat := by
  rw [BitVec.toInt_eq_msb_cond, BitVec.msb_cons, BitVec.toNat_cons']
  cases sign with
  | false => simp
  | true =>
    simp only [if_true, Bool.toNat_true, Nat.shiftLeft_eq]
    omega

theorem mouseDecodePacket_packet {bytes : Nat → BitVec 8} {packet : MousePacket}
    (holds : HoldsPacket bytes packet) :
    mouseDecodePacket bytes 3 = (packet.delta.1, packet.delta.2, packet.buttons) := by
  obtain ⟨first, second, third⟩ := holds
  have bit (n : Nat) := and_one_ne_zero_iff packet.first n
  have bitZero := bit 0
  rw [BitVec.ushiftRight_zero] at bitZero
  simp only [mouseDecodePacket, first, second, third, bit, bitZero, MousePacket.delta, toInt_cons]
  rw [if_neg (by simp)]
  congr 2
  funext button
  cases button <;> simp [MousePacket.buttons]

/-- The loop over the buttons invokes the callbacks for the transitions. -/
theorem mouseButtonLoop_eq (context : Ps2MouseDrvContext κ) (new : MouseButton → Bool)
    (buttons : List MouseButton) :
    mouseButtonLoop context new buttons =
      (.sOk, invocations context.callbacks (transitions context.buttonState new buttons)) := by
  induction buttons with
  | nil => rfl
  | cons button buttons inductionHypothesis =>
    rw [mouseButtonLoop]
    by_cases differs : context.buttonState button = new button
    · simp [differs, inductionHypothesis, transitions]
    · simp [differs, inductionHypothesis, transitions, mouseEmitEvent, invocations,
        HResult.failed, HResult.succeeded]

theorem mouseParsePacket_eq {context : Ps2MouseDrvContext κ} {bytes : Nat → BitVec 8}
    {packet : MousePacket} (holds : HoldsPacket bytes packet) :
    mouseParsePacket context bytes 3 =
      (.sOk, invocations context.callbacks (packetEvents context.buttonState packet)) := by
  simp only [mouseParsePacket, mouseDecodePacket_packet holds, mouseButtonLoop_eq]
  rw [if_neg (by decide), packetEvents, invocations_append, motion]
  by_cases still : packet.delta = 0
  · simp [still, invocations]
  · have moved : packet.delta.1 ≠ 0 ∨ packet.delta.2 ≠ 0 := by
      by_contra neither
      exact still (by ext <;> simp_all)
    simp [still, moved, mouseEmitEvent, invocations, HResult.failed, HResult.succeeded]

/-! ## What the driver does with a stream -/

/-- The interrupts of a stream of bytes: the context at the end and all invocations. -/
def mouseRun (context : Ps2MouseDrvContext κ) :
    List MouseByte → Except Halt (Ps2MouseDrvContext κ × List (κ × MouseEvent))
  | [] => .ok (context, [])
  | byte :: bytes => do
    let (context, first) ← mouseIsr context byte.val
    let (context, rest) ← mouseRun context bytes
    .ok (context, first ++ rest)

theorem mouseRun_cons {context next last : Ps2MouseDrvContext κ} {byte : MouseByte}
    {bytes : List MouseByte} {log rest : List (κ × MouseEvent)}
    (isr : mouseIsr context byte.val = .ok (next, log))
    (later : mouseRun next bytes = .ok (last, rest)) :
    mouseRun context (byte :: bytes) = .ok (last, log ++ rest) := by
  simp only [mouseRun, isr, bind, Except.bind, later]

/-- `byte & 0x08` tests whether the byte can start a packet. -/
theorem and_eight_eq_zero_iff (byte : BitVec 8) :
    byte &&& 0x08#8 = 0#8 ↔ byte.getLsbD 3 = false := by
  have test : 3 ∈ Bitmap.bits (fun _ => byte) ↔ byte &&& 0x08#8 ≠ 0#8 :=
    Bitmap.mem_bits_iff_and (by decide)
  rw [← not_iff_not, ← Ne, ← test, Bitmap.mem_bits]
  simp

theorem mouseIsr_skip {context : Ps2MouseDrvContext κ} {byte : MouseByte}
    (fresh : context.readCounter = 0) (cannotStart : byte.val.data.getLsbD 3 = false) :
    mouseIsr context byte.val = .ok (context, []) := by
  have skipped := (and_eight_eq_zero_iff byte.val.data).mpr cannotStart
  rw [mouseIsr, if_neg byte.property]
  simp [fresh, skipped]

theorem mouseIsr_first {context : Ps2MouseDrvContext κ} {byte : MouseByte}
    (fresh : context.readCounter = 0) (starts : byte.val.data.getLsbD 3 = true) :
    mouseIsr context byte.val =
      .ok ({ context with
        readCounter := 1
        packet := Function.update context.packet 0 byte.val.data }, []) := by
  have taken : byte.val.data &&& 0x08#8 ≠ 0#8 := by
    rw [Ne, and_eight_eq_zero_iff, starts]
    decide
  rw [mouseIsr, if_neg byte.property]
  simp [fresh, taken, mouseIsrTail]

theorem mouseIsr_second {context : Ps2MouseDrvContext κ} {byte : MouseByte}
    (second : context.readCounter = 1) :
    mouseIsr context byte.val =
      .ok ({ context with
        readCounter := 2
        packet := Function.update context.packet 1 byte.val.data }, []) := by
  rw [mouseIsr, if_neg byte.property]
  simp [second, mouseIsrTail]

/-- The third byte completes a packet: its events are delivered and its buttons kept. -/
theorem mouseIsr_third {context : Ps2MouseDrvContext κ} {byte : MouseByte} {packet : MousePacket}
    (third : context.readCounter = 2)
    (holds : HoldsPacket (Function.update context.packet 2 byte.val.data) packet) :
    mouseIsr context byte.val =
      .ok ({ context with
        readCounter := 0
        packet := Function.update context.packet 2 byte.val.data
        buttonState := packet.buttons },
        invocations context.callbacks (packetEvents context.buttonState packet)) := by
  rw [mouseIsr, if_neg byte.property]
  simp [third, mouseIsrTail, mouseParsePacket_eq holds, mouseDecodePacket_packet holds,
    HResult.failed, HResult.succeeded]

/-- Three bytes of which the first can start a packet. -/
theorem mouseIsr_packet {context : Ps2MouseDrvContext κ} {first : MouseByte}
    (second third : MouseByte) (fresh : context.readCounter = 0)
    (starts : first.val.data.getLsbD 3 = true) :
    let packet : MousePacket := ⟨first.val.data, second.val.data, third.val.data⟩
    ∃ one two next : Ps2MouseDrvContext κ,
      mouseIsr context first.val = .ok (one, []) ∧ mouseIsr one second.val = .ok (two, []) ∧
      mouseIsr two third.val = .ok (next, invocations context.callbacks
        (packetEvents context.buttonState packet)) ∧
      next.readCounter = 0 ∧ next.callbacks = context.callbacks ∧
      next.buttonState = packet.buttons := by
  intro packet
  exact ⟨_, _, _, mouseIsr_first fresh starts, mouseIsr_second rfl,
    mouseIsr_third rfl ⟨rfl, rfl, rfl⟩, rfl, rfl, rfl⟩

/-- The handler never stops the machine, and delivers the events of the packets. -/
theorem mouseRun_eq : ∀ (stream : List MouseByte) (context : Ps2MouseDrvContext κ),
    context.readCounter = 0 →
    ∃ last, mouseRun context stream =
      .ok (last, invocations context.callbacks
        (streamEvents context.buttonState (frames (stream.map (·.val.data)))).flatten)
  | [], context, _ => ⟨context, rfl⟩
  | [first], context, fresh => by
    cases starts : first.val.data.getLsbD 3 with
    | true => exact ⟨_, mouseRun_cons (mouseIsr_first fresh starts) rfl⟩
    | false => exact ⟨_, mouseRun_cons (mouseIsr_skip fresh starts) rfl⟩
  | [first, second], context, fresh => by
    cases starts : first.val.data.getLsbD 3 with
    | true =>
      exact ⟨_, mouseRun_cons (mouseIsr_first fresh starts)
        (mouseRun_cons (mouseIsr_second rfl) rfl)⟩
    | false =>
      obtain ⟨last, later⟩ := mouseRun_eq [second] context fresh
      exact ⟨last, mouseRun_cons (mouseIsr_skip fresh starts) later⟩
  | first :: second :: third :: stream, context, fresh => by
    simp only [List.map_cons, frames]
    cases starts : first.val.data.getLsbD 3 with
    | true =>
      obtain ⟨one, two, next, firstStep, secondStep, thirdStep, freshNext, sameCallbacks, held⟩ :=
        mouseIsr_packet second third fresh starts
      obtain ⟨last, later⟩ := mouseRun_eq stream next freshNext
      have run := mouseRun_cons firstStep (mouseRun_cons secondStep (mouseRun_cons thirdStep later))
      refine ⟨last, ?_⟩
      rw [run, if_pos rfl, streamEvents, List.flatten_cons, invocations_append, sameCallbacks, held]
      rfl
    | false =>
      obtain ⟨last, later⟩ := mouseRun_eq (second :: third :: stream) context fresh
      refine ⟨last, ?_⟩
      rw [if_neg (by simp)]
      exact mouseRun_cons (mouseIsr_skip fresh starts) later

/-! ## The protocol -/

/-- The events that one callback gets. -/
def received [DecidableEq κ] (cb : κ) (log : List (κ × MouseEvent)) : List MouseEvent :=
  (log.filter fun invocation => invocation.1 = cb).map Prod.snd

/-- The buttons after the packets. -/
def lastButtons (held : MouseButton → Bool) (packets : List MousePacket) : MouseButton → Bool :=
  (packets.getLast?.map MousePacket.buttons).getD held

/-- The events emitted for each packet say what the packets say. -/
structure ReportsPackets (packets : List MousePacket) (groups : List (List MouseEvent)) :
    Prop where
  /-- One group of events for each packet. -/
  length : groups.length = packets.length
  /-- Replaying the events so far gives the buttons of the last packet. -/
  buttons : ∀ n ≤ packets.length,
    replay released (groups.take n).flatten = lastButtons released (packets.take n)
  /-- The movements add up. -/
  moved : displacement groups.flatten = (packets.map MousePacket.delta).sum
  /-- Transitions come before the movement. -/
  ordered : ∀ group ∈ groups, ∃ first second : List MouseEvent, group = first ++ second ∧
    (∀ event ∈ first, event.isButton) ∧ ∀ event ∈ second, event.isMovement
  /-- A packet that changes nothing emits nothing. -/
  quiet : ∀ n packet, packets[n]? = some packet → packet.delta = 0 →
    packet.buttons = lastButtons released (packets.take n) → groups[n]? = some []

theorem lastButtons_cons (held : MouseButton → Bool) (packet : MousePacket)
    (packets : List MousePacket) :
    lastButtons held (packet :: packets) = lastButtons packet.buttons packets := by
  cases packets with
  | nil => rfl
  | cons next packets => simp [lastButtons, List.getLast?_cons]

theorem length_streamEvents (held : MouseButton → Bool) (packets : List MousePacket) :
    (streamEvents held packets).length = packets.length := by
  induction packets generalizing held with
  | nil => rfl
  | cons packet packets inductionHypothesis => simp [streamEvents, inductionHypothesis]

theorem take_streamEvents (held : MouseButton → Bool) (packets : List MousePacket) (n : Nat) :
    (streamEvents held packets).take n = streamEvents held (packets.take n) := by
  induction packets generalizing held n with
  | nil => simp [streamEvents]
  | cons packet packets inductionHypothesis =>
    cases n with
    | zero => rfl
    | succ n => simp [streamEvents, inductionHypothesis]

theorem getElem_streamEvents (held : MouseButton → Bool) (packets : List MousePacket) (n : Nat) :
    (streamEvents held packets)[n]? =
      packets[n]?.map fun packet => packetEvents (lastButtons held (packets.take n)) packet := by
  induction packets generalizing held n with
  | nil => rfl
  | cons packet packets inductionHypothesis =>
    cases n with
    | zero => rfl
    | succ n => simp [streamEvents, inductionHypothesis, lastButtons_cons]

theorem replay_streamEvents (held : MouseButton → Bool) (packets : List MousePacket) :
    replay held (streamEvents held packets).flatten = lastButtons held packets := by
  induction packets generalizing held with
  | nil => rfl
  | cons packet packets inductionHypothesis =>
    rw [streamEvents, List.flatten_cons, replay_append, replay_packetEvents, inductionHypothesis,
      lastButtons_cons]

theorem displacement_streamEvents (held : MouseButton → Bool) (packets : List MousePacket) :
    displacement (streamEvents held packets).flatten =
      (packets.map MousePacket.delta).sum := by
  induction packets generalizing held with
  | nil => rfl
  | cons packet packets inductionHypothesis =>
    rw [streamEvents, List.flatten_cons, displacement_append, displacement_packetEvents,
      inductionHypothesis, List.map_cons, List.sum_cons]

theorem streamEvents_reports (packets : List MousePacket) :
    ReportsPackets packets (streamEvents released packets) where
  length := length_streamEvents released packets
  buttons n _ := by rw [take_streamEvents, replay_streamEvents]
  moved := displacement_streamEvents released packets
  ordered := by
    intro group member
    obtain ⟨n, atN⟩ := List.mem_iff_getElem?.mp member
    rw [getElem_streamEvents] at atN
    obtain ⟨packet, -, rfl⟩ := Option.map_eq_some_iff.mp atN
    exact ⟨_, _, rfl, fun _ => isButton_of_mem_transitions, fun _ => isMovement_of_mem_motion⟩
  quiet := by
    intro n packet atN still same
    rw [getElem_streamEvents, atN, ← same, Option.map_some, packetEvents_unchanged still]

/-- A registered callback is invoked once for an event. -/
theorem received_emitted [DecidableEq κ] (callbacks : MouseCallbacks κ) (cb : κ)
    (event : MouseEvent) :
    received cb (callbacks.cbList.map fun other => (other, event)) =
      if cb ∈ callbacks.cbList then [event] else [] := by
  have once : callbacks.cbList.count cb = if cb ∈ callbacks.cbList then 1 else 0 := by
    split
    · exact List.count_eq_one_of_mem callbacks.distinct ‹_›
    · exact List.count_eq_zero.mpr ‹_›
  simp only [received, List.filter_map, List.map_map]
  have same : (callbacks.cbList.filter ((fun invocation : κ × MouseEvent =>
      decide (invocation.1 = cb)) ∘ fun other => (other, event))) =
        List.replicate (callbacks.cbList.count cb) cb := by
    rw [← List.filter_beq]
    rfl
  rw [same, once]
  split <;> simp

/-- Every registered callback gets every event, once and in order. -/
theorem received_invocations [DecidableEq κ] (callbacks : MouseCallbacks κ) (cb : κ)
    (events : List MouseEvent) :
    received cb (invocations callbacks events) =
      if cb ∈ callbacks.cbList then events else [] := by
  induction events with
  | nil => simp [received, invocations]
  | cons event events inductionHypothesis =>
    have split_log : received cb (invocations callbacks (event :: events)) =
        received cb (callbacks.cbList.map fun other => (other, event)) ++
          received cb (invocations callbacks events) := by
      simp [received, invocations]
    rw [split_log, received_emitted, inductionHypothesis]
    split <;> simp

/-- For every stream of bytes and all callbacks: every callback gets the same events, and these
report the packets of the stream. -/
theorem mouse_reports_stream [DecidableEq κ] (callbacks : MouseCallbacks κ)
    (stream : List MouseByte) :
    ∃ last log groups, mouseRun (mouseInitContext callbacks) stream = .ok (last, log) ∧
      (∀ cb, received cb log = if cb ∈ callbacks.cbList then groups.flatten else []) ∧
      ReportsPackets (frames (stream.map (·.val.data))) groups := by
  obtain ⟨last, run⟩ := mouseRun_eq stream (mouseInitContext callbacks) rfl
  exact ⟨last, _, _, run, fun cb => received_invocations callbacks cb _,
    streamEvents_reports (frames (stream.map (·.val.data)))⟩

end Antonix
