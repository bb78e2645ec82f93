import Antonix.Henjin.MouseEvents
import Antonix.Drivers.MouseStream

/-! # The desktop's messages about the mouse

Every event but scrolling should become one message, in order, with the position
of the pointer and, for a button, the button.  `reports` lists what the messages
should say; `Conveys` compares a message with it.

The server leaves out the button of a button-down message, so that it always
says the left one, and a message has 16 bits for each coordinate.  `Fits` is
what the events must be for the messages to be right. -/

namespace Antonix.Henjin

open LittleEndian Ring Transition

/-- Everything on the right of a relation between lists has a partner on the left. -/
theorem exists_of_forall₂ {α β : Type} {R : α → β → Prop} {as : List α} {bs : List β}
    (related : List.Forall₂ R as bs) {b : β} (member : b ∈ bs) : ∃ a ∈ as, R a b := by
  induction related with
  | nil => contradiction
  | @cons first second as bs here _ inductionHypothesis =>
    cases member with
    | head => exact ⟨first, List.mem_cons_self, here⟩
    | tail _ later =>
      obtain ⟨a, isThere, holds⟩ := inductionHypothesis later
      exact ⟨a, List.mem_cons_of_mem _ isThere, holds⟩

/-! ## What the messages should say -/

/-- What the desktop should be told: an event, and where the pointer is then. -/
structure MouseReport where
  event : MouseEvent
  pointer : NxgiPoint

/-- The pointer moves by `(+x, -y)` and stays on the screen. -/
def pointerAfter (screen : NxgiRect) (pos : NxgiPoint) : MouseEvent → NxgiPoint
  | .movement x y =>
    { x := clampTo screen.x1 screen.x2 (pos.x + x)
      y := clampTo screen.y1 screen.y2 (pos.y - y) }
  | .scroll _ | .buttonDown _ | .buttonUp _ => pos

/-- One report for each event but scrolling. -/
def reportOf (pointer : NxgiPoint) : MouseEvent → List MouseReport
  | .scroll _ => []
  | event => [⟨event, pointer⟩]

def reports (screen : NxgiRect) : NxgiPoint → List MouseEvent → List MouseReport
  | _, [] => []
  | pos, event :: events =>
    reportOf (pointerAfter screen pos event) event ++
      reports screen (pointerAfter screen pos event) events

/-- The pointer after a sequence of events. -/
def pointer (screen : NxgiRect) (pos : NxgiPoint) (events : List MouseEvent) : NxgiPoint :=
  events.foldl (pointerAfter screen) pos

/-- The message has the type of the event, the position, and the button if there is one. -/
def Conveys (msg : HjMessage) (report : MouseReport) : Prop :=
  (field 4 2 msg.bytes : Int) = report.pointer.x ∧
  (field 6 2 msg.bytes : Int) = report.pointer.y ∧
  match report.event with
  | .movement _ _ => field 0 4 msg.bytes = hjMessageMouseMoved
  | .scroll _ => False
  | .buttonDown button =>
    field 0 4 msg.bytes = hjMessageMouseDown ∧ field 8 4 msg.bytes = buttonValue button
  | .buttonUp button =>
    field 0 4 msg.bytes = hjMessageMouseUp ∧ field 8 4 msg.bytes = buttonValue button

/-- The pointer has 16-bit coordinates, and a button that goes down is the left one. -/
def MouseReport.Fits (report : MouseReport) : Prop :=
  0 ≤ report.pointer.x ∧ report.pointer.x < 2 ^ 16 ∧
  0 ≤ report.pointer.y ∧ report.pointer.y < 2 ^ 16 ∧
  ∀ button, report.event = .buttonDown button → button = .left

/-! ## What the messages do say -/

/-- The position and the messages that the server makes of an event. -/
def serverStep (screen : NxgiRect) (pos : NxgiPoint) : MouseEvent → NxgiPoint × List HjMessage
  | .movement x y =>
    let pos := nxgigClipPoint ⟨i32 (pos.x + x), i32 (pos.y - y)⟩ screen
    (pos, [hjMouseMessage hjMessageMouseMoved pos 0])
  | .scroll _ => (pos, [])
  | .buttonDown _ => (pos, [hjMouseMessage hjMessageMouseDown pos 0])
  | .buttonUp button => (pos, [hjMouseMessage hjMessageMouseUp pos (buttonValue button)])

/-- The same for a sequence of events. -/
def serverSteps (screen : NxgiRect) : NxgiPoint → List MouseEvent → NxgiPoint × List HjMessage
  | pos, [] => (pos, [])
  | pos, event :: events =>
    let (pos, first) := serverStep screen pos event
    let (pos, rest) := serverSteps screen pos events
    (pos, first ++ rest)

/-- A screen with the pointer on it. -/
structure OnScreen (screen : NxgiRect) (pos : NxgiPoint) : Prop where
  left : -2 ^ 31 ≤ screen.x1 ∧ screen.x1 ≤ pos.x
  right : pos.x ≤ screen.x2 ∧ screen.x2 < 2 ^ 31
  top : -2 ^ 31 ≤ screen.y1 ∧ screen.y1 ≤ pos.y
  bottom : pos.y ≤ screen.y2 ∧ screen.y2 < 2 ^ 31

theorem OnScreen.pointerAfter {screen : NxgiRect} {pos : NxgiPoint} (on : OnScreen screen pos)
    (event : MouseEvent) : OnScreen screen (pointerAfter screen pos event) := by
  obtain ⟨left, right, top, bottom⟩ := on
  cases event with
  | movement x y =>
    have across := clampTo_inside (by omega : screen.x1 ≤ screen.x2) (pos.x + x)
    have down := clampTo_inside (by omega : screen.y1 ≤ screen.y2) (pos.y - y)
    exact ⟨⟨left.1, across.1⟩, ⟨across.2, right.2⟩, ⟨top.1, down.1⟩, ⟨down.2, bottom.2⟩⟩
  | scroll amount => exact ⟨left, right, top, bottom⟩
  | buttonDown button => exact ⟨left, right, top, bottom⟩
  | buttonUp button => exact ⟨left, right, top, bottom⟩

/-- A sum that overflows is one that would end beyond 16 bits. -/
theorem clampTo_i32 {low high pos d : Int} (lowFits : -2 ^ 31 ≤ low) (above : low ≤ pos)
    (below : pos ≤ high) (small : -2 ^ 15 ≤ d ∧ d ≤ 2 ^ 15)
    (nonneg : 0 ≤ clampTo low high (pos + d)) (fits : clampTo low high (pos + d) < 2 ^ 16) :
    clampTo low high (i32 (pos + d)) = clampTo low high (pos + d) := by
  rw [i32_of_range]
  · by_contra overflow
    rw [clampTo] at nonneg
    split at nonneg
    · omega
    · split at nonneg <;> omega
  · by_contra overflow
    rw [clampTo] at fits
    split at fits
    · omega
    · split at fits <;> omega

/-- A coordinate that has 16 bits is read back from a message. -/
theorem asU32_mod_of_fits {x : Int} (nonneg : 0 ≤ x) (fits : x < 2 ^ 16) :
    ((asU32 x % 256 ^ 2 : Nat) : Int) = x := by
  rw [asU32]
  omega

/-- The position in a message is that of the pointer, if it has 16 bits. -/
theorem hjMouseMessage_position {report : MouseReport} (fits : report.Fits) (type button : Nat) :
    (field 4 2 (hjMouseMessage type report.pointer button).bytes : Int) = report.pointer.x ∧
      (field 6 2 (hjMouseMessage type report.pointer button).bytes : Int) = report.pointer.y := by
  have ⟨x0, xFits, y0, yFits, _⟩ := fits
  rw [hjMouseMessage_x, hjMouseMessage_y]
  exact ⟨asU32_mod_of_fits x0 xFits, asU32_mod_of_fits y0 yFits⟩

/-- The pointer that the server computes for a movement that fits is the right one. -/
theorem serverStep_movement {screen : NxgiRect} {pos : NxgiPoint} {x y : Int}
    (on : OnScreen screen pos) (small : SmallMovement (.movement x y))
    (fits : (MouseReport.mk (.movement x y) (pointerAfter screen pos (.movement x y))).Fits) :
    nxgigClipPoint ⟨i32 (pos.x + x), i32 (pos.y - y)⟩ screen =
      pointerAfter screen pos (.movement x y) := by
  have ⟨left, right, top, bottom⟩ := on
  have ⟨xLow, xHigh, yLow, yHigh⟩ := small x y rfl
  have ⟨x0, xFits, y0, yFits, _⟩ := fits
  rw [nxgigClipPoint_eq, pointerAfter, NxgiPoint.mk.injEq]
  exact ⟨clampTo_i32 left.1 left.2 right.1 (by omega) x0 xFits,
    clampTo_i32 top.1 top.2 bottom.1 (by omega) y0 yFits⟩

/-- The message for an event that fits says what it should. -/
theorem serverStep_conveys {screen : NxgiRect} {pos : NxgiPoint} {event : MouseEvent}
    (on : OnScreen screen pos) (small : SmallMovement event)
    (fits : ∀ report ∈ reportOf (pointerAfter screen pos event) event, report.Fits) :
    (serverStep screen pos event).1 = pointerAfter screen pos event ∧
      List.Forall₂ Conveys (serverStep screen pos event).2
        (reportOf (pointerAfter screen pos event) event) := by
  cases event with
  | movement x y =>
    have itFits := fits _ (List.mem_singleton.mpr rfl)
    have same := serverStep_movement on small itFits
    obtain ⟨across, down⟩ := hjMouseMessage_position itFits hjMessageMouseMoved 0
    have type := hjMouseMessage_type (by decide : hjMessageMouseMoved ≤ 4)
      (pointerAfter screen pos (.movement x y)) 0
    simp only [serverStep, same, reportOf]
    exact ⟨trivial, .cons ⟨across, down, type⟩ .nil⟩
  | scroll amount => exact ⟨rfl, .nil⟩
  | buttonDown button =>
    have itFits := fits _ (List.mem_singleton.mpr rfl)
    obtain rfl : button = .left := itFits.2.2.2.2 button rfl
    obtain ⟨across, down⟩ := hjMouseMessage_position itFits hjMessageMouseDown 0
    have type := hjMouseMessage_type (by decide : hjMessageMouseDown ≤ 4) pos 0
    have value := hjMouseMessage_button (by decide : 0 < 5) hjMessageMouseDown pos
    exact ⟨rfl, .cons ⟨across, down, type, value⟩ .nil⟩
  | buttonUp button =>
    have itFits := fits _ (List.mem_singleton.mpr rfl)
    obtain ⟨across, down⟩ := hjMouseMessage_position itFits hjMessageMouseUp (buttonValue button)
    have type := hjMouseMessage_type (by decide : hjMessageMouseUp ≤ 4) pos (buttonValue button)
    have value := hjMouseMessage_button (buttonValue_lt button) hjMessageMouseUp pos
    exact ⟨rfl, .cons ⟨across, down, type, value⟩ .nil⟩

theorem serverSteps_conveys {screen : NxgiRect} {events : List MouseEvent} :
    ∀ {pos : NxgiPoint}, OnScreen screen pos → (∀ event ∈ events, SmallMovement event) →
      (∀ report ∈ reports screen pos events, report.Fits) →
      (serverSteps screen pos events).1 = pointer screen pos events ∧
        List.Forall₂ Conveys (serverSteps screen pos events).2 (reports screen pos events) := by
  induction events with
  | nil => exact fun _ _ _ => ⟨rfl, .nil⟩
  | cons event events inductionHypothesis =>
    intro pos on small fits
    obtain ⟨firstSame, firstConveys⟩ := serverStep_conveys on (small event List.mem_cons_self)
      fun report member => fits report (List.mem_append_left _ member)
    obtain ⟨restSame, restConveys⟩ := inductionHypothesis (on.pointerAfter event)
      (fun later member => small later (List.mem_cons_of_mem _ member))
      fun report member => fits report (List.mem_append_right _ member)
    simp only [serverSteps, firstSame, reports, pointer, List.foldl_cons]
    exact ⟨restSame, List.rel_append firstConveys restConveys⟩

/-- A message for a button that goes down names the left button. -/
theorem serverSteps_down {screen : NxgiRect} {events : List MouseEvent} :
    ∀ {pos : NxgiPoint}, ∀ msg ∈ (serverSteps screen pos events).2,
      field 0 4 msg.bytes = hjMessageMouseDown → field 8 4 msg.bytes = 0 := by
  induction events with
  | nil => exact fun msg member => absurd member List.not_mem_nil
  | cons event events inductionHypothesis =>
    intro pos msg member down
    simp only [serverSteps] at member
    cases List.mem_append.mp member with
    | inr later => exact inductionHypothesis msg later down
    | inl first =>
      cases event with
      | movement x y =>
        obtain rfl := List.mem_singleton.mp first
        exact hjMouseMessage_button (by decide) _ _
      | scroll amount => exact absurd first List.not_mem_nil
      | buttonDown button =>
        obtain rfl := List.mem_singleton.mp first
        exact hjMouseMessage_button (by decide) _ _
      | buttonUp button =>
        obtain rfl := List.mem_singleton.mp first
        rw [hjMouseMessage_type (by decide)] at down
        contradiction

theorem fits_of_conveys {msg : HjMessage} {report : MouseReport} (conveys : Conveys msg report)
    (down : field 0 4 msg.bytes = hjMessageMouseDown → field 8 4 msg.bytes = 0) :
    report.Fits := by
  obtain ⟨x, y, content⟩ := conveys
  have xFits := field_lt 4 2 msg.bytes
  have yFits := field_lt 6 2 msg.bytes
  refine ⟨by omega, by omega, by omega, by omega, fun button isDown => ?_⟩
  rw [isDown] at content
  have value := content.2
  rw [down content.1] at value
  exact (buttonValue_eq_zero_iff button).mp value.symm

/-- The messages say what they should exactly when all the events fit. -/
theorem serverSteps_conveys_iff {screen : NxgiRect} {pos : NxgiPoint} {events : List MouseEvent}
    (on : OnScreen screen pos) (small : ∀ event ∈ events, SmallMovement event) :
    ((serverSteps screen pos events).1 = pointer screen pos events ∧
      List.Forall₂ Conveys (serverSteps screen pos events).2 (reports screen pos events)) ↔
    ∀ report ∈ reports screen pos events, report.Fits := by
  constructor
  · rintro ⟨-, conveyed⟩ report member
    obtain ⟨msg, isMessage, conveys⟩ := exists_of_forall₂ conveyed member
    exact fits_of_conveys conveys (serverSteps_down msg isMessage)
  · exact serverSteps_conveys on small

/-! ## What the server does with an event -/

/-- The server's step on the record of an event, when the desktop's queue has room. -/
theorem henjinProcessEvent_eq (hj : HjServerContext) (ev : DriverEvent) {queue : List HjMessage}
    (pending : Pending hj.desktop queue) (room : queue.length < 511) :
    ∃ desktop, Pending desktop (queue ++ (serverStep hj.screenRect hj.mousePos ev.event).2) ∧
      henjinProcessEvent hj ev.record =
        { hj with
          mousePos := (serverStep hj.screenRect hj.mousePos ev.event).1
          desktop := desktop } := by
  obtain ⟨event, stale, small⟩ := ev
  cases event with
  | movement x y =>
    obtain ⟨xLow, xHigh, yLow, yHigh⟩ := small x y rfl
    have across := i32_asU32 (by omega : -2 ^ 31 ≤ x) (by omega)
    have down := i32_asU32 (by omega : -2 ^ 31 ≤ y) (by omega)
    obtain ⟨desktop, queued, pending'⟩ := pending.queueMessage_room (hjMouseMessage
      hjMessageMouseMoved (serverStep hj.screenRect hj.mousePos (.movement x y)).1 0) room
    refine ⟨desktop, pending', ?_⟩
    simp only [serverStep] at queued
    simp [henjinProcessEvent, DriverEvent.record, recordOf, serverStep, across, down, queued]
  | scroll amount =>
    refine ⟨hj.desktop, by simpa [serverStep] using pending, ?_⟩
    simp [henjinProcessEvent, DriverEvent.record, recordOf, serverStep, mouseEventScroll,
      mouseEventButtonUp, mouseEventButtonDown]
  | buttonDown button =>
    obtain ⟨desktop, queued, pending'⟩ := pending.queueMessage_room
      (hjMouseMessage hjMessageMouseDown hj.mousePos 0) room
    refine ⟨desktop, pending', ?_⟩
    simp [henjinProcessEvent, DriverEvent.record, recordOf, serverStep, queued,
      mouseEventButtonUp, mouseEventButtonDown]
  | buttonUp button =>
    obtain ⟨desktop, queued, pending'⟩ := pending.queueMessage_room
      (hjMouseMessage hjMessageMouseUp hj.mousePos (buttonValue button)) room
    refine ⟨desktop, pending', ?_⟩
    simp [henjinProcessEvent, DriverEvent.record, recordOf, serverStep, queued]

/-- The ring of driver events: 128 of them, less the byte that stays free. -/
abbrev mouseDriverEventsSize : Nat := 128 * sizeofMouseEvent

/-- The ring buffer holds the records of these events. -/
def Waiting (rb : RingBuffer) (events : List DriverEvent) : Prop :=
  Stores rb mouseDriverEventsSize (events.flatMap fun ev => ev.record.bytes)

theorem length_records (events : List DriverEvent) :
    (events.flatMap fun ev => ev.record.bytes).length = sizeofMouseEvent * events.length := by
  induction events with
  | nil => rfl
  | cons ev events inductionHypothesis =>
    rw [List.flatMap_cons, List.length_append, inductionHypothesis, MouseRecord.length_bytes,
      List.length_cons, Nat.mul_succ, Nat.add_comm]

theorem Waiting.pushed {rb : RingBuffer} {events : List DriverEvent} (waiting : Waiting rb events)
    (ev : DriverEvent) (room : sizeofMouseEvent ≤ rbGetWriteSize rb) :
    Waiting (henjinMouseDriverCallback ev.record rb).2 (events ++ [ev]) := by
  have fits : (events.flatMap fun ev => ev.record.bytes).length + ev.record.bytes.length <
      mouseDriverEventsSize := by
    rw [waiting.writeSize, length_records] at room
    rw [length_records, MouseRecord.length_bytes]
    simp only [mouseDriverEventsSize, sizeofMouseEvent] at room ⊢
    omega
  have written := waiting.written fits
  rw [henjinMouseDriverCallback, Stores.rbWrite_eq waiting fits, Waiting, List.flatMap_append,
    List.flatMap_singleton]
  exact written

theorem henjinProcessMouseEvents_nil {hj : HjServerContext}
    (waiting : Waiting hj.mouseDriverEvents []) (passes : Nat) :
    henjinProcessMouseEvents passes hj = (.sOk, hj) := by
  have nothing : rbGetReadSize hj.mouseDriverEvents < sizeofMouseEvent := by
    rw [waiting.readSize]
    decide
  cases passes with
  | zero => rfl
  | succ passes => rw [henjinProcessMouseEvents, if_pos nothing]

theorem henjinProcessMouseEvents_cons {hj : HjServerContext} {ev : DriverEvent}
    {events : List DriverEvent} (waiting : Waiting hj.mouseDriverEvents (ev :: events)) :
    ∃ rb, Waiting rb events ∧ ∀ passes, henjinProcessMouseEvents (passes + 1) hj =
      henjinProcessMouseEvents passes
        (henjinProcessEvent { hj with mouseDriverEvents := rb } ev.record) := by
  have bytes : ((ev :: events).flatMap fun ev => ev.record.bytes) =
      ev.record.bytes ++ events.flatMap fun ev => ev.record.bytes := rfl
  have enough : sizeofMouseEvent ≤ ((ev :: events).flatMap fun ev => ev.record.bytes).length := by
    rw [length_records, List.length_cons, Nat.mul_succ]
    exact Nat.le_add_left _ _
  have some : ¬rbGetReadSize hj.mouseDriverEvents < sizeofMouseEvent := by
    rw [waiting.readSize]
    omega
  have first : ((ev :: events).flatMap fun ev => ev.record.bytes).take sizeofMouseEvent =
      ev.record.bytes := by
    rw [bytes, List.take_left' (MouseRecord.length_bytes _)]
  have consumed := waiting.consumed enough
  rw [bytes, List.drop_left' (MouseRecord.length_bytes _)] at consumed
  refine ⟨_, consumed, fun passes => ?_⟩
  rw [henjinProcessMouseEvents, if_neg some, Stores.rbRead_eq waiting enough,
    waiting.holds.take enough, first]
  simp only [HResult.failed, HResult.succeeded, Bool.not_true, Bool.false_eq_true, if_false]
  rw [MouseRecord.load_bytes ev.words]

end Antonix.Henjin
