import Antonix.Henjin.MouseMessages

/-! # From the mouse driver to the desktop

The mouse driver pushes events at any time, the server loop takes them one by
one, and the desktop's thread gets the messages.  A step that would meet a full
queue is left out, so that nothing is lost.

The queues keep the order.  Whether the messages are right is then a question
about the list of events that the server has taken. -/

namespace Antonix.Henjin

open LittleEndian Ring Transition

/-- What happens: a driver event, a pass of the server's loop, a message that the desktop gets. -/
inductive HenjinOp where
  | push (ev : DriverEvent)
  | pass
  | get (msg : List (BitVec 8))

inductive HenjinStep : HjServerContext → HenjinOp → HjServerContext → Prop
  | push {hj : HjServerContext} (ev : DriverEvent) :
      sizeofMouseEvent ≤ rbGetWriteSize hj.mouseDriverEvents →
      HenjinStep hj (.push ev)
        { hj with
          mouseDriverEvents := (henjinMouseDriverCallback ev.record hj.mouseDriverEvents).2 }
  | pass {hj : HjServerContext} :
      sizeofHjMessage ≤ rbGetWriteSize hj.desktop.messageQueue →
      HenjinStep hj .pass (henjinProcessMouseEvents 1 hj).2
  | get {hj : HjServerContext} {msg : List (BitVec 8)} {desktop : HjControl} :
      hjGetMessage hj.desktop = (.sOk, msg, desktop) →
      HenjinStep hj (.get msg) { hj with desktop := desktop }

def pushed : HenjinOp → List DriverEvent
  | .push ev => [ev]
  | .pass | .get _ => []

def got : HenjinOp → List (List (BitVec 8))
  | .get msg => [msg]
  | .push _ | .pass => []

/-- The server has a screen, no events wait, and `earlier` messages are pending. -/
structure Ready (hj : HjServerContext) (earlier : List HjMessage) : Prop where
  waiting : Waiting hj.mouseDriverEvents []
  pending : Pending hj.desktop earlier
  onScreen : OnScreen hj.screenRect hj.mousePos

/-- The events that the server has taken are the first of those pushed, and what the desktop
has got or will get are the earlier messages and then `messages`. -/
structure Delivered (earlier : List HjMessage) (ops : List HenjinOp) (final : HjServerContext)
    (processed : List DriverEvent) (messages : List HjMessage) : Prop where
  taken : ∃ waiting, ops.flatMap pushed = processed ++ waiting ∧
    Waiting final.mouseDriverEvents waiting
  told : ∃ queue, Pending final.desktop queue ∧
    ops.flatMap got ++ queue.map HjMessage.bytes = (earlier ++ messages).map HjMessage.bytes

/-- The messages report the events, and the server's pointer is where they lead. -/
structure Reported (start final : HjServerContext) (processed : List DriverEvent)
    (messages : List HjMessage) : Prop where
  pointer : final.mousePos =
    pointer start.screenRect start.mousePos (processed.map DriverEvent.event)
  conveyed : List.Forall₂ Conveys messages
    (reports start.screenRect start.mousePos (processed.map DriverEvent.event))

/-! ## Runs -/

theorem serverSteps_append (screen : NxgiRect) (events more : List MouseEvent) :
    ∀ pos : NxgiPoint, serverSteps screen pos (events ++ more) =
      ((serverSteps screen (serverSteps screen pos events).1 more).1,
        (serverSteps screen pos events).2 ++
          (serverSteps screen (serverSteps screen pos events).1 more).2) := by
  induction events with
  | nil => exact fun _ => rfl
  | cons event events inductionHypothesis =>
    intro pos
    simp only [List.cons_append, serverSteps, inductionHypothesis, List.append_assoc]

/-- What the server has done after the operations of the past. -/
structure Serving (start : HjServerContext) (earlier : List HjMessage) (past : List HenjinOp)
    (hj : HjServerContext) (processed : List DriverEvent) : Prop where
  delivered : Delivered earlier past hj processed
    (serverSteps start.screenRect start.mousePos (processed.map DriverEvent.event)).2
  mousePos : hj.mousePos =
    (serverSteps start.screenRect start.mousePos (processed.map DriverEvent.event)).1
  screenRect : hj.screenRect = start.screenRect

theorem HenjinStep.serving {start hj hj' : HjServerContext} {earlier : List HjMessage}
    {past : List HenjinOp} {op : HenjinOp} {processed : List DriverEvent}
    (serving : Serving start earlier past hj processed) (step : HenjinStep hj op hj') :
    ∃ processed', Serving start earlier (past ++ [op]) hj' processed' := by
  obtain ⟨⟨⟨waiting, taken, holds⟩, ⟨queue, pending, told⟩⟩, mousePos, screenRect⟩ := serving
  cases step with
  | push ev room =>
    refine ⟨processed, ⟨⟨waiting ++ [ev], ?_, holds.pushed ev room⟩, ⟨queue, pending, ?_⟩⟩,
      mousePos, screenRect⟩
    · simp [taken, pushed]
    · simpa [got] using told
  | @get msg desktop answered =>
    cases queue with
    | nil =>
      simp [pending.getMessage_nil] at answered
    | cons first queue =>
      obtain ⟨after, gotten, pending'⟩ := pending.getMessage_cons
      obtain ⟨rfl, rfl⟩ : first.bytes = msg ∧ after = desktop := by simpa [gotten] using answered
      refine ⟨processed, ⟨⟨waiting, ?_, holds⟩, ⟨queue, pending', ?_⟩⟩, mousePos, screenRect⟩
      · simpa [pushed] using taken
      · simpa [got] using told
  | pass room =>
    cases waiting with
    | nil =>
      rw [henjinProcessMouseEvents_nil holds]
      refine ⟨processed, ⟨⟨[], ?_, holds⟩, ⟨queue, pending, ?_⟩⟩, mousePos, screenRect⟩
      · simpa [pushed] using taken
      · simpa [got] using told
    | cons ev waiting =>
      obtain ⟨rb, rest, handled⟩ := henjinProcessMouseEvents_cons holds
      have space : queue.length < 511 := by
        rw [pending.writeSize] at room
        simp only [messageQueueSize, sizeofHjMessage] at room
        omega
      obtain ⟨desktop, pending', effect⟩ :=
        henjinProcessEvent_eq { hj with mouseDriverEvents := rb } ev pending space
      simp only [mousePos, screenRect] at pending'
      have steps := serverSteps_append start.screenRect (processed.map DriverEvent.event)
        [ev.event] start.mousePos
      simp only [serverSteps, List.append_nil] at steps
      rw [handled, effect, henjinProcessMouseEvents]
      refine ⟨processed ++ [ev], ⟨⟨waiting, ?_, rest⟩, ⟨_, pending', ?_⟩⟩, ?_, screenRect⟩
      · simpa [pushed] using taken
      · simp only [List.map_append, List.map_cons, List.map_nil, steps]
        rw [List.flatMap_append, ← List.append_assoc, ← List.append_assoc, ← List.map_append,
          ← told]
        simp [got]
      · rw [List.map_append, List.map_singleton, steps, ← mousePos, ← screenRect]

/-- After any operations the queues are in order, and the messages are those that the server
makes of the events it has taken. -/
theorem serving_of_run {start final : HjServerContext} {earlier : List HjMessage}
    {ops : List HenjinOp} (ready : Ready start earlier) (run : Run HenjinStep start ops final) :
    ∃ processed, Serving start earlier ops final processed := by
  have begin_ : ∃ processed, Serving start earlier [] start processed :=
    ⟨[], ⟨⟨[], rfl, ready.waiting⟩, ⟨earlier, ready.pending, by simp [serverSteps]⟩⟩, rfl, rfl⟩
  refine run.history (fun past hj => ∃ processed, Serving start earlier past hj processed) begin_ ?_
  rintro past hj op hj' ⟨processed, serving⟩ step
  exact step.serving serving

/-- The queues lose nothing and keep the order, and the messages report the events exactly when
all of the events fit: the pointer has 16-bit coordinates, and a button that goes down is the
left one. -/
theorem henjin_reports_mouse_events {start final : HjServerContext} {earlier : List HjMessage}
    {ops : List HenjinOp} (ready : Ready start earlier) (run : Run HenjinStep start ops final) :
    ∃ processed messages, Delivered earlier ops final processed messages ∧
      (Reported start final processed messages ↔
        ∀ report ∈ reports start.screenRect start.mousePos (processed.map DriverEvent.event),
          report.Fits) := by
  obtain ⟨processed, delivered, mousePos, -⟩ := serving_of_run ready run
  have small : ∀ event ∈ processed.map DriverEvent.event, SmallMovement event := by
    intro event member
    obtain ⟨ev, -, rfl⟩ := List.mem_map.mp member
    exact ev.small
  have exactly := serverSteps_conveys_iff ready.onScreen small
  refine ⟨processed, _, delivered, ?_⟩
  rw [← exactly, ← mousePos]
  constructor
  · intro reported
    exact ⟨reported.pointer, reported.conveyed⟩
  · rintro ⟨pointer, conveyed⟩
    exact ⟨pointer, conveyed⟩

/-- A call of `henjin_process_mouse_events` handles all events that wait, in as many passes, if
the desktop's queue has room for their messages. -/
theorem henjinProcessMouseEvents_drains {events : List DriverEvent} :
    ∀ {hj : HjServerContext} {queue : List HjMessage}, Waiting hj.mouseDriverEvents events →
      Pending hj.desktop queue → queue.length + events.length ≤ 511 →
      ∃ hj', henjinProcessMouseEvents (events.length + 1) hj = (.sOk, hj') ∧
        Waiting hj'.mouseDriverEvents [] ∧
        Run HenjinStep hj (List.replicate events.length .pass) hj' := by
  induction events with
  | nil =>
    intro hj queue waiting pending room
    exact ⟨hj, henjinProcessMouseEvents_nil waiting _, waiting, .nil hj⟩
  | cons ev events inductionHypothesis =>
    intro hj queue waiting pending room
    rw [List.length_cons] at room
    obtain ⟨rb, rest, handled⟩ := henjinProcessMouseEvents_cons waiting
    obtain ⟨desktop, pending', effect⟩ :=
      henjinProcessEvent_eq { hj with mouseDriverEvents := rb } ev pending (by omega)
    have atMostOne : ∀ pos, (serverStep hj.screenRect pos ev.event).2.length ≤ 1 := by
      intro pos
      cases ev.event <;> simp [serverStep]
    have space : sizeofHjMessage ≤ rbGetWriteSize hj.desktop.messageQueue := by
      rw [pending.writeSize]
      simp only [messageQueueSize, sizeofHjMessage]
      omega
    have roomLeft := atMostOne hj.mousePos
    obtain ⟨last, drained, nothing, run⟩ := inductionHypothesis (rest : Waiting
      { hj with
        mouseDriverEvents := rb
        mousePos := (serverStep hj.screenRect hj.mousePos ev.event).1
        desktop := desktop }.mouseDriverEvents events) pending' (by
      change (queue ++ (serverStep hj.screenRect hj.mousePos ev.event).2).length + _ ≤ _
      rw [List.length_append]
      omega)
    have first : HenjinStep hj .pass (henjinProcessMouseEvents 1 hj).2 := .pass space
    rw [handled 0, effect, henjinProcessMouseEvents] at first
    refine ⟨last, ?_, nothing, .cons first run⟩
    rw [List.length_cons, handled, effect]
    exact drained

/-! ## Examples -/

/-- A server just started: a 640 by 480 screen, nothing pending. -/
def freshServer : HjServerContext :=
  henjinScreen
    { mouseDriverEvents := createRingBuffer (fun _ => 0) mouseDriverEventsSize
      mousePos := ⟨0, 0⟩
      screenRect := ⟨0, 0, 0, 0⟩
      desktop := (hjControlInit .deferred (fun _ => .sOk) none (some fun _ => 0)
        (createRingBuffer (fun _ => 0) 1)).2 } 640 480

theorem freshServer_ready : Ready freshServer [] where
  waiting := stores_createRingBuffer (by decide) (by decide)
  pending := ⟨rfl, stores_createRingBuffer (by decide) (by decide)⟩
  onScreen := ⟨by decide, by decide, by decide, by decide⟩

/-- The event of a button that goes down. -/
def buttonDownEvent (button : MouseButton) : DriverEvent where
  event := .buttonDown button
  stale := 0#32
  small := fun _ _ same => MouseEvent.noConfusion same

/-- The server after one button has gone down. -/
def serverAfter (button : MouseButton) : HjServerContext :=
  (henjinProcessMouseEvents 1
    { freshServer with
      mouseDriverEvents := (henjinMouseDriverCallback (buttonDownEvent button).record
        freshServer.mouseDriverEvents).2 }).2

theorem serverAfter_run (button : MouseButton) :
    Run HenjinStep freshServer [.push (buttonDownEvent button), .pass] (serverAfter button) := by
  have eventFits : sizeofMouseEvent ≤ rbGetWriteSize freshServer.mouseDriverEvents := by decide
  have messageFits : sizeofHjMessage ≤ rbGetWriteSize freshServer.desktop.messageQueue := by decide
  exact .cons (.push _ eventFits) (.cons (.pass messageFits) (.nil _))

/-- The left button goes down. -/
theorem henjin_reports_left_down :
    ∃ processed messages,
      Delivered [] [.push (buttonDownEvent .left), .pass] (serverAfter .left) processed messages ∧
      (Reported freshServer (serverAfter .left) processed messages ↔
        ∀ report ∈ reports freshServer.screenRect freshServer.mousePos
          (processed.map DriverEvent.event), report.Fits) :=
  henjin_reports_mouse_events freshServer_ready (serverAfter_run .left)

/-- The right button goes down: the message says that it was the left one. -/
theorem henjin_not_reports_right_down :
    Run HenjinStep freshServer [.push (buttonDownEvent .right), .pass] (serverAfter .right) ∧
    ¬∃ processed messages,
      Delivered [] [.push (buttonDownEvent .right), .pass] (serverAfter .right) processed messages ∧
      Reported freshServer (serverAfter .right) processed messages := by
  refine ⟨serverAfter_run .right, ?_⟩
  rintro ⟨processed, messages, ⟨⟨waiting, taken, holds⟩, ⟨queue, pending, told⟩⟩, -, conveyed⟩
  -- the event has been taken
  have nothing : rbGetReadSize (serverAfter .right).mouseDriverEvents = 0 := by decide
  rw [holds.readSize, length_records, sizeofMouseEvent] at nothing
  obtain rfl : waiting = [] := List.length_eq_zero_iff.mp (by omega)
  obtain rfl : [buttonDownEvent .right] = processed := by simpa [pushed] using taken
  -- and one message is pending
  obtain ⟨msg, isMessage, -, -, -, button⟩ :=
    exists_of_forall₂ conveyed (List.mem_singleton.mpr rfl)
  have isQueued : msg.bytes ∈ queue.map HjMessage.bytes := by
    have same : queue.map HjMessage.bytes = messages.map HjMessage.bytes := by
      simpa [got] using told
    rw [same]
    exact List.mem_map_of_mem isMessage
  have one : rbGetReadSize (serverAfter .right).desktop.messageQueue = sizeofHjMessage := by decide
  have zero : field 8 4 (hjGetMessage (serverAfter .right).desktop).2.1 = 0 := by decide
  rw [pending.readSize, sizeofHjMessage] at one
  obtain ⟨first, rfl⟩ : ∃ first, queue = [first] := List.length_eq_one_iff.mp (by omega)
  obtain ⟨after, gotten, -⟩ := pending.getMessage_cons
  rw [gotten] at zero
  have same : msg.bytes = first.bytes := by simpa using isQueued
  rw [same, zero] at button
  contradiction

end Antonix.Henjin
