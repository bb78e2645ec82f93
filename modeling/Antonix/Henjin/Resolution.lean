import Antonix.Henjin.ChildControls
import Antonix.Lib.Transition
import Antonix.SyncObjs.Event

/-! # Changing the resolution (`henjin.c`, `henjin_desktop.c`, `nxgi.c`, `vesa_bga.c`)

The server takes the screen away and makes a new one while the thread of the desktop
draws on it.  It sends the desktop a message to stop drawing, waits for an event that
the desktop signals when it has stopped, and tells it to go on when the new screen is
there.  Between the two, no one may touch the screen. -/

namespace Antonix.Henjin.Resolution

open Event Function LittleEndian Transition

/-! ## The video driver -/

abbrev vbeDispiIndexXres : Nat := 1
abbrev vbeDispiIndexYres : Nat := 2
abbrev vbeDispiIndexBpp : Nat := 3
abbrev vbeDispiIndexEnable : Nat := 4

/-- `K_VIDEO_MODE_DESC` -/
structure KVideoModeDesc where
  width : Nat
  height : Nat
  bpp : Nat
  stride : Nat
  format : NxgiFormat

/-- `VESA_DRV_CONTEXT` with the 16-bit registers of the adapter.  `holds` is what a register has
after a value is written to it. -/
structure VesaDrvContext where
  regs : Nat → Nat
  holds : Nat → Nat → Nat
  mode : KVideoModeDesc
  lfbAddr : Nat
  lock : Nat

/-- `bga_write` -/
def bgaWrite (vc : VesaDrvContext) (reg value : Nat) : VesaDrvContext :=
  { vc with regs := update vc.regs reg (vc.holds reg (value % 2 ^ 16) % 2 ^ 16) }

/-- `bga_read` -/
def bgaRead (vc : VesaDrvContext) (reg : Nat) : Nat := vc.regs reg

/-- `bga_enable_vbe` -/
def bgaEnableVbe (vc : VesaDrvContext) (enable : Bool) (extraFlags : Nat) : VesaDrvContext :=
  if enable then bgaWrite vc vbeDispiIndexEnable (0x01 ||| extraFlags)
  else bgaWrite vc vbeDispiIndexEnable 0x00

/-- `bga_set_mode_inner` -/
def bgaSetModeInner (vc : VesaDrvContext) (width height bpp : Nat) (lfbMode : Bool) :
    HResult × VesaDrvContext :=
  let vc := bgaEnableVbe vc false 0
  let vc := bgaWrite vc vbeDispiIndexXres width
  let vc := bgaWrite vc vbeDispiIndexYres height
  let vc := bgaWrite vc vbeDispiIndexBpp bpp
  let hr : HResult :=
    if bgaRead vc vbeDispiIndexXres ≠ width ∨ bgaRead vc vbeDispiIndexYres ≠ height ∨
      bgaRead vc vbeDispiIndexBpp ≠ bpp then .eFail else .sOk
  (hr, bgaEnableVbe vc true ((if lfbMode then 0x40 else 0) ||| 0x80))

/-- `video_format_to_bpp` -/
def videoFormatToBpp : NxgiFormat → Nat
  | .bgra32 | .rgba32 => 32

/-- `bga_set_mode`, for a descriptor without `bpp` and `stride`. -/
def bgaSetMode (vc : VesaDrvContext) (width height : Nat) (format : NxgiFormat) :
    HResult × VesaDrvContext :=
  let bpp := videoFormatToBpp format
  let desc : KVideoModeDesc := ⟨width, height, bpp, u32 (width * bpp) / 8, format⟩
  match bgaSetModeInner vc width height bpp true with
  | (.sOk, vc) => (.sOk, { vc with mode := desc })
  | failed => failed

/-- `bga_get_mode`; the descriptor of the caller is left as it is when there is no mode. -/
def bgaGetMode (vc : VesaDrvContext) (desc : KVideoModeDesc) : KVideoModeDesc :=
  if vc.mode.width = 0 ∨ vc.mode.height = 0 then desc else vc.mode

/-! ## The screen -/

/-- `nxgi_context`, the driver that it opens, and the bitmaps that are allocated.  Pointers are
numbers, 0 is `NULL`. -/
structure NxgiContext where
  graphicsDrv : Bool
  screenSurf : Nat
  driver : VesaDrvContext
  bitmaps : Nat → Option NxgiBitmap

/-- `vesa_unlock_fb`.  A mutex that is not locked is not unlocked. -/
def vesaUnlockFb (vc : VesaDrvContext) : Except Halt VesaDrvContext :=
  if vc.lock = 0 then
    .error (.panic
      "mutex_unlock(): Trying to unlock non-locked mutex or counter dropped below zero.")
  else .ok { vc with lock := vc.lock - 1 }

/-- The driver behind a handle that is given back, if there is a handle. -/
def closeDriver (c : NxgiContext) : Except Halt VesaDrvContext :=
  if c.graphicsDrv then vesaUnlockFb c.driver else .ok c.driver

/-- `nxgi_fini` -/
def nxgiFini (c : NxgiContext) : Except Halt NxgiContext := do
  let driver ← closeDriver c
  .ok { c with
    graphicsDrv := false
    screenSurf := 0
    driver := driver
    bitmaps := if c.screenSurf = 0 then c.bitmaps else update c.bitmaps c.screenSurf none }

/-- `nxgi_init`.  `opened` says whether the driver is found, `ss` is what `kcalloc` returns.  There
is no screen after a failure to find the driver or to set the mode, but the status is `S_OK`. -/
def nxgiInit (c : NxgiContext) (xres yres : Nat) (fmt : NxgiFormat) (opened : Bool) (ss : Nat) :
    HResult × NxgiContext :=
  if ¬ opened then (.sOk, c)
  else
    match bgaSetMode c.driver xres yres fmt with
    | (.sOk, driver) =>
      let desc := bgaGetMode driver ⟨xres, yres, 0, 0, fmt⟩
      if ss = 0 then (.eOutOfMem, { c with graphicsDrv := false, driver := driver })
      else
        let surface : NxgiBitmap :=
          { width := desc.width
            stride := driver.mode.stride
            height := desc.height
            bitsPerPixel := desc.bpp
            format := desc.format
            pBits := driver.lfbAddr }
        (.sOk, {
          graphicsDrv := true
          screenSurf := ss
          driver := { driver with lock := driver.lock + 1 }
          bitmaps := update c.bitmaps ss (some surface) })
    | (_, driver) => (.sOk, { c with graphicsDrv := true, driver := driver })

/-! ## Messages -/

/-- `msg.type` -/
def messageType (msg : List (BitVec 8)) : Nat := field 0 4 msg

/-- A message that was cleared and then given a type and `lock.event`. -/
def hjLockMessage (type event : Nat) : HjMessage where
  bytes := bytesOf 4 type ++ (bytesOf 4 event ++ bytesOf 16 0)
  size := by simp

/-- A message that was cleared and then given a type and the fields of `resize`. -/
def hjResizeMessage (x y surfaceFmt : Nat) : HjMessage where
  bytes := bytesOf 4 hjMessageResize ++ (bytesOf 2 x ++ (bytesOf 2 y ++ (bytesOf 4 surfaceFmt ++
    bytesOf 12 0)))
  size := by simp

/-- The message is none of those that are about the resolution. -/
def Ordinary (msg : List (BitVec 8)) : Prop :=
  messageType msg ≠ hjMessageResize ∧ messageType msg ≠ hjMessageDisableDrawing ∧
    messageType msg ≠ hjMessageEnableDrawing

/-! ## The desktop -/

/-- `HJ_DESKTOP`, without its queue: `surface` is the bitmap that it draws on. -/
structure HjDesktop where
  children : List HjControlMeta
  taskPanel : HjControl
  surface : Nat
  drawEnabled : Bool
  boundsRect : NxgiRect
  size : NxgiSize

/-- The desktop with the queue that the server has of it, the screen, the events that are allocated,
and the message that the thread of the desktop is at. -/
structure Screen where
  hj : HjServerContext
  desktop : HjDesktop
  nxgi : NxgiContext
  events : Nat → Option KEvent
  handling : Option (List (BitVec 8))

/-- The values of `NXGI_FORMAT`. -/
def formatValue : NxgiFormat → Nat
  | .rgba32 => 0
  | .bgra32 => 1

/-- `nxgi_internal_format`; what is read where there is no screen is not known. -/
def nxgiInternalFormat (c : NxgiContext) : Nat :=
  (c.bitmaps c.screenSurf).elim 0 fun t => formatValue t.format

/-- `desktop_resize` -/
def desktopResize (d : HjDesktop) (c : NxgiContext) (x y : Nat) : HResult × HjDesktop :=
  let d := { d with boundsRect := ⟨0, 0, i32 x, i32 y⟩, size := ⟨i32 x, i32 y⟩ }
  let (hr, taskPanel) := hjQueueMessage d.taskPanel (hjResizeMessage x 30 (nxgiInternalFormat c))
  let d := { d with taskPanel := taskPanel }
  if hr.failed then (hr, d)
  else
    let (hr, children) := hjControlSetChildPosition d.children 0 ⟨0, i32 (y - 30)⟩
    ((if hr.failed then hr else .sOk), { d with children := children })

/-- `event_signal` of the event at an address, if there is an address. -/
def signalAt (events : Nat → Option KEvent) (event : Nat) : Nat → Option KEvent :=
  if event = 0 then events else update events event ((events event).map eventSignal)

/-- `desktop_message_handler`, for what it does to the screen; `allocated` says whether there is
memory for the graphics context.  Painting and the mouse leave all this as it is. -/
def desktopMessageHandler (s : Screen) (allocated : Bool) (msg : List (BitVec 8)) :
    HResult × Screen :=
  if messageType msg = hjMessageDisableDrawing then
    let desktop :=
      if s.desktop.drawEnabled then { s.desktop with surface := 0, drawEnabled := false }
      else s.desktop
    (.sOk, { s with desktop := desktop, events := signalAt s.events (field 4 4 msg) })
  else if messageType msg = hjMessageEnableDrawing then
    if s.desktop.drawEnabled then (.sOk, s)
    else
      let s := { s with desktop := { s.desktop with surface := s.nxgi.screenSurf } }
      let target := s.nxgi.bitmaps s.nxgi.screenSurf
      -- `desktop_allocate_graphics_context`; a screen that is `NULL` can be the target
      if ¬ allocated then (.eFail, s)
      else if s.nxgi.screenSurf ≠ 0 ∧ (target.map (·.format)) ≠ some .bgra32 then (.eFail, s)
      else
        (.sOk, { s with
          desktop := { s.desktop with drawEnabled := true }
          events := signalAt s.events (field 4 4 msg) })
  else if messageType msg = hjMessageResize then
    let (hr, desktop) := desktopResize s.desktop s.nxgi (field 4 2 msg) (field 6 2 msg)
    ((if hr.failed then .eFail else .sOk), { s with desktop := desktop })
  else (.sOk, s)

/-- The bitmaps that the desktop reads or writes when it handles a message. -/
def Screen.touched (s : Screen) (msg : List (BitVec 8)) : List Nat :=
  if messageType msg = hjMessageEnableDrawing then
    if s.desktop.drawEnabled then [] else [s.nxgi.screenSurf]
  else if messageType msg = hjMessageDisableDrawing ∨ messageType msg = hjMessageRepaint then
    if s.desktop.drawEnabled then [s.desktop.surface] else []
  else if messageType msg = hjMessageResize then [s.nxgi.screenSurf]
  else []

/-! ## The server -/

/-- The arguments of a call of `henjin_set_resolution`, and the event that it has allocated. -/
structure Call where
  width : Nat
  height : Nat
  format : NxgiFormat
  event : Nat

/-- Where the server is in `henjin_set_resolution`: outside, with the status of the last call;
waiting for the desktop; and what it has done since. -/
inductive Server where
  | outside (last : Option (HResult × Call))
  | waiting (call : Call)
  | stopped (call : Call)
  | finished (call : Call)
  | initialised (call : Call)
  | enabled (call : Call)
  | resized (call : Call)

structure System extends Screen where
  server : Server

/-- `hj_queue_message` to the desktop. -/
def Screen.queue (s : Screen) (msg : HjMessage) : HResult × Screen :=
  let (hr, desktop) := hjQueueMessage s.hj.desktop msg
  (hr, { s with hj := { s.hj with desktop := desktop } })

/-- The end of `henjin_set_resolution`, where the event is freed. -/
def leave (s : Screen) (hr : HResult) (call : Call) : System :=
  ⟨{ s with events := update s.events call.event none }, .outside (some (hr, call))⟩

/-- `event_reset` of the event at an address. -/
def resetAt (events : Nat → Option KEvent) (event : Nat) : Nat → Option KEvent :=
  update events event ((events event).map ({ · with state := stateUnsignaled }))

/-- The server goes on after it has queued a message, or leaves. -/
def afterQueue (queued : HResult × Screen) (call : Call) (next : Screen → System) : System :=
  if queued.1.failed then leave queued.2 queued.1 call else next queued.2

/-- The steps of `henjin_set_resolution`. -/
inductive ServerStep : System → System → Prop
  | begin {s : Screen} {last : Option (HResult × Call)} (call : Call) (allocated : call.event ≠ 0)
      (small : call.event < 2 ^ 32) (fresh : s.events call.event = none) :
      ServerStep ⟨s, .outside last⟩
        (afterQueue (Screen.queue
          { s with events := update s.events call.event (some (eventCreate flagAutoreset)) }
          (hjLockMessage hjMessageDisableDrawing call.event)) call (⟨·, .waiting call⟩))
  | noMemory {s : Screen} {last : Option (HResult × Call)} (call : Call) :
      ServerStep ⟨s, .outside last⟩ ⟨s, .outside (some (.eOutOfMem, call))⟩
  -- the waiting that ends because of the event, not the one that times out
  | wake {s : Screen} {call : Call} {event : KEvent} (there : s.events call.event = some event)
      (signaled : (eventPoll event).1 ≠ stateUnsignaled) :
      ServerStep ⟨s, .waiting call⟩
        ⟨{ s with events := update s.events call.event (some (eventPoll event).2) }, .stopped call⟩
  | fini {s : Screen} {call : Call} {nxgi : NxgiContext} (done : nxgiFini s.nxgi = .ok nxgi) :
      ServerStep ⟨s, .stopped call⟩ ⟨{ s with nxgi := nxgi }, .finished call⟩
  | init {s : Screen} {call : Call} {opened : Bool} {ss : Nat} {hr : HResult} {nxgi : NxgiContext}
      (fresh : s.nxgi.bitmaps ss = none)
      (done : nxgiInit s.nxgi call.width call.height call.format opened ss = (hr, nxgi)) :
      ServerStep ⟨s, .finished call⟩
        (if hr.failed then leave { s with nxgi := nxgi } hr call
        else ⟨{ s with nxgi := nxgi }, .initialised call⟩)
  | enable {s : Screen} {call : Call} :
      ServerStep ⟨s, .initialised call⟩
        (afterQueue (s.queue (hjLockMessage hjMessageEnableDrawing 0)) call
          fun s => ⟨{ s with events := resetAt s.events call.event }, .enabled call⟩)
  | resize {s : Screen} {call : Call} :
      ServerStep ⟨s, .enabled call⟩
        (afterQueue (s.queue (hjResizeMessage call.width call.height 0)) call (⟨·, .resized call⟩))
  | repaint {s : Screen} {call : Call} :
      ServerStep ⟨s, .resized call⟩
        (afterQueue (s.queue (hjRepaintMessage ⟨0, 0, i32 call.width, i32 call.height⟩ 0)) call
          fun s => leave { s with hj := henjinScreen s.hj call.width call.height } .sOk call)

/-- The event of the call that the server is in. -/
def Server.event : Server → Option Nat
  | .outside _ => none
  | .waiting call | .stopped call | .finished call | .initialised call | .enabled call
  | .resized call => some call.event

/-- The steps of everyone: the server, the loop of `hj_desktop_thread_proc`, and others that queue
messages to the desktop, use its children, and have bitmaps and events of their own. -/
inductive Step : System → Unit → System → Prop
  | server {s t : System} (step : ServerStep s t) : Step s () t
  | take {s : System} {msg : List (BitVec 8)} {desktop : HjControl} (free : s.handling = none)
      (got : hjGetMessage s.hj.desktop = (.sOk, msg, desktop)) :
      Step s ()
        ⟨{ s.toScreen with hj := { s.hj with desktop := desktop }, handling := some msg }, s.server⟩
  | handle {s : System} {msg : List (BitVec 8)} {allocated : Bool} {screen : Screen}
      (busy : s.handling = some msg)
      (handled : desktopMessageHandler s.toScreen allocated msg = (.sOk, screen)) :
      Step s () ⟨{ screen with handling := none }, s.server⟩
  | queue {s : System} (msg : HjMessage) (ordinary : Ordinary msg.bytes) :
      Step s () ⟨(s.toScreen.queue msg).2, s.server⟩
  | children {s : System} (children : List HjControlMeta) :
      Step s () ⟨{ s.toScreen with desktop := { s.desktop with children := children } }, s.server⟩
  | bitmap {s : System} (a : Nat) (bitmap : Option NxgiBitmap) (other : a ≠ s.nxgi.screenSurf) :
      Step s ()
        ⟨{ s.toScreen with nxgi := { s.nxgi with bitmaps := update s.nxgi.bitmaps a bitmap } },
          s.server⟩
  | event {s : System} (a : Nat) (event : Option KEvent) (other : s.server.event ≠ some a) :
      Step s () ⟨{ s.toScreen with events := update s.events a event }, s.server⟩

/-- The server before the first call, with the desktop that `hj_create_desktop` has made. -/
structure Created (s : System) : Prop where
  server : s.server = .outside none
  queue : Pending s.hj.desktop []
  handling : s.handling = none
  drawEnabled : s.desktop.drawEnabled = false
  screenSurf : s.nxgi.screenSurf = 0

/-! ## What the messages say -/

theorem hjLockMessage_type {type : Nat} (small : type < 2 ^ 32) (event : Nat) :
    messageType (hjLockMessage type event).bytes = type := by
  rw [messageType, hjLockMessage, field_here]
  exact Nat.mod_eq_of_lt small

theorem hjLockMessage_event {event : Nat} (small : event < 2 ^ 32) (type : Nat) :
    field 4 4 (hjLockMessage type event).bytes = event := by
  rw [hjLockMessage, field_skip 4 0, field_here]
  exact Nat.mod_eq_of_lt small

theorem hjResizeMessage_type (x y surfaceFmt : Nat) :
    messageType (hjResizeMessage x y surfaceFmt).bytes = hjMessageResize := by
  rw [messageType, hjResizeMessage, field_here]
  rfl

theorem hjResizeMessage_size (x y surfaceFmt : Nat) :
    field 4 2 (hjResizeMessage x y surfaceFmt).bytes = x % 2 ^ 16 ∧
      field 6 2 (hjResizeMessage x y surfaceFmt).bytes = y % 2 ^ 16 := by
  constructor
  · exact (field_skip 4 0 2 _ _).trans (field_here 2 x _)
  · exact (field_skip 4 2 2 _ _).trans ((field_skip 2 0 2 _ _).trans (field_here 2 y _))

theorem hjRepaintMessage_ordinary (rect : NxgiRect) (gc : Nat) :
    Ordinary (hjRepaintMessage rect gc).bytes := by
  have type : messageType (hjRepaintMessage rect gc).bytes = hjMessageRepaint := by
    rw [messageType, hjRepaintMessage, field_here]
    rfl
  rw [Ordinary, type]
  decide

/-! ## The new screen -/

theorem bgaRead_bgaWrite_lt (vc : VesaDrvContext) (reg value : Nat) :
    bgaRead (bgaWrite vc reg value) reg < 2 ^ 16 := by
  simp only [bgaRead, bgaWrite, update_self]
  exact Nat.mod_lt _ (by decide)

theorem bgaRead_bgaWrite_of_ne (vc : VesaDrvContext) {reg reg' : Nat} (value : Nat)
    (differs : reg' ≠ reg) : bgaRead (bgaWrite vc reg value) reg' = bgaRead vc reg' := by
  simp only [bgaRead, bgaWrite, update_of_ne differs]

/-- The adapter only holds sizes of 16 bits. -/
theorem bgaSetModeInner_sOk {vc vc' : VesaDrvContext} {width height bpp : Nat} {lfbMode : Bool}
    (done : bgaSetModeInner vc width height bpp lfbMode = (.sOk, vc')) :
    width < 2 ^ 16 ∧ height < 2 ^ 16 := by
  obtain ⟨status, -⟩ := Prod.mk.inj done
  split at status
  · cases status
  · next same =>
    simp only [not_or, not_not] at same
    obtain ⟨sameWidth, sameHeight, -⟩ := same
    rw [bgaRead_bgaWrite_of_ne _ _ (by decide), bgaRead_bgaWrite_of_ne _ _ (by decide)] at sameWidth
    rw [bgaRead_bgaWrite_of_ne _ _ (by decide)] at sameHeight
    constructor
    · rw [← sameWidth]
      exact bgaRead_bgaWrite_lt _ _ _
    · rw [← sameHeight]
      exact bgaRead_bgaWrite_lt _ _ _

/-- A mode that is set is the one that was asked for. -/
theorem bgaSetMode_sOk {vc vc' : VesaDrvContext} {width height : Nat} {format : NxgiFormat}
    (done : bgaSetMode vc width height format = (.sOk, vc')) :
    width < 2 ^ 16 ∧ height < 2 ^ 16 ∧
      vc'.mode = ⟨width, height, 32, u32 (width * 32) / 8, format⟩ := by
  have bpp : videoFormatToBpp format = 32 := by cases format <;> rfl
  unfold bgaSetMode at done
  dsimp only at done
  split at done
  · next inner set =>
    obtain ⟨wide, high⟩ := bgaSetModeInner_sOk set
    obtain rfl := (Prod.mk.inj done).2
    exact ⟨wide, high, by rw [bpp]⟩
  · next failed notOk =>
    exact absurd done (fun same => notOk _ same)

/-- The bitmap is a screen of the mode that a call has asked for. -/
structure IsScreen (call : Call) (t : NxgiBitmap) : Prop where
  wide : call.width < 2 ^ 16
  high : call.height < 2 ^ 16
  width : t.width = call.width
  height : t.height = call.height
  stride : t.stride = call.width * 4
  format : t.format = call.format

/-- After `nxgi_init` there is the screen that was asked for, or none. -/
theorem nxgiInit_cases {c c' : NxgiContext} {call : Call} {opened : Bool} {ss : Nat} {hr : HResult}
    (closed : c.screenSurf = 0)
    (done : nxgiInit c call.width call.height call.format opened ss = (hr, c')) :
    (c'.screenSurf = 0 ∧ c'.bitmaps = c.bitmaps) ∨ ∃ t, hr = .sOk ∧ c'.screenSurf = ss ∧ ss ≠ 0 ∧
      c'.bitmaps = update c.bitmaps ss (some t) ∧ IsScreen call t := by
  unfold nxgiInit at done
  split at done
  · obtain ⟨-, rfl⟩ := Prod.mk.inj done
    exact .inl ⟨closed, rfl⟩
  · split at done
    · next driver set =>
      obtain ⟨wide, high, mode⟩ := bgaSetMode_sOk set
      dsimp only at done
      split at done
      · obtain ⟨-, rfl⟩ := Prod.mk.inj done
        exact .inl ⟨closed, rfl⟩
      · next some =>
        obtain ⟨rfl, rfl⟩ := Prod.mk.inj done
        refine .inr ⟨_, rfl, rfl, some, rfl, ?_⟩
        have stride : u32 (call.width * 32) / 8 = call.width * 4 := by
          rw [u32_of_lt (by omega)]
          omega
        have asked : ∀ desc : KVideoModeDesc,
            bgaGetMode driver desc = desc ∨ bgaGetMode driver desc = driver.mode := by
          intro desc
          unfold bgaGetMode
          split
          · exact .inl rfl
          · exact .inr rfl
        cases asked ⟨call.width, call.height, 0, 0, call.format⟩ with
        | inl kept =>
          rw [kept]
          exact ⟨wide, high, rfl, rfl, by rw [mode]; exact stride, rfl⟩
        | inr read =>
          rw [read, mode]
          exact ⟨wide, high, rfl, rfl, stride, rfl⟩
    · obtain ⟨-, rfl⟩ := Prod.mk.inj done
      exact .inl ⟨closed, rfl⟩

theorem nxgiFini_sOk {c c' : NxgiContext} (done : nxgiFini c = .ok c') : c'.screenSurf = 0 := by
  unfold nxgiFini at done
  obtain ⟨driver, -, done⟩ := exists_of_bind done
  obtain rfl := Except.ok.inj done
  rfl

/-! ## What is waiting -/

/-- The messages that the desktop has not handled: the one that it is at, and those in its queue. -/
structure Unhandled (s : Screen) (msgs : List (List (BitVec 8))) : Prop where
  queued : ∃ queue, Pending s.hj.desktop queue ∧
    msgs = s.handling.toList ++ queue.map HjMessage.bytes

/-- None of the messages is of the type. -/
def Without (type : Nat) (msgs : List (List (BitVec 8))) : Prop :=
  ∀ msg ∈ msgs, messageType msg ≠ type

def Quiet (msgs : List (List (BitVec 8))) : Prop := ∀ msg ∈ msgs, Ordinary msg

section

variable {s t : Screen} {msgs more : List (List (BitVec 8))} {msg : List (BitVec 8)} {type : Nat}

theorem Without.append (first : Without type msgs) (second : Without type more) :
    Without type (msgs ++ more) := by
  intro msg member
  cases List.mem_append.mp member with
  | inl early => exact first msg early
  | inr late => exact second msg late

theorem Without.single (differs : messageType msg ≠ type) : Without type [msg] := by
  intro msg' member
  rwa [List.mem_singleton.mp member]

theorem Without.tail (without : Without type (msg :: msgs)) : Without type msgs :=
  fun msg' member => without msg' (List.mem_cons_of_mem _ member)

theorem Quiet.snoc (quiet : Quiet msgs) (ordinary : Ordinary msg) : Quiet (msgs ++ [msg]) := by
  intro msg' member
  cases List.mem_append.mp member with
  | inl early => exact quiet msg' early
  | inr late => rwa [List.mem_singleton.mp late]

theorem Quiet.without (quiet : Quiet msgs) :
    Without hjMessageResize msgs ∧ Without hjMessageDisableDrawing msgs ∧
      Without hjMessageEnableDrawing msgs :=
  ⟨fun msg member => (quiet msg member).1, fun msg member => (quiet msg member).2.1,
    fun msg member => (quiet msg member).2.2⟩

/-- A message is queued behind the others, or refused. -/
theorem Unhandled.queue (unhandled : Unhandled s msgs) (msg : HjMessage) :
    ((s.queue msg).1.failed = true ∧ (s.queue msg).2 = s) ∨
      ((s.queue msg).1 = .sOk ∧ ∃ desktop,
        (s.queue msg).2 = { s with hj := { s.hj with desktop := desktop } } ∧
        Unhandled (s.queue msg).2 (msgs ++ [msg.bytes])) := by
  obtain ⟨queue, pending, rfl⟩ := unhandled.queued
  unfold Screen.queue
  by_cases room : queue.length < 511
  · obtain ⟨desktop, queued, pending'⟩ := pending.queueMessage_room msg room
    rw [queued]
    refine .inr ⟨rfl, desktop, rfl, ⟨queue ++ [msg], pending', ?_⟩⟩
    simp
  · rw [pending.queueMessage_full msg (by omega)]
    exact .inl ⟨rfl, rfl⟩

/-- Taking a message from the queue leaves it unhandled. -/
theorem Unhandled.take (unhandled : Unhandled s msgs) {desktop : HjControl}
    (free : s.handling = none) (got : hjGetMessage s.hj.desktop = (.sOk, msg, desktop)) :
    Unhandled { s with hj := { s.hj with desktop := desktop }, handling := some msg } msgs := by
  obtain ⟨queue, pending, rfl⟩ := unhandled.queued
  cases queue with
  | nil =>
    rw [pending.getMessage_nil] at got
    cases (Prod.mk.inj got).1
  | cons first rest =>
    obtain ⟨desktop', got', pending'⟩ := pending.getMessage_cons
    rw [got'] at got
    obtain ⟨-, rest'⟩ := Prod.mk.inj got
    obtain ⟨rfl, rfl⟩ := Prod.mk.inj rest'
    exact ⟨rest, pending', by simp [free]⟩

/-- The message that is handled is the first. -/
theorem Unhandled.handling (unhandled : Unhandled s msgs) (busy : s.handling = some msg) :
    ∃ rest, msgs = msg :: rest ∧ Unhandled { s with handling := none } rest := by
  obtain ⟨queue, pending, rfl⟩ := unhandled.queued
  exact ⟨queue.map HjMessage.bytes, by simp [busy], queue, pending, by simp⟩

end

/-! ## What handling a message does -/

/-- What a message changes when it is handled, by its type. -/
inductive Handled (s : Screen) (msg : List (BitVec 8)) : HjDesktop → (Nat → Option KEvent) → Prop
  | disable {surface : Nat} (type : messageType msg = hjMessageDisableDrawing) :
      Handled s msg { s.desktop with surface := surface, drawEnabled := false }
        (signalAt s.events (field 4 4 msg))
  | enabled (type : messageType msg = hjMessageEnableDrawing)
      (drawing : s.desktop.drawEnabled = true) : Handled s msg s.desktop s.events
  | enable (type : messageType msg = hjMessageEnableDrawing) :
      Handled s msg { s.desktop with surface := s.nxgi.screenSurf, drawEnabled := true }
        (signalAt s.events (field 4 4 msg))
  | resize {taskPanel : HjControl} {children : List HjControlMeta}
      (type : messageType msg = hjMessageResize) :
      Handled s msg { s.desktop with
        boundsRect := ⟨0, 0, field 4 2 msg, field 6 2 msg⟩
        size := ⟨field 4 2 msg, field 6 2 msg⟩
        taskPanel := taskPanel
        children := children } s.events
  | ordinary (ordinary : Ordinary msg) : Handled s msg s.desktop s.events

theorem i32_field (offset : Nat) (msg : List (BitVec 8)) :
    i32 (field offset 2 msg) = field offset 2 msg := by
  have small := field_lt offset 2 msg
  exact i32_of_range (by omega) (by omega)

theorem desktopResize_sOk {d d' : HjDesktop} {c : NxgiContext} {msg : List (BitVec 8)} {hr : HResult}
    (resized : desktopResize d c (field 4 2 msg) (field 6 2 msg) = (hr, d')) (sOk : ¬ hr.failed) :
    ∃ taskPanel children, d' = { d with
      boundsRect := ⟨0, 0, field 4 2 msg, field 6 2 msg⟩
      size := ⟨field 4 2 msg, field 6 2 msg⟩
      taskPanel := taskPanel
      children := children } := by
  unfold desktopResize at resized
  dsimp only at resized
  rw [i32_field, i32_field] at resized
  split at resized
  · next failed =>
    rw [← (Prod.mk.inj resized).1] at sOk
    exact absurd failed sOk
  · exact ⟨_, _, (Prod.mk.inj resized).2.symm⟩

/-- Only the desktop and the events change. -/
theorem desktopMessageHandler_cases {s t : Screen} {allocated : Bool} {msg : List (BitVec 8)}
    (handled : desktopMessageHandler s allocated msg = (.sOk, t)) :
    ∃ desktop events, t = { s with desktop := desktop, events := events } ∧
      Handled s msg desktop events := by
  unfold desktopMessageHandler at handled
  split at handled
  · next type =>
    obtain ⟨-, rfl⟩ := Prod.mk.inj handled
    have desktop : (if s.desktop.drawEnabled then
        { s.desktop with surface := 0, drawEnabled := false } else s.desktop) =
        { s.desktop with
          surface := if s.desktop.drawEnabled then 0 else s.desktop.surface
          drawEnabled := false } := by
      obtain ⟨children, taskPanel, surface, drawEnabled, boundsRect, size⟩ := s.desktop
      cases drawEnabled <;> rfl
    exact ⟨_, _, rfl, desktop ▸ .disable type⟩
  · next notDisable =>
    split at handled
    · next type =>
      split at handled
      · next drawing =>
        obtain ⟨-, rfl⟩ := Prod.mk.inj handled
        exact ⟨_, _, rfl, .enabled type drawing⟩
      · dsimp only at handled
        split at handled
        · cases (Prod.mk.inj handled).1
        · split at handled
          · cases (Prod.mk.inj handled).1
          · obtain ⟨-, rfl⟩ := Prod.mk.inj handled
            exact ⟨_, _, rfl, .enable type⟩
    · next notEnable =>
      split at handled
      · next type =>
        dsimp only at handled
        obtain ⟨status, rfl⟩ := Prod.mk.inj handled
        have sOk : ¬ (desktopResize s.desktop s.nxgi (field 4 2 msg) (field 6 2 msg)).1.failed := by
          intro failed
          rw [if_pos failed] at status
          cases status
        obtain ⟨taskPanel, children, resized⟩ := desktopResize_sOk rfl sOk
        exact ⟨_, _, rfl, resized ▸ .resize type⟩
      · next notResize =>
        obtain ⟨-, rfl⟩ := Prod.mk.inj handled
        exact ⟨_, _, rfl, .ordinary ⟨notResize, notDisable, notEnable⟩⟩

/-! ## The invariant -/

/-- The desktop draws on the screen, if it draws, and the screen is allocated. -/
structure Sound (s : Screen) (msgs : List (List (BitVec 8))) : Prop where
  unhandled : Unhandled s msgs
  drawn : s.desktop.drawEnabled = true → s.desktop.surface = s.nxgi.screenSurf
  live : s.nxgi.screenSurf ≠ 0 → (s.nxgi.bitmaps s.nxgi.screenSurf).isSome
  unsignaling : ∀ msg ∈ msgs, messageType msg = hjMessageEnableDrawing → field 4 4 msg = 0

/-- The screen is the one that a call has asked for, and the desktop draws on it, or will. -/
structure WillDraw (call : Call) (s : Screen) (msgs : List (List (BitVec 8))) : Prop where
  screen : ∀ t, s.nxgi.screenSurf ≠ 0 → s.nxgi.bitmaps s.nxgi.screenSurf = some t → IsScreen call t
  stays : Without hjMessageDisableDrawing msgs
  enabled : s.desktop.drawEnabled = true ∨ ∃ msg ∈ msgs, messageType msg = hjMessageEnableDrawing

/-- The desktop has the size that a call has asked for, or will have it. -/
inductive WillFit (call : Call) (s : Screen) (msgs : List (List (BitVec 8))) : Prop
  | now (without : Without hjMessageResize msgs)
      (bounds : s.desktop.boundsRect = ⟨0, 0, call.width % 2 ^ 16, call.height % 2 ^ 16⟩)
      (size : s.desktop.size = ⟨call.width % 2 ^ 16, call.height % 2 ^ 16⟩)
  | later {before after : List (List (BitVec 8))}
      (split : msgs = before ++ (hjResizeMessage call.width call.height 0).bytes :: after)
      (last : Without hjMessageResize after)

/-- The message to stop drawing is there, and the event has not been signaled. -/
structure WillStop (call : Call) (s : Screen) (msgs : List (List (BitVec 8))) : Prop where
  message : ∃ before after, msgs =
      before ++ (hjLockMessage hjMessageDisableDrawing call.event).bytes :: after ∧
    Without hjMessageDisableDrawing before ∧ Quiet after
  event : ∃ e, s.events call.event = some e ∧ e.state = stateUnsignaled
  there : call.event ≠ 0
  small : call.event < 2 ^ 32

/-- Nothing is drawn, and nothing will be. -/
structure Stopped (s : Screen) (msgs : List (List (BitVec 8))) : Prop where
  stopped : s.desktop.drawEnabled = false
  quiet : Quiet msgs

/-- What holds where the server is. -/
def Phase : Server → Screen → List (List (BitVec 8)) → Prop
  | .outside none, s, msgs => Stopped s msgs
  | .outside (some (hr, call)), s, msgs =>
    Without hjMessageDisableDrawing msgs ∧
      (hr = .sOk → WillDraw call s msgs ∧ WillFit call s msgs)
  | .waiting call, s, msgs => WillStop call s msgs ∨ Stopped s msgs
  | .stopped _, s, msgs => Stopped s msgs
  | .finished _, s, msgs => Stopped s msgs ∧ s.nxgi.screenSurf = 0
  | .initialised call, s, msgs => Stopped s msgs ∧
    ∀ t, s.nxgi.screenSurf ≠ 0 → s.nxgi.bitmaps s.nxgi.screenSurf = some t → IsScreen call t
  | .enabled call, s, msgs => WillDraw call s msgs ∧ Without hjMessageResize msgs
  | .resized call, s, msgs => WillDraw call s msgs ∧ WillFit call s msgs

section

variable {s t : Screen} {msgs : List (List (BitVec 8))} {msg : List (BitVec 8)} {call : Call}
  {server : Server}

/-- What the phases speak of is the same. -/
structure Alike (server : Server) (s t : Screen) : Prop where
  drawEnabled : t.desktop.drawEnabled = s.desktop.drawEnabled
  boundsRect : t.desktop.boundsRect = s.desktop.boundsRect
  size : t.desktop.size = s.desktop.size
  screenSurf : t.nxgi.screenSurf = s.nxgi.screenSurf
  bitmap : t.nxgi.bitmaps t.nxgi.screenSurf = s.nxgi.bitmaps s.nxgi.screenSurf
  event : ∀ a, server.event = some a → t.events a = s.events a

theorem Alike.of_eq (desktop : t.desktop = s.desktop) (nxgi : t.nxgi = s.nxgi)
    (events : t.events = s.events) : Alike server s t := by
  constructor <;> simp [desktop, nxgi, events]

theorem Stopped.congr (stopped : Stopped s msgs) (alike : Alike server s t) : Stopped t msgs :=
  ⟨alike.drawEnabled.trans stopped.stopped, stopped.quiet⟩

theorem WillDraw.congr (draws : WillDraw call s msgs) (alike : Alike server s t) :
    WillDraw call t msgs := by
  refine ⟨?_, draws.stays, ?_⟩
  · intro bitmap
    rw [alike.bitmap, alike.screenSurf]
    exact draws.screen bitmap
  · rw [alike.drawEnabled]
    exact draws.enabled

theorem WillFit.congr (fits : WillFit call s msgs) (alike : Alike server s t) :
    WillFit call t msgs := by
  cases fits with
  | now without bounds size =>
    exact .now without (alike.boundsRect.trans bounds) (alike.size.trans size)
  | later split last => exact .later split last

theorem Phase.congr (phase : Phase server s msgs) (alike : Alike server s t) :
    Phase server t msgs := by
  cases server with
  | outside last =>
    cases last with
    | none => exact Stopped.congr phase alike
    | some returned =>
      exact ⟨phase.1, fun sOk => ⟨(phase.2 sOk).1.congr alike, (phase.2 sOk).2.congr alike⟩⟩
  | waiting call =>
    cases phase with
    | inl stops =>
      refine .inl ⟨stops.message, ?_, stops.there, stops.small⟩
      rw [alike.event call.event rfl]
      exact stops.event
    | inr stopped => exact .inr (stopped.congr alike)
  | stopped call => exact Stopped.congr phase alike
  | finished call => exact ⟨phase.1.congr alike, alike.screenSurf.trans phase.2⟩
  | initialised call =>
    refine ⟨phase.1.congr alike, ?_⟩
    intro bitmap
    rw [alike.bitmap, alike.screenSurf]
    exact phase.2 bitmap
  | enabled call => exact ⟨phase.1.congr alike, phase.2⟩
  | resized call => exact ⟨phase.1.congr alike, phase.2.congr alike⟩

theorem WillDraw.snoc (draws : WillDraw call s msgs)
    (stays : messageType msg ≠ hjMessageDisableDrawing) : WillDraw call s (msgs ++ [msg]) := by
  refine ⟨draws.screen, draws.stays.append (.single stays), ?_⟩
  cases draws.enabled with
  | inl now => exact .inl now
  | inr later =>
    obtain ⟨msg', member, type⟩ := later
    exact .inr ⟨msg', List.mem_append_left _ member, type⟩

theorem WillFit.snoc (fits : WillFit call s msgs) (ordinary : Ordinary msg) :
    WillFit call s (msgs ++ [msg]) := by
  cases fits with
  | now without bounds size => exact .now (without.append (.single ordinary.1)) bounds size
  | @later before after split last =>
    exact .later (by rw [split, List.append_assoc, List.cons_append])
      (last.append (.single ordinary.1))

/-- An ordinary message changes no phase. -/
theorem Phase.snoc (phase : Phase server s msgs) (ordinary : Ordinary msg) :
    Phase server s (msgs ++ [msg]) := by
  have stopped : Stopped s msgs → Stopped s (msgs ++ [msg]) := fun stopped =>
    ⟨stopped.stopped, stopped.quiet.snoc ordinary⟩
  cases server with
  | outside last =>
    cases last with
    | none => exact stopped phase
    | some returned =>
      refine ⟨phase.1.append (.single ordinary.2.1), fun sOk => ?_⟩
      exact ⟨(phase.2 sOk).1.snoc ordinary.2.1, (phase.2 sOk).2.snoc ordinary⟩
  | waiting call =>
    cases phase with
    | inl stops =>
      obtain ⟨before, after, split, without, quiet⟩ := stops.message
      refine .inl ⟨⟨before, after ++ [msg], ?_, without, quiet.snoc ordinary⟩, stops.event,
        stops.there, stops.small⟩
      rw [split, List.append_assoc, List.cons_append]
    | inr now => exact .inr (stopped now)
  | stopped call => exact stopped phase
  | finished call => exact ⟨stopped phase.1, phase.2⟩
  | initialised call => exact ⟨stopped phase.1, phase.2⟩
  | enabled call => exact ⟨phase.1.snoc ordinary.2.1, phase.2.append (.single ordinary.1)⟩
  | resized call => exact ⟨phase.1.snoc ordinary.2.1, phase.2.snoc ordinary⟩

/-! ## Messages that are handled -/

variable {rest : List (List (BitVec 8))} {desktop : HjDesktop} {events : Nat → Option KEvent}

/-- The first message, or one behind it. -/
theorem cons_split {before after : List (List (BitVec 8))} {x : List (BitVec 8)}
    (split : msg :: rest = before ++ x :: after) :
    (msg = x ∧ rest = after) ∨ ∃ before', before = msg :: before' ∧ rest = before' ++ x :: after := by
  cases before with
  | nil =>
    obtain ⟨rfl, rfl⟩ := List.cons.inj split
    exact .inl ⟨rfl, rfl⟩
  | cons first before =>
    obtain ⟨rfl, rfl⟩ := List.cons.inj split
    exact .inr ⟨before, rfl, rfl⟩

theorem Quiet.tail (quiet : Quiet (msg :: rest)) : Quiet rest :=
  fun msg' member => quiet msg' (List.mem_cons_of_mem _ member)

/-- After the message to stop drawing comes what the server waits for. -/
theorem WillStop.tail (stops : WillStop call s (msg :: rest)) :
    (messageType msg = hjMessageDisableDrawing ∧ field 4 4 msg = call.event ∧ Quiet rest) ∨
      (messageType msg ≠ hjMessageDisableDrawing ∧ WillStop call s rest) := by
  obtain ⟨before, after, split, without, quiet⟩ := stops.message
  cases cons_split split with
  | inl first =>
    obtain ⟨rfl, rfl⟩ := first
    exact .inl ⟨hjLockMessage_type (by decide) _, hjLockMessage_event stops.small _, quiet⟩
  | inr behind =>
    obtain ⟨before', rfl, rfl⟩ := behind
    exact .inr ⟨without msg List.mem_cons_self, ⟨before', after, rfl, without.tail, quiet⟩,
      stops.event, stops.there, stops.small⟩

/-- The message that gives the size makes the desktop have it. -/
theorem WillFit.tail (fits : WillFit call s (msg :: rest)) :
    (messageType msg = hjMessageResize ∧ field 4 2 msg = call.width % 2 ^ 16 ∧
        field 6 2 msg = call.height % 2 ^ 16 ∧ Without hjMessageResize rest) ∨
      WillFit call s rest ∧ (messageType msg = hjMessageResize → ∃ before after, rest =
        before ++ (hjResizeMessage call.width call.height 0).bytes :: after ∧
        Without hjMessageResize after) := by
  cases fits with
  | now without bounds size =>
    exact .inr ⟨.now without.tail bounds size,
      fun type => absurd type (without msg List.mem_cons_self)⟩
  | later split last =>
    cases cons_split split with
    | inl first =>
      obtain ⟨rfl, rfl⟩ := first
      obtain ⟨width, height⟩ := hjResizeMessage_size call.width call.height 0
      exact .inl ⟨hjResizeMessage_type _ _ _, width, height, last⟩
    | inr behind =>
      obtain ⟨before', -, rfl⟩ := behind
      exact .inr ⟨.later rfl last, fun _ => ⟨_, _, rfl, last⟩⟩

/-- Handling a message brings the desktop closer to drawing. -/
theorem WillDraw.handled (draws : WillDraw call s (msg :: rest)) (handled : Handled s msg desktop events) :
    WillDraw call { s with desktop := desktop, events := events, handling := none } rest := by
  refine ⟨draws.screen, draws.stays.tail, ?_⟩
  have still : s.desktop.drawEnabled = true ∨ messageType msg = hjMessageEnableDrawing ∨
      ∃ msg' ∈ rest, messageType msg' = hjMessageEnableDrawing := by
    cases draws.enabled with
    | inl now => exact .inl now
    | inr later =>
      obtain ⟨msg', member, type⟩ := later
      cases List.mem_cons.mp member with
      | inl first => exact .inr (.inl (first ▸ type))
      | inr behind => exact .inr (.inr ⟨msg', behind, type⟩)
  cases handled with
  | disable type => exact absurd type (draws.stays msg List.mem_cons_self)
  | enabled type drawing => exact .inl drawing
  | enable type => exact .inl rfl
  | resize type =>
    have other : messageType msg ≠ hjMessageEnableDrawing := by
      rw [type]
      decide
    simpa [other] using still
  | ordinary ordinary => simpa [ordinary.2.2] using still

/-- Handling a message brings the desktop closer to its size. -/
theorem WillFit.handled (fits : WillFit call s (msg :: rest)) (handled : Handled s msg desktop events) :
    WillFit call { s with desktop := desktop, events := events, handling := none } rest := by
  cases fits.tail with
  | inl here =>
    obtain ⟨type, width, height, without⟩ := here
    cases handled with
    | resize type =>
      refine .now without ?_ ?_
      · simp only [width, height]
        rfl
      · simp only [width, height]
        rfl
    | disable other | enabled other _ | enable other =>
      rw [type] at other
      cases other
    | ordinary ordinary => exact absurd type ordinary.1
  | inr behind =>
    obtain ⟨fits, later⟩ := behind
    cases handled with
    | resize type =>
      obtain ⟨before, after, split, last⟩ := later type
      exact .later split last
    | disable _ | enabled _ _ | enable _ | ordinary _ =>
      cases fits with
      | now without bounds size => exact .now without bounds size
      | later split last => exact .later split last

theorem signalAt_zero (events : Nat → Option KEvent) : signalAt events 0 = events := rfl

/-- What handling a message leaves of the phase. -/
theorem Phase.handled (phase : Phase server s (msg :: rest)) (sound : Sound s (msg :: rest))
    (handled : Handled s msg desktop events) :
    Phase server { s with desktop := desktop, events := events, handling := none } rest := by
  -- where nothing may be drawn only ordinary messages come
  have stopped : Stopped s (msg :: rest) →
      Stopped { s with desktop := desktop, events := events, handling := none } rest := by
    intro stopped
    have ordinary := stopped.quiet msg List.mem_cons_self
    refine ⟨?_, stopped.quiet.tail⟩
    cases handled with
    | disable type => exact absurd type ordinary.2.1
    | enabled type _ | enable type => exact absurd type ordinary.2.2
    | resize type => exact absurd type ordinary.1
    | ordinary _ => exact stopped.stopped
  cases server with
  | outside last =>
    cases last with
    | none => exact stopped phase
    | some returned =>
      exact ⟨phase.1.tail, fun sOk => ⟨(phase.2 sOk).1.handled handled, (phase.2 sOk).2.handled handled⟩⟩
  | waiting call =>
    cases phase with
    | inr now => exact .inr (stopped now)
    | inl stops =>
      cases stops.tail with
      | inl first =>
        obtain ⟨type, -, quiet⟩ := first
        cases handled with
        | disable _ => exact .inr ⟨rfl, quiet⟩
        | enabled other _ | enable other | resize other =>
          rw [type] at other
          cases other
        | ordinary ordinary => exact absurd type ordinary.2.1
      | inr behind =>
        obtain ⟨other, stops⟩ := behind
        refine .inl ⟨stops.message, ?_, stops.there, stops.small⟩
        cases handled with
        | disable type => exact absurd type other
        | enable type =>
          simp only [sound.unsignaling msg List.mem_cons_self type, signalAt_zero]
          exact stops.event
        | enabled _ _ | resize _ | ordinary _ => exact stops.event
  | stopped call => exact stopped phase
  | finished call => exact ⟨stopped phase.1, phase.2⟩
  | initialised call => exact ⟨stopped phase.1, phase.2⟩
  | enabled call =>
    exact ⟨phase.1.handled handled, phase.2.tail⟩
  | resized call => exact ⟨phase.1.handled handled, phase.2.handled handled⟩

theorem Sound.handled (sound : Sound s (msg :: rest)) (busy : s.handling = some msg)
    (handled : Handled s msg desktop events) :
    Sound { s with desktop := desktop, events := events, handling := none } rest := by
  obtain ⟨rest', split, unhandled⟩ := sound.unhandled.handling busy
  obtain rfl := (List.cons.inj split).2
  refine ⟨⟨unhandled.queued⟩, ?_, sound.live, ?_⟩
  swap
  · exact fun msg' member => sound.unsignaling msg' (List.mem_cons_of_mem _ member)
  cases handled with
  | disable _ => simp
  | enable _ => simp
  | enabled _ _ | resize _ | ordinary _ => exact sound.drawn

end

/-! ## Steps -/

/-- What holds in every state. -/
def Holds (s : System) : Prop := ∃ msgs, Sound s.toScreen msgs ∧ Phase s.server s.toScreen msgs

/-- A queue takes a message, or the server leaves with a failure. -/
theorem holds_afterQueue {s : Screen} {msgs : List (List (BitVec 8))} {msg : HjMessage} {call : Call}
    {next : Screen → System} (sound : Sound s msgs)
    (unsignaling : messageType msg.bytes = hjMessageEnableDrawing → field 4 4 msg.bytes = 0)
    (refused : Without hjMessageDisableDrawing msgs)
    (taken : ∀ t : Screen, t.desktop = s.desktop → t.nxgi = s.nxgi → t.events = s.events →
      Sound t (msgs ++ [msg.bytes]) → Holds (next t)) : Holds (afterQueue (s.queue msg) call next) := by
  cases sound.unhandled.queue msg with
  | inl full =>
    obtain ⟨failed, same⟩ := full
    rw [afterQueue, if_pos failed, same]
    refine ⟨msgs, ⟨?_, sound.drawn, sound.live, sound.unsignaling⟩, refused, ?_⟩
    · exact ⟨sound.unhandled.queued⟩
    · intro sOk
      rw [sOk] at failed
      cases failed
  | inr queued =>
    obtain ⟨sOk, desktop, same, unhandled⟩ := queued
    rw [afterQueue, sOk, if_neg (by decide)]
    rw [same] at unhandled ⊢
    refine taken _ rfl rfl rfl ⟨unhandled, sound.drawn, sound.live, ?_⟩
    intro msg' member type
    cases List.mem_append.mp member with
    | inl early => exact sound.unsignaling msg' early type
    | inr late =>
      rw [List.mem_singleton.mp late] at type ⊢
      exact unsignaling type

/-- Where nothing is drawn the screen can be exchanged. -/
theorem Stopped.exchange {s : Screen} {msgs : List (List (BitVec 8))} {nxgi : NxgiContext}
    (stopped : Stopped s msgs) (sound : Sound s msgs)
    (live : nxgi.screenSurf ≠ 0 → (nxgi.bitmaps nxgi.screenSurf).isSome) :
    Stopped { s with nxgi := nxgi } msgs ∧ Sound { s with nxgi := nxgi } msgs := by
  refine ⟨⟨stopped.stopped, stopped.quiet⟩, ⟨sound.unhandled.queued⟩, ?_, live, sound.unsignaling⟩
  intro drawing
  exact absurd (stopped.stopped.symm.trans drawing) (by simp)

theorem Sound.same {s t : Screen} {msgs : List (List (BitVec 8))} (sound : Sound s msgs)
    (hj : t.hj = s.hj) (desktop : t.desktop = s.desktop) (nxgi : t.nxgi = s.nxgi)
    (handling : t.handling = s.handling) : Sound t msgs := by
  obtain ⟨⟨queue, pending, split⟩, drawn, live, unsignaling⟩ := sound
  refine ⟨⟨queue, by rwa [hj], by rwa [handling]⟩, ?_, ?_, unsignaling⟩
  · rwa [desktop, nxgi]
  · rwa [nxgi]

theorem Holds.begin {s : Screen} {last : Option (HResult × Call)} {call : Call}
    (holds : Holds ⟨s, .outside last⟩) (allocated : call.event ≠ 0) (small : call.event < 2 ^ 32) :
    Holds (afterQueue (Screen.queue
      { s with events := update s.events call.event (some (eventCreate flagAutoreset)) }
      (hjLockMessage hjMessageDisableDrawing call.event)) call (⟨·, .waiting call⟩)) := by
  obtain ⟨msgs, sound, phase⟩ := holds
  have type : messageType (hjLockMessage hjMessageDisableDrawing call.event).bytes =
      hjMessageDisableDrawing := hjLockMessage_type (by decide) _
  have without : Without hjMessageDisableDrawing msgs := by
    cases last with
    | none => exact phase.quiet.without.2.1
    | some returned => exact phase.1
  refine holds_afterQueue (sound.same rfl rfl rfl rfl) ?_ without ?_
  · intro other
    rw [type] at other
    cases other
  · intro t desktop nxgi events sound
    refine ⟨_, sound, .inl ⟨⟨msgs, [], rfl, without, by simp [Quiet]⟩, ?_, allocated, small⟩⟩
    rw [events]
    exact ⟨eventCreate flagAutoreset, by simp, rfl⟩

theorem Holds.init {s : Screen} {call : Call} {opened : Bool} {ss : Nat} {hr : HResult}
    {nxgi : NxgiContext} (holds : Holds ⟨s, .finished call⟩)
    (done : nxgiInit s.nxgi call.width call.height call.format opened ss = (hr, nxgi)) :
    Holds (if hr.failed then leave { s with nxgi := nxgi } hr call
      else ⟨{ s with nxgi := nxgi }, .initialised call⟩) := by
  obtain ⟨msgs, sound, stopped, closed⟩ := holds
  have made : (nxgi.screenSurf ≠ 0 → (nxgi.bitmaps nxgi.screenSurf).isSome) ∧
      ∀ t, nxgi.screenSurf ≠ 0 → nxgi.bitmaps nxgi.screenSurf = some t → IsScreen call t := by
    cases nxgiInit_cases closed done with
    | inl none =>
      exact ⟨fun some => absurd none.1 some, fun _ some => absurd none.1 some⟩
    | inr some =>
      obtain ⟨t, -, address, -, bitmaps, screen⟩ := some
      rw [address, bitmaps, update_self]
      refine ⟨fun _ => rfl, ?_⟩
      intro t' _ same
      rwa [← Option.some.inj same]
  obtain ⟨stopped, sound⟩ := stopped.exchange sound made.1
  split
  · next failed =>
    refine ⟨msgs, sound.same rfl rfl rfl rfl, stopped.quiet.without.2.1, ?_⟩
    intro sOk
    rw [sOk] at failed
    cases failed
  · exact ⟨msgs, sound, stopped, made.2⟩

/-- Every step of the server keeps what holds. -/
theorem Holds.serverStep {s t : System} (holds : Holds s) (step : ServerStep s t) : Holds t := by
  cases step with
  | begin call allocated small fresh => exact holds.begin allocated small
  | @noMemory _ last call =>
    obtain ⟨msgs, sound, phase⟩ := holds
    refine ⟨msgs, sound, ?_, fun sOk => by cases sOk⟩
    cases last with
    | none => exact phase.quiet.without.2.1
    | some returned => exact phase.1
  | wake there signaled =>
    obtain ⟨msgs, sound, phase⟩ := holds
    cases phase with
    | inl stops =>
      -- the event is not signaled before the message is handled
      obtain ⟨e, isEvent, unsignaled⟩ := stops.event
      obtain rfl := Option.some.inj (isEvent.symm.trans there)
      exact absurd unsignaled (by simpa [eventPoll, apply_ite Prod.fst] using signaled)
    | inr stopped => exact ⟨msgs, sound.same rfl rfl rfl rfl, stopped.stopped, stopped.quiet⟩
  | fini done =>
    obtain ⟨msgs, sound, stopped⟩ := holds
    have closed := nxgiFini_sOk done
    obtain ⟨stopped, sound⟩ := Stopped.exchange stopped sound fun some => absurd closed some
    exact ⟨msgs, sound, stopped, closed⟩
  | init fresh done => exact holds.init done
  | enable =>
    obtain ⟨msgs, sound, stopped, screen⟩ := holds
    refine holds_afterQueue sound (fun _ => hjLockMessage_event (by decide) _)
      stopped.quiet.without.2.1 ?_
    intro t desktop nxgi events sound
    have type : messageType (hjLockMessage hjMessageEnableDrawing 0).bytes =
        hjMessageEnableDrawing := hjLockMessage_type (by decide) _
    refine ⟨_, sound.same rfl rfl rfl rfl, ⟨?_, ?_, ?_⟩, ?_⟩
    · rw [nxgi]
      exact screen
    · refine stopped.quiet.without.2.1.append (.single ?_)
      rw [type]
      decide
    · exact .inr ⟨_, by simp, type⟩
    · refine stopped.quiet.without.1.append (.single ?_)
      rw [type]
      decide
  | @resize s call =>
    obtain ⟨msgs, sound, draws, without⟩ := holds
    have type := hjResizeMessage_type
    refine holds_afterQueue sound ?_ draws.stays ?_
    · intro other
      rw [type] at other
      cases other
    · intro t desktop nxgi events sound
      refine ⟨_, sound, ?_, .later rfl (by simp [Without])⟩
      have alike : Alike (.outside none) s t := .of_eq desktop nxgi events
      refine (draws.congr alike).snoc ?_
      rw [type]
      decide
  | @repaint s call =>
    obtain ⟨msgs, sound, draws, fits⟩ := holds
    have ordinary := hjRepaintMessage_ordinary ⟨0, 0, i32 call.width, i32 call.height⟩ 0
    refine holds_afterQueue sound (fun type => absurd type ordinary.2.2) draws.stays ?_
    intro t desktop nxgi events sound
    have alike : Alike (.outside none) s t := .of_eq desktop nxgi events
    have draws := (draws.congr alike).snoc ordinary.2.1
    have fits := (fits.congr alike).snoc ordinary
    obtain ⟨⟨queue, pending, split⟩, drawn, live, unsignaling⟩ := sound
    refine ⟨_, ⟨⟨queue, pending, split⟩, drawn, live, unsignaling⟩, draws.stays, fun _ => ⟨?_, ?_⟩⟩
    · refine draws.congr (?_ : Alike (.outside none) _ _)
      exact ⟨rfl, rfl, rfl, rfl, rfl, fun _ _ => by cases ‹_›⟩
    · refine fits.congr (?_ : Alike (.outside none) _ _)
      exact ⟨rfl, rfl, rfl, rfl, rfl, fun _ _ => by cases ‹_›⟩

theorem Holds.step {s t : System} {op : Unit} (holds : Holds s) (step : Step s op t) : Holds t := by
  cases step with
  | server step => exact holds.serverStep step
  | take free got =>
    obtain ⟨msgs, sound, phase⟩ := holds
    refine ⟨msgs, ⟨sound.unhandled.take free got, sound.drawn, sound.live, sound.unsignaling⟩, ?_⟩
    exact phase.congr ⟨rfl, rfl, rfl, rfl, rfl, fun _ _ => rfl⟩
  | handle busy handled =>
    obtain ⟨msgs, sound, phase⟩ := holds
    obtain ⟨rest, rfl, -⟩ := sound.unhandled.handling busy
    obtain ⟨desktop, events, rfl, change⟩ := desktopMessageHandler_cases handled
    exact ⟨rest, sound.handled busy change, phase.handled sound change⟩
  | queue msg ordinary =>
    obtain ⟨msgs, sound, phase⟩ := holds
    cases sound.unhandled.queue msg with
    | inl full =>
      rw [full.2]
      exact ⟨msgs, sound, phase⟩
    | inr queued =>
      obtain ⟨-, desktop, same, unhandled⟩ := queued
      rw [same] at unhandled ⊢
      refine ⟨_, ⟨unhandled, sound.drawn, sound.live, ?_⟩, ?_⟩
      · intro msg' member type
        cases List.mem_append.mp member with
        | inl early => exact sound.unsignaling msg' early type
        | inr late =>
          rw [List.mem_singleton.mp late] at type
          exact absurd type ordinary.2.2
      · exact (phase.snoc ordinary).congr ⟨rfl, rfl, rfl, rfl, rfl, fun _ _ => rfl⟩
  | children children =>
    obtain ⟨msgs, sound, phase⟩ := holds
    obtain ⟨⟨queue, pending, split⟩, drawn, live, unsignaling⟩ := sound
    refine ⟨msgs, ⟨⟨queue, pending, split⟩, drawn, live, unsignaling⟩, ?_⟩
    exact phase.congr ⟨rfl, rfl, rfl, rfl, rfl, fun _ _ => rfl⟩
  | bitmap a bitmap other =>
    obtain ⟨msgs, sound, phase⟩ := holds
    have same := update_of_ne other.symm bitmap s.nxgi.bitmaps
    refine ⟨msgs, ⟨⟨sound.unhandled.queued⟩, sound.drawn, ?_, sound.unsignaling⟩, ?_⟩
    · intro some
      simp only [same]
      exact sound.live some
    · exact phase.congr ⟨rfl, rfl, rfl, rfl, same, fun _ _ => rfl⟩
  | event a event other =>
    obtain ⟨msgs, sound, phase⟩ := holds
    refine ⟨msgs, sound.same rfl rfl rfl rfl, phase.congr ⟨rfl, rfl, rfl, rfl, rfl, ?_⟩⟩
    intro a' used
    refine update_of_ne ?_ _ _
    rintro rfl
    exact other used

theorem Created.holds {s : System} (created : Created s) : Holds s := by
  refine ⟨[], ⟨⟨[], created.queue, by simp [created.handling]⟩, ?_, ?_, by simp⟩, ?_⟩
  · intro drawing
    exact absurd (created.drawEnabled.symm.trans drawing) (by simp)
  · exact fun some => absurd created.screenSurf some
  · rw [created.server]
    exact ⟨created.drawEnabled, by simp [Quiet]⟩

/-! ## The screen is safe -/

section

variable {s : Screen} {msgs : List (List (BitVec 8))} {msg : List (BitVec 8)}

theorem Unhandled.mem (unhandled : Unhandled s msgs) (busy : s.handling = some msg) : msg ∈ msgs := by
  obtain ⟨rest, rfl, -⟩ := unhandled.handling busy
  exact List.mem_cons_self

/-- What the desktop touches is allocated, or `NULL` because there is no screen. -/
theorem Sound.touched (sound : Sound s msgs) : ∀ a ∈ s.touched msg,
    a = 0 ∨ (s.nxgi.bitmaps a).isSome := by
  have screen : s.nxgi.screenSurf = 0 ∨ (s.nxgi.bitmaps s.nxgi.screenSurf).isSome := by
    by_cases some : s.nxgi.screenSurf = 0
    · exact .inl some
    · exact .inr (sound.live some)
  intro a member
  unfold Screen.touched at member
  cases drawing : s.desktop.drawEnabled with
  | false =>
    simp only [drawing] at member
    split at member
    · rwa [List.mem_singleton.mp member]
    · split at member
      · cases member
      · split at member
        · rwa [List.mem_singleton.mp member]
        · cases member
  | true =>
    simp only [drawing, sound.drawn drawing] at member
    split at member
    · cases member
    · split at member
      · rwa [List.mem_singleton.mp member]
      · split at member
        · rwa [List.mem_singleton.mp member]
        · cases member

/-- Where nothing is drawn nothing is touched. -/
theorem Stopped.touched (stopped : Stopped s msgs) (member : msg ∈ msgs) : s.touched msg = [] := by
  obtain ⟨notResize, -, notEnable⟩ := stopped.quiet msg member
  simp [Screen.touched, notResize, notEnable, stopped.stopped]

/-- The event of a message to stop drawing is that of the call that is waiting. -/
theorem Phase.event {server : Server} (phase : Phase server s msgs) (member : msg ∈ msgs)
    (type : messageType msg = hjMessageDisableDrawing) : (s.events (field 4 4 msg)).isSome := by
  have quiet : Stopped s msgs → False := fun stopped => (stopped.quiet msg member).2.1 type
  cases server with
  | outside last =>
    cases last with
    | none => exact (quiet phase).elim
    | some returned => exact absurd type (phase.1 msg member)
  | waiting call =>
    cases phase with
    | inr stopped => exact (quiet stopped).elim
    | inl stops =>
      obtain ⟨before, after, rfl, without, ordinary⟩ := stops.message
      obtain ⟨e, isEvent, -⟩ := stops.event
      simp only [List.mem_append, List.mem_cons] at member
      cases member with
      | inl early => exact absurd type (without msg early)
      | inr member =>
        cases member with
        | inl here =>
          rw [here, hjLockMessage_event stops.small, isEvent]
          rfl
        | inr late => exact absurd type (ordinary msg late).2.1
  | stopped call => exact (quiet phase).elim
  | finished call => exact (quiet phase.1).elim
  | initialised call => exact (quiet phase.1).elim
  | enabled call => exact absurd type (phase.1.stays msg member)
  | resized call => exact absurd type (phase.1.stays msg member)

end

section

variable {s : Screen} {server : Server}

end

end Antonix.Henjin.Resolution
