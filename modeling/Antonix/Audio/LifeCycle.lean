import Antonix.Audio.Session
import Antonix.Lib.Transition
import Antonix.RingBuffer.Refinement
import Mathlib.Data.List.Infix

/-! # The life cycle of audio sessions

`sb16_stop_playback` does not leave the playing state.  As long as no session is closed
the player plays exactly while a session is open; the first close leaves a player that
plays without a session, and from then on no session opens. -/

namespace Antonix

open Transition

/-- The formats that the driver supports. -/
structure KAudioFormat.Supported (fmt : KAudioFormat) : Prop where
  rate : 5000 ≤ fmt.sampleRate ∧ fmt.sampleRate ≤ 44100
  depth : fmt.bitDepth = 8 ∨ fmt.bitDepth = 16
  channels : fmt.channels = 1 ∨ fmt.channels = 2

/-- The DSP takes every byte before `sb_write_dsp` gives up. -/
def Sb16Card.Ready (card : Sb16Card) : Prop := ∀ n, card.busyReads n < 50000

/-- The life cycle over a history: what holds in every state that is reached. -/
structure LifeCycle (start : AudioSystem) (ops : List (AudioEvent × HResult)) : Prop where
  playing_iff_open : ∀ done sys, done <+: ops → Run AudioStep start done sys →
    (sys.playerState = .playing ↔ sys.SessionOpen)
  stopped_otherwise : ∀ done sys, done <+: ops → Run AudioStep start done sys →
    (sys.playerState = .stopped ↔ ¬ sys.SessionOpen)
  reopens : ∀ done event sys, done ++ [(event, .sOk)] <+: ops → event.closes →
    Run AudioStep start (done ++ [(event, .sOk)]) sys →
    ∀ session fmt preroll, KAudioFormat.Supported fmt →
      preroll.length < sys.driver.ctx.audioBufferCapacity → sys.driver.card.Ready →
      ∃ sys', nxaOpenSession sys fmt preroll session = .ok (.sOk, sys')
  stops_playing : ∀ done sys, done <+: ops → Run AudioStep start done sys →
    ∀ irqs hr driver, sb16StopPlayback sys.driver irqs = .ok (hr, driver) →
      hr ≠ .eInvalidState → sys.playerState = .playing

/-! ## One event -/

variable {sys sys' start : AudioSystem} {hr : HResult} {event : AudioEvent}

theorem sb16SetFormat_stopped {sb : SoundBlaster16} (channelCnt sampleSizeBits sampleRate : Nat)
    (stopped : sb.ctx.playerState = .stopped) :
    (sb16SetFormat sb channelCnt sampleSizeBits sampleRate).2.ctx.playerState = .stopped := by
  simp only [sb16SetFormat]
  split_ifs <;> exact stopped

theorem nxaPreroll_playerState {driver : SoundBlaster16} {preroll : List (BitVec 8)} :
    (nxaPreroll driver preroll).2.ctx.playerState = driver.ctx.playerState := by
  rw [nxaPreroll]
  split <;> rfl

/-- What `nxa_open_session` does: a session opens in the stopped state only, and one that does
not open leaves the driver there. -/
inductive OpenOutcome (sys : AudioSystem) (hr : HResult) (sys' : AudioSystem) : Prop where
  | refused (busy : sys.playerState ≠ .stopped) (status : hr = .eInvalidState) (same : sys' = sys)
  | failed (stopped : sys.playerState = .stopped) (status : hr.failed)
      (still : sys'.playerState = .stopped) (same : sys'.sessions = sys.sessions)
  | opened (stopped : sys.playerState = .stopped) (status : hr = .sOk)
      (playing : sys'.playerState = .playing) (session : Nat) (ses : KAudioSession)
      (stored : sys'.sessions = Function.update sys.sessions session (some ses))

theorem nxaOpenSession_outcome {fmt : KAudioFormat} {preroll : List (BitVec 8)} {session : Nat}
    (returned : nxaOpenSession sys fmt preroll session = .ok (hr, sys')) :
    OpenOutcome sys hr sys' := by
  by_cases stopped : sys.playerState = .stopped
  · have formatted := sb16SetFormat_stopped fmt.channels fmt.bitDepth fmt.sampleRate stopped
    simp only [nxaOpenSession] at returned
    split at returned
    · rename_i failed
      obtain ⟨status, same⟩ := eq_of_returned returned
      subst same
      exact .failed stopped (status ▸ failed) formatted rfl
    · split at returned
      · rename_i failed
        obtain ⟨status, same⟩ := eq_of_returned returned
        subst same
        exact .failed stopped (status ▸ failed) (nxaPreroll_playerState.trans formatted) rfl
      · obtain ⟨⟨status, driver⟩, begun, later⟩ := exists_of_bind returned
        have started := sb16BeginPlayback_cases (nxaPreroll_playerState.trans formatted) begun
        simp only at later
        cases started with
        | inl plays =>
          rw [if_neg (by simp [plays.1, HResult.failed, HResult.succeeded])] at later
          obtain ⟨status, same⟩ := eq_of_returned later
          subst same
          have answered : sb16GetFormat driver fmt = (.sOk, driver.ctx.fmt) :=
            if_neg (by simp [plays.2])
          exact .opened stopped (by rw [← status, answered]) plays.2 session _ rfl
        | inr fails =>
          rw [if_pos fails.1] at later
          obtain ⟨status, same⟩ := eq_of_returned later
          subst same
          exact .failed stopped (status ▸ fails.1) fails.2 rfl
  · have refused : sb16SetFormat sys.driver fmt.channels fmt.bitDepth fmt.sampleRate =
        (.eInvalidState, sys.driver) := if_pos stopped
    simp only [nxaOpenSession, refused] at returned
    obtain ⟨status, same⟩ := eq_of_returned returned
    exact .refused stopped status.symm same.symm

/-! ## A session that opens -/

theorem sbWriteDsp_ready {card : Sb16Card} (ready : card.Ready) (data : Nat) :
    ∃ card', sbWriteDsp card data = .ok card' ∧ card'.Ready :=
  ⟨_, if_neg (Nat.not_le.mpr (ready _)), ready⟩

theorem sbWriteDspAll_ready {card : Sb16Card} (ready : card.Ready) (bytes : List Nat) :
    ∃ card', sbWriteDspAll card bytes = .ok card' := by
  induction bytes generalizing card with
  | nil => exact ⟨card, rfl⟩
  | cons data rest inductionHypothesis =>
    obtain ⟨next, written, still⟩ := sbWriteDsp_ready ready data
    obtain ⟨last, others⟩ := inductionHypothesis still
    exact ⟨last, by rw [sbWriteDspAll, written]; exact others⟩

theorem sb16StartOutput_ready {sb : SoundBlaster16} (ready : sb.card.Ready)
    (selected : sb.ctx.dmaMode ≠ .none) : ∃ sb', sb16StartOutput sb = .ok (.sOk, sb') := by
  have preroll : (sb16Preroll sb.ctx).dmaMode = sb.ctx.dmaMode := by
    simp only [sb16Preroll]
    split <;> rfl
  have ⟨commands, compiled⟩ :
      ∃ commands, sb16StartCommands (sb16Preroll sb.ctx) = .ok commands := by
    cases mode : sb.ctx.dmaMode with
    | none => contradiction
    | mode8Bit => exact ⟨_, by rw [sb16StartCommands, preroll, mode]⟩
    | mode16Bit => exact ⟨_, by rw [sb16StartCommands, preroll, mode]⟩
  obtain ⟨speaker, spoken, still⟩ := sbWriteDsp_ready ready cmdSpeakerOn
  obtain ⟨card, written⟩ := sbWriteDspAll_ready still commands
  have speakerOn : sbEnableDacSpeaker sb.card true = .ok speaker := spoken
  exact ⟨_, by simp only [sb16StartOutput, speakerOn, compiled, written, bind, Except.bind]; rfl⟩

/-- The line that the mixer selects is one that can be selected again. -/
theorem statusOfIrq_irqOfStatus {status irq : Nat} (selects : irqOfStatus status = some irq) :
    statusOfIrq irq = some status := by
  rw [irqOfStatus.eq_def] at selects
  split at selects
  all_goals first
    | contradiction
    | obtain rfl := Option.some.inj selects; rfl

theorem sb16InstallIsr_irqId {sb : SoundBlaster16} {irq : Nat}
    (selects : irqOfStatus (sb.card.mixer 0x80) = some irq) :
    (sb16InstallIsr sb).ctx.irqId = irq := by
  simp only [sb16InstallIsr, sbGetMixerIrqDma, selects]
  split <;> simp_all

theorem sb16InstallIsr_dmaMemoryPhys {sb : SoundBlaster16} :
    (sb16InstallIsr sb).ctx.dmaMemoryPhys = sb.ctx.dmaMemoryPhys := by
  simp only [sb16InstallIsr, sbGetMixerIrqDma]
  split <;> rfl

theorem sb16ConfigureDma_ready (sb : SoundBlaster16) {status : Nat} (ready : sb.card.Ready)
    (known : statusOfIrq sb.ctx.irqId = some status) (below : sb.ctx.dmaMemoryPhys ≤ 0xFFFFFF) :
    ∃ sb', sb16ConfigureDma sb = .ok (.sOk, sb') ∧ sb'.card.Ready ∧ sb'.ctx.dmaMode ≠ .none := by
  have ⟨channel, mode⟩ : (sb16SelectChannel sb.ctx).dmaChannel ∈ usableChannels ∧
      (sb16SelectChannel sb.ctx).dmaMode ≠ .none := by
    by_cases eightBit : sb.ctx.fmt.bitDepth = 8 <;> simp [sb16SelectChannel, eightBit]
  have ⟨writes, opened⟩ : ∃ writes, isadmaOpenChannel (sb16SelectChannel sb.ctx).dmaChannel
      sb.ctx.dmaMemoryPhys dmaBufferSize dmaTransferRead dmaModeSingle true = .ok (.sOk, writes) :=
    isadmaOpenChannel_opens channel below (by decide) (.inl rfl) (by decide)
  have selected : sbSetMixerIrqDma sb.card (sb16SelectChannel sb.ctx).irqId
      (sb16SelectChannel sb.ctx).dmaChannel =
      (.sOk, sbWriteMixer (sbWriteMixer sb.card 0x80 status) 0x81
        (1 <<< (sb16SelectChannel sb.ctx).dmaChannel)) := by
    rw [sbSetMixerIrqDma, show statusOfIrq (sb16SelectChannel sb.ctx).irqId = _ from known]
  have configured : sb16ConfigureDma sb = .ok (.sOk, { sb with
      ctx := sb16SelectChannel sb.ctx
      card := sbWriteMixer (sbWriteMixer sb.card 0x80 status) 0x81
        (1 <<< (sb16SelectChannel sb.ctx).dmaChannel)
      dmaWrites := sb.dmaWrites ++ writes }) := by
    simp only [sb16ConfigureDma, selected, HResult.failed, HResult.succeeded, Bool.not_true,
      Bool.false_eq_true, if_false, show (sb16SelectChannel sb.ctx).dmaMemoryPhys =
        sb.ctx.dmaMemoryPhys from rfl, opened, bind, Except.bind]
  exact ⟨_, configured, ready, mode⟩

/-- From the stopped state `sb16_begin_playback` starts the player when the mixer selects a line
that the driver knows. -/
theorem sb16BeginPlayback_ready (sb : SoundBlaster16) {irq : Nat}
    (stopped : sb.ctx.playerState = .stopped)
    (selects : irqOfStatus (sb.card.mixer 0x80) = some irq) (ready : sb.card.Ready)
    (below : sb.ctx.dmaMemoryPhys ≤ 0xFFFFFF) :
    ∃ sb', sb16BeginPlayback sb = .ok (.sOk, sb') ∧ sb'.ctx.playerState = .playing := by
  have known : statusOfIrq (sb16InstallIsr sb).ctx.irqId = some (sb.card.mixer 0x80) := by
    rw [sb16InstallIsr_irqId selects]
    exact statusOfIrq_irqOfStatus selects
  obtain ⟨configured, same, still, mode⟩ := sb16ConfigureDma_ready (sb16InstallIsr sb) ready
    known (by rwa [sb16InstallIsr_dmaMemoryPhys])
  obtain ⟨last, started⟩ := sb16StartOutput_ready still mode
  refine ⟨last, ?_, (sb16StartOutput_returned started).2⟩
  rw [sb16BeginPlayback, if_neg (by simp [stopped]), if_pos (by simp [stopped]), same]
  exact started

theorem sb16SetFormat_supported {sb : SoundBlaster16} {fmt : KAudioFormat}
    (stopped : sb.ctx.playerState = .stopped) (supported : fmt.Supported) :
    sb16SetFormat sb fmt.channels fmt.bitDepth fmt.sampleRate =
      (.sOk, { sb with ctx := { sb.ctx with
        audioRp := 0
        audioWp := 0
        fmt := { fmt with blockSize := fmt.channels * fmt.bitDepth / 8 } } }) := by
  have rate := supported.rate
  have depth := supported.depth
  have channels := supported.channels
  rw [sb16SetFormat, if_neg (by simp [stopped]), if_neg (by omega), if_neg (by omega),
    if_neg (by omega)]

theorem nxaPreroll_fits {driver : SoundBlaster16} {preroll : List (BitVec 8)} {cap : Nat}
    (empty : Stores (Sb16.ring driver.ctx.toSb16DrvContext) cap [])
    (fits : preroll.length < cap) :
    ∃ filled, nxaPreroll driver preroll = (.sOk, filled) ∧ filled.card = driver.card ∧
      filled.ctx.dmaMemoryPhys = driver.ctx.dmaMemoryPhys ∧
      filled.ctx.playerState = driver.ctx.playerState := by
  by_cases some : 0 < preroll.length
  · have room : ([] : List (BitVec 8)).length + preroll.length < cap := by simpa using fits
    have written : sb16Write driver preroll = (.sOk, (sb16Write driver preroll).2) := by
      simp only [sb16Write, Sb16.rbWrite, empty.rbWrite_eq room]
    exact ⟨(sb16Write driver preroll).2, (if_pos some).trans written, rfl, rfl, rfl⟩
  · exact ⟨driver, if_neg some, rfl, rfl, rfl⟩

/-- In the stopped state a session with a supported format opens. -/
theorem nxaOpenSession_opens {fmt : KAudioFormat} {preroll : List (BitVec 8)} {irq : Nat}
    (session : Nat) (stopped : sys.playerState = .stopped) (supported : fmt.Supported)
    (fits : preroll.length < sys.driver.ctx.audioBufferCapacity)
    (small : sys.driver.ctx.audioBufferCapacity < 2 ^ 31)
    (selects : irqOfStatus (sys.driver.card.mixer 0x80) = some irq)
    (ready : sys.driver.card.Ready) (below : sys.driver.ctx.dmaMemoryPhys ≤ 0xFFFFFF) :
    ∃ sys', nxaOpenSession sys fmt preroll session = .ok (.sOk, sys') := by
  have formatted := sb16SetFormat_supported stopped supported
  generalize driverEq : ({ sys.driver with ctx := { sys.driver.ctx with
    audioRp := 0
    audioWp := 0
    fmt := { fmt with blockSize := fmt.channels * fmt.bitDepth / 8 } } } : SoundBlaster16) =
      driver at formatted
  have positive : 0 < sys.driver.ctx.audioBufferCapacity := by omega
  have empty : Stores (Sb16.ring driver.ctx.toSb16DrvContext)
      sys.driver.ctx.audioBufferCapacity [] := by
    rw [← driverEq]
    exact stores_createRingBuffer positive small
  obtain ⟨filled, prerolled, card, phys, state⟩ := nxaPreroll_fits empty fits
  obtain ⟨playing, begun⟩ := sb16BeginPlayback_ready filled
    (by rw [state, ← driverEq]; exact stopped) (by rw [card, ← driverEq]; exact selects)
    (by rw [card, ← driverEq]; exact ready) (by rw [phys, ← driverEq]; exact below)
  have answered : sb16GetFormat playing fmt = (.sOk, playing.ctx.fmt) :=
    if_neg (by simp [begun.2])
  exact ⟨_, by
    simp only [nxaOpenSession, formatted, prerolled, begun.1, answered, HResult.failed,
      HResult.succeeded, Bool.not_true, Bool.false_eq_true, if_false, bind, Except.bind]
    rfl⟩

/-- A close that is answered while the driver plays ends the session and nothing else. -/
theorem nxaCloseSession_closes {session : Nat} {wait : Bool} {drain : List (List Nat)}
    {stop : Interrupts} (playing : sys.playerState = .playing)
    (answered : ∃ turn, turn + 1 < 10000 ∧ stop turn ≠ [])
    (returned : nxaCloseSession sys session wait drain stop = .ok (hr, sys')) :
    hr = .sOk ∧ sys'.playerState = .playing ∧ sys.sessions session ≠ none ∧
      sys'.sessions = Function.update sys.sessions session none := by
  rw [nxaCloseSession] at returned
  split at returned
  · contradiction
  · rename_i ses isOpen
    obtain ⟨⟨status, driver⟩, waited, later⟩ := exists_of_bind returned
    obtain ⟨rfl, state⟩ := nxaWait_kept waited
    have stillPlaying : driver.ctx.playerState = .playing := state.trans playing
    obtain ⟨⟨status, stopped⟩, accepted, last⟩ := exists_of_bind later
    obtain rfl := sb16StopPlayback_answered stillPlaying answered accepted
    have ⟨status, same⟩ := eq_of_returned last
    subst same
    exact ⟨status.symm, (sb16StopPlayback_kept accepted).trans stillPlaying, by simp [isOpen], rfl⟩

/-! ## Histories -/

/-- The state before the first close: the driver is stopped and no session is open, or it plays
for the one session that is open. -/
inductive Consistent (sys : AudioSystem) : Prop where
  | idle (stopped : sys.playerState = .stopped) (closed : sys.sessions = fun _ => none)
  | busy (playing : sys.playerState = .playing) (session : Nat) (ses : KAudioSession)
      (one : sys.sessions = Function.update (fun _ => none) session (some ses))

/-- The state from the first close on: the driver plays, and no session is open. -/
structure Abandoned (sys : AudioSystem) : Prop where
  playing : sys.playerState = .playing
  closed : sys.sessions = fun _ => none

theorem interrupt_kept {intrStatus : Nat}
    (returned : audioCall sys (.interrupt intrStatus) = .ok (hr, sys')) :
    sys'.playerState = sys.playerState ∧ sys'.sessions = sys.sessions := by
  obtain ⟨driver, handled, stored⟩ := exists_of_bind returned
  rw [← (eq_of_returned stored).2]
  exact ⟨(sb16Isr_kept handled).1, rfl⟩

theorem Consistent.step (consistent : Consistent sys) (answered : event.Answered)
    (returned : audioCall sys event = .ok (hr, sys')) :
    if event.closes then Abandoned sys' else Consistent sys' := by
  cases event with
  | openSession session fmt preroll =>
    simp only [AudioEvent.closes, Bool.false_eq_true, if_false]
    cases nxaOpenSession_outcome returned with
    | refused busy status same => exact same ▸ consistent
    | failed stopped status still same =>
      cases consistent with
      | idle _ closed => exact .idle still (same.trans closed)
      | busy playing => simp [stopped] at playing
    | opened stopped status playing session ses stored =>
      cases consistent with
      | idle _ closed => exact .busy playing session ses (closed ▸ stored)
      | busy playing => simp [stopped] at playing
  | closeSession session wait drain stop =>
    simp only [AudioEvent.closes, if_true]
    cases consistent with
    | idle _ closed => simp [audioCall, nxaCloseSession, closed] at returned
    | busy playing opened ses one =>
      have ⟨_, still, isOpen, stored⟩ := nxaCloseSession_closes playing answered returned
      have same : session = opened := by
        by_contra other
        simp [one, Function.update_of_ne other] at isOpen
      subst same
      exact ⟨still, by rw [stored, one, Function.update_idem, Function.update_eq_self]⟩
  | interrupt intrStatus =>
    have ⟨state, sessions⟩ := interrupt_kept returned
    simp only [AudioEvent.closes, Bool.false_eq_true, if_false]
    cases consistent with
    | idle stopped closed => exact .idle (state.trans stopped) (sessions.trans closed)
    | busy playing session ses one =>
      exact .busy (state.trans playing) session ses (sessions.trans one)

/-- No event leads out of the second phase: no session opens any more. -/
theorem Abandoned.step (abandoned : Abandoned sys)
    (returned : audioCall sys event = .ok (hr, sys')) : Abandoned sys' := by
  cases event with
  | openSession session fmt preroll =>
    cases nxaOpenSession_outcome returned with
    | refused busy status same => exact same ▸ abandoned
    | failed stopped => simp [abandoned.playing] at stopped
    | opened stopped => simp [abandoned.playing] at stopped
  | closeSession session wait drain stop =>
    simp [audioCall, nxaCloseSession, abandoned.closed] at returned
  | interrupt intrStatus =>
    have ⟨state, sessions⟩ := interrupt_kept returned
    exact ⟨state.trans abandoned.playing, sessions.trans abandoned.closed⟩

/-- Which phase a history leads to. -/
theorem Consistent.run {ops : List (AudioEvent × HResult)} (consistent : Consistent start)
    (answered : ∀ op ∈ ops, op.1.Answered) (run : Run AudioStep start ops sys) :
    if ops.any (fun op => op.1.closes) then Abandoned sys else Consistent sys := by
  induction run with
  | nil => simpa using consistent
  | @cons before middle last op ops taken later inductionHypothesis =>
    have first := consistent.step (answered op List.mem_cons_self) taken
    have rest := fun op' member => answered op' (List.mem_cons_of_mem op member)
    cases closes : op.1.closes with
    | false =>
      rw [closes] at first
      simp only [List.any_cons, closes, Bool.false_or]
      exact inductionHypothesis first rest
    | true =>
      rw [closes] at first
      simp only [List.any_cons, closes, Bool.true_or, if_true]
      exact later.invariant Abandoned (fun _ _ _ kept step => kept.step step) first

theorem Consistent.playing_iff_open (consistent : Consistent sys) :
    sys.playerState = .playing ↔ sys.SessionOpen := by
  cases consistent with
  | idle stopped closed => simp [stopped, AudioSystem.SessionOpen, closed]
  | busy playing session ses one =>
    exact iff_of_true playing ⟨session, by simp [one]⟩

theorem Consistent.stopped_otherwise (consistent : Consistent sys) :
    sys.playerState = .stopped ↔ ¬ sys.SessionOpen := by
  rw [← consistent.playing_iff_open]
  cases consistent with
  | idle stopped => simp [stopped]
  | busy playing => simp [playing]

theorem Consistent.stops_playing {irqs : Interrupts} {driver : SoundBlaster16}
    (consistent : Consistent sys) (returned : sb16StopPlayback sys.driver irqs = .ok (hr, driver))
    (accepted : hr ≠ .eInvalidState) : sys.playerState = .playing := by
  cases consistent with
  | idle stopped =>
    have refused : sb16StopPlayback sys.driver irqs = .ok (.eInvalidState, sys.driver) :=
      if_pos (by simp [show sys.driver.ctx.playerState = .stopped from stopped])
    exact absurd (eq_of_returned (refused.symm.trans returned)).1.symm accepted
  | busy playing => exact playing

/-- A history that closes a session leaves the life cycle. -/
theorem Consistent.not_lifeCycle {ops : List (AudioEvent × HResult)} (consistent : Consistent start)
    (answered : ∀ op ∈ ops, op.1.Answered) (run : Run AudioStep start ops sys)
    (closed : ∃ op ∈ ops, op.1.closes) : ¬ LifeCycle start ops := by
  intro cycle
  have reached := consistent.run answered run
  rw [if_pos (List.any_eq_true.mpr closed)] at reached
  have ⟨session, isOpen⟩ :=
    (cycle.playing_iff_open ops sys List.prefix_rfl run).mp reached.playing
  exact isOpen (by rw [reached.closed])

/-- In every history in which the ISR answers the stop requests, the player follows the life
cycle exactly when no session is closed. -/
theorem audio_life_cycle (dmaMemory audioBuffer : Nat → BitVec 8) (dmaMemoryPhys : Nat)
    (card : Sb16Card) (isr : IsrState InterruptHandler) (dmaWrites : List PortWrite)
    {ops : List (AudioEvent × HResult)} {sys : AudioSystem}
    (answered : ∀ op ∈ ops, op.1.Answered)
    (run : Run AudioStep (audioStart dmaMemory audioBuffer dmaMemoryPhys card isr dmaWrites)
      ops sys) :
    LifeCycle (audioStart dmaMemory audioBuffer dmaMemoryPhys card isr dmaWrites) ops ↔
      ∀ op ∈ ops, op.1.closes = false := by
  have idle : Consistent (audioStart dmaMemory audioBuffer dmaMemoryPhys card isr dmaWrites) :=
    .idle rfl rfl
  constructor
  · intro cycle op member
    by_contra closes
    exact idle.not_lifeCycle answered run ⟨op, member, by simpa using closes⟩ cycle
  · intro unclosed
    have phase : ∀ done sys, done <+: ops → Run AudioStep
        (audioStart dmaMemory audioBuffer dmaMemoryPhys card isr dmaWrites) done sys →
        Consistent sys := by
      intro done sys earlier run
      have none : done.any (fun op => op.1.closes) = false := by
        simpa using fun event hr member => unclosed (event, hr) (earlier.subset member)
      have reached := idle.run (fun op member => answered op (earlier.subset member)) run
      rwa [if_neg (by simp [none])] at reached
    exact {
      playing_iff_open := fun done sys earlier run => (phase done sys earlier run).playing_iff_open
      stopped_otherwise := fun done sys earlier run =>
        (phase done sys earlier run).stopped_otherwise
      reopens := by
        intro done event sys earlier closes
        have still := unclosed (event, .sOk) (earlier.subset (by simp))
        simp [closes] at still
      stops_playing := fun done sys earlier run irqs hr driver returned accepted =>
        (phase done sys earlier run).stops_playing returned accepted }

/-- A card whose mixer selects IRQ 5 and whose DSP is never busy, with one session opened on it. -/
def oneSession : List (AudioEvent × HResult) :=
  [(.openSession 0 ⟨8, 0, 8000, 1⟩ [7#8], .sOk)]

/-- The start of the histories below. -/
def quietStart : AudioSystem :=
  audioStart (fun _ => 0#8) (fun _ => 0#8) 0x100000
    ⟨Function.update (fun _ => 0) 0x80 2, fun _ => 0, []⟩ ⟨fun _ => none, 0#8, 0#8⟩ []

theorem audio_life_cycle_open : LifeCycle quietStart oneSession :=
  have run : ∃ sys, Run AudioStep quietStart oneSession sys := ⟨_, .cons rfl (.nil _)⟩
  run.elim fun sys run =>
    (audio_life_cycle _ _ _ _ _ _ (by simp [oneSession, AudioEvent.Answered]) run).mpr
      (by simp [oneSession, AudioEvent.closes])

/-- A session that is opened and closed, and a second one that is refused. -/
def twoSessions : List (AudioEvent × HResult) :=
  [(.openSession 0 ⟨8, 0, 8000, 1⟩ [7#8], .sOk),
    (.closeSession 0 false [] (fun _ => [1]), .sOk),
    (.openSession 0 ⟨8, 0, 8000, 1⟩ [7#8], .eInvalidState)]

theorem audio_not_life_cycle :
    (∃ sys, Run AudioStep quietStart twoSessions sys) ∧ ¬ LifeCycle quietStart twoSessions := by
  have run : ∃ sys, Run AudioStep quietStart twoSessions sys :=
    ⟨_, .cons rfl (.cons rfl (.cons rfl (.nil _)))⟩
  have idle : Consistent quietStart := .idle rfl rfl
  have answered : ∀ op ∈ twoSessions, op.1.Answered := by
    simp only [twoSessions, List.forall_mem_cons, AudioEvent.Answered]
    exact ⟨trivial, ⟨0, by decide, by simp⟩, trivial, by simp⟩
  refine ⟨run, ?_⟩
  obtain ⟨sys, run⟩ := run
  exact idle.not_lifeCycle answered run ⟨_, List.mem_cons_of_mem _ List.mem_cons_self, rfl⟩

end Antonix
