import Antonix.Audio.SoundBlaster16

/-! # Audio sessions (`nxa.c`)

`nxa_initialize` has opened the stream of the driver, and `k_ioctl` and `k_fwrite` hand
each request to the routine of the driver.  A session is what a session pointer of a
client points to; the clients' pointers are numbered. -/

namespace Antonix

/-- `K_AUDIO_SESSION`.  Its driver is `aud_driver`. -/
structure KAudioSession where
  fmt : KAudioFormat
  deriving DecidableEq, Repr

/-- The driver and the session pointers of the clients; `none` is `NULL`. -/
structure AudioSystem where
  driver : SoundBlaster16
  sessions : Nat → Option KAudioSession

/-- The preroll of `nxa_open_session` -/
def nxaPreroll (driver : SoundBlaster16) (preroll : List (BitVec 8)) : HResult × SoundBlaster16 :=
  if 0 < preroll.length then sb16Write driver preroll else (.sOk, driver)

/-- `nxa_open_session`.  `preroll` is the `preroll_size` bytes at `preroll_buff`. -/
def nxaOpenSession (sys : AudioSystem) (fmt : KAudioFormat) (preroll : List (BitVec 8))
    (session : Nat) : Except Halt (HResult × AudioSystem) :=
  let (hr, driver) := sb16SetFormat sys.driver fmt.channels fmt.bitDepth fmt.sampleRate
  if hr.failed then .ok (hr, { sys with driver := driver })
  else
    let (hr, driver) := nxaPreroll driver preroll
    if hr.failed then .ok (hr, { sys with driver := driver })
    else do
      let (hr, driver) ← sb16BeginPlayback driver
      if hr.failed then .ok (hr, { sys with driver := driver })
      else
        let (hr, fmt) := sb16GetFormat driver fmt
        .ok (hr, {
          driver := driver
          sessions := Function.update sys.sessions session (some ⟨fmt⟩) })

/-- The loop of `nxa_close_session` that waits for the buffer to exhaust.  `irqs` are the
interrupts after each time it finds the buffer filled; it still waits when they run out. -/
def nxaWaitExhaust : SoundBlaster16 → List (List Nat) → Except Halt (HResult × SoundBlaster16)
  | driver, irqs =>
    let (hr, size) := sb16GetBufferredSize driver
    if hr.failed then .ok (hr, driver)
    else if size = 0 then .ok (.sOk, driver)
    else
      match irqs with
      | [] => .error .stuck
      | next :: rest => do nxaWaitExhaust (← sb16Interrupts driver next) rest

/-- What `nxa_close_session` does before it stops the playback. -/
def nxaWait (driver : SoundBlaster16) (waitBufferExhaust : Bool) (drain : List (List Nat)) :
    Except Halt (HResult × SoundBlaster16) :=
  if waitBufferExhaust then nxaWaitExhaust driver drain else .ok (.sOk, driver)

/-- `nxa_close_session`.  `drain` and `stop` are the interrupts that come while it waits for the
buffer and for the driver. -/
def nxaCloseSession (sys : AudioSystem) (session : Nat) (waitBufferExhaust : Bool)
    (drain : List (List Nat)) (stop : Interrupts) : Except Halt (HResult × AudioSystem) :=
  match sys.sessions session with
  | none => .error .stuck
  | some _ => do
    let (hr, driver) ← nxaWait sys.driver waitBufferExhaust drain
    if hr.failed then .ok (hr, { sys with driver := driver })
    else do
      let (hr, driver) ← sb16StopPlayback driver stop
      if hr.failed then .ok (hr, { sys with driver := driver })
      else
        .ok (.sOk, {
          driver := driver
          sessions := Function.update sys.sessions session none })

/-! ## Histories -/

/-- A call of a client, or an interrupt of the card between the calls. -/
inductive AudioEvent where
  | openSession (session : Nat) (fmt : KAudioFormat) (preroll : List (BitVec 8))
  | closeSession (session : Nat) (waitBufferExhaust : Bool) (drain : List (List Nat))
      (stop : Interrupts)
  | interrupt (intrStatus : Nat)

/-- The event closes a session. -/
def AudioEvent.closes : AudioEvent → Bool
  | .closeSession .. => true
  | _ => false

/-- The ISR answers the stop request of the event before the driver gives up. -/
def AudioEvent.Answered : AudioEvent → Prop
  | .closeSession _ _ _ stop => ∃ turn, turn + 1 < 10000 ∧ stop turn ≠ []
  | _ => True

/-- What an event does, with what the call returns. -/
def audioCall (sys : AudioSystem) : AudioEvent → Except Halt (HResult × AudioSystem)
  | .openSession session fmt preroll => nxaOpenSession sys fmt preroll session
  | .closeSession session wait drain stop => nxaCloseSession sys session wait drain stop
  | .interrupt intrStatus => do
    let driver ← sb16Isr sys.driver intrStatus
    .ok (.sOk, { sys with driver := driver })

/-- The steps of the audio system; a step is an event that returned, with what it returned. -/
def AudioStep (sys : AudioSystem) (op : AudioEvent × HResult) (sys' : AudioSystem) : Prop :=
  audioCall sys op.1 = .ok (op.2, sys')

/-- The system when the driver is mounted and no session was opened yet. -/
def audioStart (dmaMemory audioBuffer : Nat → BitVec 8) (dmaMemoryPhys : Nat) (card : Sb16Card)
    (isr : IsrState InterruptHandler) (dmaWrites : List PortWrite) : AudioSystem where
  driver := sb16DeviceInit dmaMemory audioBuffer dmaMemoryPhys card isr dmaWrites
  sessions := fun _ => none

/-- A session is open. -/
def AudioSystem.SessionOpen (sys : AudioSystem) : Prop := ∃ session, sys.sessions session ≠ none

/-- `player_state` of the driver -/
def AudioSystem.playerState (sys : AudioSystem) : PlayerState := sys.driver.ctx.playerState

/-! ## What the requests do to the state of the player -/

variable {sb sb' : SoundBlaster16} {sys sys' : AudioSystem} {hr : HResult}

theorem sb16Isr_kept {intrStatus : Nat} (returned : sb16Isr sb intrStatus = .ok sb') :
    sb'.ctx.playerState = sb.ctx.playerState ∧ sb'.ctx.stopPendingFlag = false := by
  simp only [sb16Isr] at returned
  split at returned
  · contradiction
  · split at returned
    · obtain ⟨card, _, stored⟩ := exists_of_bind returned
      obtain rfl := Except.ok.inj stored
      simp
    · rename_i _ pending
      split at returned
      all_goals
        obtain rfl := Except.ok.inj returned
        simpa [sb16FillHalf] using pending

/-- The interrupts leave the state of the player; a stop request does not survive one. -/
theorem sb16Interrupts_kept {irqs : List Nat} (returned : sb16Interrupts sb irqs = .ok sb') :
    sb'.ctx.playerState = sb.ctx.playerState ∧
      (irqs ≠ [] → sb'.ctx.stopPendingFlag = false) := by
  induction irqs generalizing sb with
  | nil =>
    obtain rfl := Except.ok.inj returned
    simp
  | cons intrStatus rest inductionHypothesis =>
    obtain ⟨middle, first, later⟩ := exists_of_bind returned
    have ⟨firstState, firstFlag⟩ := sb16Isr_kept first
    have ⟨laterState, laterFlag⟩ := inductionHypothesis later
    constructor
    · rw [laterState, firstState]
    · intro _
      cases rest with
      | nil =>
        obtain rfl := Except.ok.inj later
        exact firstFlag
      | cons next rest => exact laterFlag (List.cons_ne_nil next rest)

/-- The size is always answered. -/
theorem nxaWaitExhaust_eq {irqs : List (List Nat)} :
    nxaWaitExhaust sb irqs =
      if Sb16.rbGetReadSize sb.ctx.toSb16DrvContext = 0 then .ok (.sOk, sb)
      else
        match irqs with
        | [] => .error .stuck
        | next :: rest => (do nxaWaitExhaust (← sb16Interrupts sb next) rest) := by
  cases irqs <;> rfl

theorem nxaWaitExhaust_kept {irqs : List (List Nat)}
    (returned : nxaWaitExhaust sb irqs = .ok (hr, sb')) :
    hr = .sOk ∧ sb'.ctx.playerState = sb.ctx.playerState := by
  induction irqs generalizing sb with
  | nil =>
    rw [nxaWaitExhaust_eq] at returned
    split at returned
    · have ⟨status, same⟩ := eq_of_returned returned
      simp [← status, ← same]
    · contradiction
  | cons next rest inductionHypothesis =>
    rw [nxaWaitExhaust_eq] at returned
    split at returned
    · have ⟨status, same⟩ := eq_of_returned returned
      simp [← status, ← same]
    · obtain ⟨middle, drained, later⟩ := exists_of_bind returned
      have ⟨status, state⟩ := inductionHypothesis later
      exact ⟨status, state.trans (sb16Interrupts_kept drained).1⟩

theorem nxaWait_kept {wait : Bool} {drain : List (List Nat)}
    (returned : nxaWait sb wait drain = .ok (hr, sb')) :
    hr = .sOk ∧ sb'.ctx.playerState = sb.ctx.playerState := by
  cases wait with
  | false =>
    have ⟨status, same⟩ := eq_of_returned returned
    simp [← status, ← same]
  | true => exact nxaWaitExhaust_kept returned

/-- The wait for the interrupt leaves the state of the player, and an interrupt ends it. -/
theorem sb16StopLoop_kept {irqs : Interrupts} {timeout : Nat}
    (returned : sb16StopLoop sb irqs timeout = .ok (hr, sb')) :
    sb'.ctx.playerState = sb.ctx.playerState ∧
      ((∃ turn, turn + 1 < timeout ∧ irqs turn ≠ []) → hr = .sOk) := by
  induction timeout generalizing sb irqs with
  | zero =>
    have ⟨_, same⟩ := eq_of_returned returned
    simp [← same]
  | succ timeout inductionHypothesis =>
    rw [sb16StopLoop] at returned
    split at returned
    · obtain ⟨middle, taken, later⟩ := exists_of_bind returned
      have ⟨state, answered⟩ := sb16Interrupts_kept taken
      split at later
      · have ⟨_, same⟩ := eq_of_returned later
        rename_i last
        subst last
        exact ⟨by rw [← same, state], fun ⟨turn, soon, _⟩ => absurd soon (by omega)⟩
      · have ⟨laterState, laterStatus⟩ := inductionHypothesis later
        refine ⟨laterState.trans state, ?_⟩
        rintro ⟨turn, soon, comes⟩
        by_cases now : irqs 0 = []
        · cases turn with
          | zero => contradiction
          | succ turn => exact laterStatus ⟨turn, by omega, comes⟩
        · cases timeout with
          | zero => contradiction
          | succ timeout =>
            rw [sb16StopLoop, if_neg (by simp [answered now])] at later
            exact (eq_of_returned later).1.symm
    · have ⟨status, same⟩ := eq_of_returned returned
      simp [← status, ← same]

/-- `sb16_stop_playback` leaves the state of the player as it is. -/
theorem sb16StopPlayback_kept {irqs : Interrupts}
    (returned : sb16StopPlayback sb irqs = .ok (hr, sb')) :
    sb'.ctx.playerState = sb.ctx.playerState := by
  rw [sb16StopPlayback] at returned
  split at returned
  · rw [← (eq_of_returned returned).2]
  · obtain ⟨⟨status, middle⟩, waited, later⟩ := exists_of_bind returned
    have state := (sb16StopLoop_kept waited).1
    simp only at later
    split at later
    · rw [← (eq_of_returned later).2, state]
    · obtain ⟨card, _, stored⟩ := exists_of_bind later
      rw [← (eq_of_returned stored).2]
      exact state

theorem sb16StopPlayback_answered {irqs : Interrupts} (playing : sb.ctx.playerState = .playing)
    (answered : ∃ turn, turn + 1 < 10000 ∧ irqs turn ≠ [])
    (returned : sb16StopPlayback sb irqs = .ok (hr, sb')) : hr = .sOk := by
  rw [sb16StopPlayback, if_neg (by simp [playing])] at returned
  obtain ⟨⟨status, middle⟩, waited, later⟩ := exists_of_bind returned
  obtain rfl := (sb16StopLoop_kept waited).2 answered
  obtain ⟨card, _, stored⟩ := exists_of_bind later
  exact (eq_of_returned stored).1.symm

theorem sb16StartOutput_returned (returned : sb16StartOutput sb = .ok (hr, sb')) :
    hr = .sOk ∧ sb'.ctx.playerState = .playing := by
  obtain ⟨_, _, spoken⟩ := exists_of_bind returned
  obtain ⟨_, _, prepared⟩ := exists_of_bind spoken
  obtain ⟨_, _, stored⟩ := exists_of_bind prepared
  have ⟨status, same⟩ := eq_of_returned stored
  simp [← status, ← same]

theorem sb16ConfigureDma_kept (returned : sb16ConfigureDma sb = .ok (hr, sb')) :
    sb'.ctx.playerState = sb.ctx.playerState := by
  simp only [sb16ConfigureDma] at returned
  split at returned
  · rw [← (eq_of_returned returned).2]
    rfl
  · obtain ⟨_, _, stored⟩ := exists_of_bind returned
    rw [← (eq_of_returned stored).2]
    rfl

@[simp] theorem sb16InstallIsr_playerState :
    (sb16InstallIsr sb).ctx.playerState = sb.ctx.playerState := by
  simp only [sb16InstallIsr, sbGetMixerIrqDma]
  split <;> rfl

/-- From the stopped state `sb16_begin_playback` starts the player or leaves it stopped. -/
theorem sb16BeginPlayback_cases (stopped : sb.ctx.playerState = .stopped)
    (returned : sb16BeginPlayback sb = .ok (hr, sb')) :
    (hr = .sOk ∧ sb'.ctx.playerState = .playing) ∨
      (hr.failed ∧ sb'.ctx.playerState = .stopped) := by
  rw [sb16BeginPlayback, if_neg (by simp [stopped]), if_pos (by simp [stopped])] at returned
  obtain ⟨⟨status, middle⟩, configured, later⟩ := exists_of_bind returned
  have state := sb16ConfigureDma_kept configured
  simp only at later
  split at later
  · rename_i failed
    have ⟨status, same⟩ := eq_of_returned later
    exact .inr ⟨by simpa [← status] using failed, by simp [← same, state, stopped]⟩
  · exact .inl (sb16StartOutput_returned later)

end Antonix
