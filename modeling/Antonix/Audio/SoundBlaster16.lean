import Antonix.Audio.IsaDma
import Antonix.DescTables.Basic
import Antonix.RingBuffer.Basic

/-! # The Sound Blaster 16 driver (`sound_blaster16.c`)

The card is what the driver sees of it: the register map of its mixer chip, which
holds what was last written, and its DSP, which takes the bytes that the driver
writes, each after it has been busy for a while.  The interrupts that come while
`sb16_stop_playback` waits are an argument of it. -/

namespace Antonix

open Buffer

/-- `K_AUDIO_FORMAT` -/
structure KAudioFormat where
  bitDepth : Nat
  blockSize : Nat
  sampleRate : Nat
  channels : Nat
  deriving DecidableEq, Repr

/-- `PLAYER_STATE_…` -/
inductive PlayerState where
  | notReady
  | stopped
  | playing
  | paused
  deriving DecidableEq, Repr

/-- `SB16_DMA_MODE_…` -/
inductive DmaMode where
  | none
  | mode8Bit
  | mode16Bit
  deriving DecidableEq, Repr

/-- `SB16_DRV_CONTEXT`, with its audio buffer. -/
structure Sb16Context extends Sb16DrvContext where
  dmaMemory : Nat → BitVec 8
  dmaMemoryPhys : Nat
  dmaMode : DmaMode
  dmaCurrentHalf : Nat
  irqId : Nat
  dmaChannel : Nat
  playerState : PlayerState
  stopPendingFlag : Bool
  skipCntr : Nat
  fmt : KAudioFormat

/-- The card.  `busyReads n` is how often the write status port shows a busy DSP before it is
ready for byte `n`. -/
structure Sb16Card where
  mixer : Nat → Nat
  busyReads : Nat → Nat
  dspWritten : List Nat

/-- The handlers in `isr_callbacks`. -/
inductive InterruptHandler where
  | sb16Isr
  | other (address : Nat)
  deriving DecidableEq, Repr

/-- What the routines of the driver work on. -/
structure SoundBlaster16 where
  ctx : Sb16Context
  card : Sb16Card
  isr : IsrState InterruptHandler
  dmaWrites : List PortWrite

/-- `DMA_BUFFER_SIZE` -/
abbrev dmaBufferSize : Nat := 0x10000

abbrev cmdSetSampleRate : Nat := 0x41
abbrev cmdSpeakerOn : Nat := 0xD1
abbrev cmdSpeakerOff : Nat := 0xD3
abbrev cmdStart8BitOut : Nat := 0xC6
abbrev cmdStart16BitOut : Nat := 0xB6
abbrev cmdStop8Bit : Nat := 0xDA
abbrev cmdStop16Bit : Nat := 0xD9

/-! ## The DSP and the mixer -/

/-- `sb_write_dsp` -/
def sbWriteDsp (card : Sb16Card) (data : Nat) : Except Halt Sb16Card :=
  if 50000 ≤ card.busyReads card.dspWritten.length then
    .error (.panic "sb_write_dsp(): timed out.")
  else .ok { card with dspWritten := card.dspWritten ++ [data] }

/-- Calls of `sb_write_dsp`, one after the other. -/
def sbWriteDspAll : Sb16Card → List Nat → Except Halt Sb16Card
  | card, [] => .ok card
  | card, data :: rest => do sbWriteDspAll (← sbWriteDsp card data) rest

/-- `sb_enable_dac_speaker` -/
def sbEnableDacSpeaker (card : Sb16Card) (enable : Bool) : Except Halt Sb16Card :=
  sbWriteDsp card (if enable then cmdSpeakerOn else cmdSpeakerOff)

/-- `sb_write_mixer` -/
def sbWriteMixer (card : Sb16Card) (reg data : Nat) : Sb16Card :=
  { card with mixer := Function.update card.mixer reg data }

/-- The IRQ id for the bits of mixer register `0x80`, by the `switch` of `sb_get_mixer_irq_dma`. -/
def irqOfStatus : Nat → Option Nat
  | 1 => some 2
  | 2 => some 5
  | 4 => some 7
  | 8 => some 10
  | _ => none

/-- The DMA channel for the bits of mixer register `0x81`. -/
def dmaChannelOfStatus : Nat → Option Nat
  | 1 => some 0
  | 2 => some 1
  | 8 => some 3
  | 32 => some 5
  | 64 => some 6
  | 128 => some 7
  | _ => none

/-- `sb_get_mixer_irq_dma`, which stores in `irq_id` and `dma_channel`. -/
def sbGetMixerIrqDma (card : Sb16Card) (ctx : Sb16Context) : HResult × Sb16Context :=
  match irqOfStatus (card.mixer 0x80), dmaChannelOfStatus (card.mixer 0x81) with
  | none, _ => (.eFail, ctx)
  | some irq, none => (.eFail, { ctx with irqId := irq })
  | some irq, some channel => (.sOk, { ctx with irqId := irq, dmaChannel := channel })

/-- `int_status`, by the `switch` of `sb_set_mixer_irq_dma`. -/
def statusOfIrq : Nat → Option Nat
  | 2 => some 1
  | 5 => some 2
  | 7 => some 4
  | 10 => some 8
  | _ => none

/-- `sb_set_mixer_irq_dma` -/
def sbSetMixerIrqDma (card : Sb16Card) (irq dmaChannel : Nat) : HResult × Sb16Card :=
  match statusOfIrq irq with
  | none => (.eFail, card)
  | some status => (.sOk, sbWriteMixer (sbWriteMixer card 0x80 status) 0x81 (1 <<< dmaChannel))

/-! ## The interrupt -/

/-- The half of the DMA memory that is filled next. -/
def sb16FillHalf (ctx : Sb16Context) : Sb16Context :=
  let size := dmaBufferSize / 2
  let (_, bytes, actualSize, ring) := Sb16.rbReadUpto ctx.toSb16DrvContext size
  let silence := List.replicate (size - actualSize) 0#8
  { ctx with
    toSb16DrvContext := ring
    dmaMemory := writeAt ctx.dmaMemory (if ctx.dmaCurrentHalf = 0 then 0 else size)
      (bytes ++ silence) }

/-- `sb16_isr`.  `intrStatus` is what mixer register `0x82` reads. -/
def sb16Isr (sb : SoundBlaster16) (intrStatus : Nat) : Except Halt SoundBlaster16 :=
  let ctx := { sb.ctx with dmaCurrentHalf := sb.ctx.dmaCurrentHalf ^^^ 1 }
  if intrStatus &&& 0x07 ≠ 1 ∧ intrStatus &&& 0x07 ≠ 2 then
    .error (.panic "sb16_isr(): invalid interrupt status (read from reg 0x82).")
  else if ctx.stopPendingFlag then do
    let card ← sbWriteDsp sb.card (if intrStatus &&& 0x07 = 1 then cmdStop8Bit else cmdStop16Bit)
    .ok { sb with ctx := { ctx with stopPendingFlag := false }, card := card }
  else if ctx.skipCntr ≠ 0 then
    .ok { sb with ctx := { ctx with skipCntr := ctx.skipCntr - 1 } }
  else .ok { sb with ctx := sb16FillHalf ctx }

/-- The interrupts of the card that come in, in order. -/
def sb16Interrupts : SoundBlaster16 → List Nat → Except Halt SoundBlaster16
  | sb, [] => .ok sb
  | sb, intrStatus :: rest => do sb16Interrupts (← sb16Isr sb intrStatus) rest

/-! ## The requests -/

/-- `sb16_set_format` -/
def sb16SetFormat (sb : SoundBlaster16) (channelCnt sampleSizeBits sampleRate : Nat) :
    HResult × SoundBlaster16 :=
  if sb.ctx.playerState ≠ .stopped then (.eInvalidState, sb)
  else if sampleRate < 5000 ∨ 44100 < sampleRate then (.eNotSupported, sb)
  else if sampleSizeBits ≠ 8 ∧ sampleSizeBits ≠ 16 then (.eNotSupported, sb)
  else if channelCnt < 1 ∨ 2 < channelCnt then (.eNotSupported, sb)
  else
    (.sOk, { sb with ctx := { sb.ctx with
      audioRp := 0
      audioWp := 0
      fmt := {
        channels := channelCnt
        sampleRate := sampleRate
        bitDepth := sampleSizeBits
        blockSize := channelCnt * sampleSizeBits / 8 } } })

/-- `sb16_get_format`.  `fmt` is what the caller has at the address it passes. -/
def sb16GetFormat (sb : SoundBlaster16) (fmt : KAudioFormat) : HResult × KAudioFormat :=
  if sb.ctx.playerState = .notReady then (.eInvalidState, fmt) else (.sOk, sb.ctx.fmt)

/-- `sb16_get_bufferred_size` -/
def sb16GetBufferredSize (sb : SoundBlaster16) : HResult × Nat :=
  (.sOk, Sb16.rbGetReadSize sb.ctx.toSb16DrvContext)

/-- `sb16_write` -/
def sb16Write (sb : SoundBlaster16) (inBuf : List (BitVec 8)) : HResult × SoundBlaster16 :=
  let (hr, ring) := Sb16.rbWrite sb.ctx.toSb16DrvContext inBuf
  (hr, { sb with ctx := { sb.ctx with toSb16DrvContext := ring } })

/-- What `sb16_begin_playback` does before it looks at the state again: it clears the DMA
memory and installs the handler. -/
def sb16InstallIsr (sb : SoundBlaster16) : SoundBlaster16 :=
  let cleared := { sb.ctx with
    dmaMemory := writeAt sb.ctx.dmaMemory 0 (List.replicate dmaBufferSize 0#8) }
  let ctx := (sbGetMixerIrqDma sb.card cleared).2
  { sb with
    ctx := ctx
    isr := (registerIsrCallback sb.isr (irqToIntid ctx.irqId) (some .sb16Isr)).2 }

/-- The DMA mode and channel that `sb16_begin_playback` selects for the format. -/
def sb16SelectChannel (ctx : Sb16Context) : Sb16Context :=
  let dmaMode : DmaMode := if ctx.fmt.bitDepth = 8 then .mode8Bit else .mode16Bit
  { ctx with
    dmaMode := dmaMode
    dmaChannel := if dmaMode = .mode8Bit then 1 else 5
    dmaCurrentHalf := 0
    skipCntr := 1 }

/-- What `sb16_begin_playback` does in the stopped state only: it configures the DMA channel. -/
def sb16ConfigureDma (sb : SoundBlaster16) : Except Halt (HResult × SoundBlaster16) :=
  let ctx := sb16SelectChannel sb.ctx
  let (hr, card) := sbSetMixerIrqDma sb.card ctx.irqId ctx.dmaChannel
  if hr.failed then .ok (hr, { sb with ctx := ctx, card := card })
  else do
    let (hr, writes) ← isadmaOpenChannel ctx.dmaChannel ctx.dmaMemoryPhys dmaBufferSize
      dmaTransferRead dmaModeSingle true
    .ok (hr, { sb with ctx := ctx, card := card, dmaWrites := sb.dmaWrites ++ writes })

/-- The buffered samples that `sb16_begin_playback` commits to the DMA memory. -/
def sb16Preroll (ctx : Sb16Context) : Sb16Context :=
  let (_, bytes, actual, ring) := Sb16.rbReadUpto ctx.toSb16DrvContext dmaBufferSize
  let filled := { ctx with
    toSb16DrvContext := ring
    dmaMemory := writeAt ctx.dmaMemory 0 bytes }
  if actual < dmaBufferSize then { filled with skipCntr := 0, dmaCurrentHalf := 1 } else filled

/-- The bytes that set the DSP up and start the output. -/
def sb16StartCommands (ctx : Sb16Context) : Except Halt (List Nat) :=
  let rate := [cmdSetSampleRate, (ctx.fmt.sampleRate >>> 8) &&& 0xFF, ctx.fmt.sampleRate &&& 0xFF]
  match ctx.dmaMode with
  | .mode8Bit =>
    let cmdBlkSize := dmaBufferSize / 2 - 1
    .ok (rate ++ [cmdStart8BitOut, if ctx.fmt.channels = 1 then 0x00 else 0x20,
      cmdBlkSize &&& 0xFF, (cmdBlkSize >>> 8) &&& 0xFF])
  | .mode16Bit =>
    let cmdBlkSize := dmaBufferSize / 4 - 1
    .ok (rate ++ [cmdStart16BitOut, if ctx.fmt.channels = 1 then 0x10 else 0x30,
      cmdBlkSize &&& 0xFF, (cmdBlkSize >>> 8) &&& 0xFF])
  | .none => .error (.panic "sb16_begin_playback(): Unexpected DMA mode.")

/-- How `sb16_begin_playback` starts the output and enters the playing state. -/
def sb16StartOutput (sb : SoundBlaster16) : Except Halt (HResult × SoundBlaster16) := do
  let ctx := sb16Preroll sb.ctx
  let card ← sbEnableDacSpeaker sb.card true
  let commands ← sb16StartCommands ctx
  let card ← sbWriteDspAll card commands
  .ok (.sOk, { sb with ctx := { ctx with playerState := .playing }, card := card })

/-- `sb16_begin_playback` -/
def sb16BeginPlayback (sb : SoundBlaster16) : Except Halt (HResult × SoundBlaster16) :=
  if sb.ctx.playerState = .playing ∨ sb.ctx.playerState = .notReady then .ok (.eInvalidState, sb)
  else if (sb16InstallIsr sb).ctx.playerState = .stopped then do
    let (hr, sb) ← sb16ConfigureDma (sb16InstallIsr sb)
    if hr.failed then .ok (hr, sb) else sb16StartOutput sb
  else sb16StartOutput (sb16InstallIsr sb)

/-- The interrupts that come while a routine waits, one list for each time it lets other
threads run.  An interrupt is given by what mixer register `0x82` reads. -/
abbrev Interrupts : Type := Nat → List Nat

/-- The loop of `sb16_stop_playback` that waits for the interrupt, from the turn where `timeout`
turns are left. -/
def sb16StopLoop (sb : SoundBlaster16) (irqs : Interrupts) :
    Nat → Except Halt (HResult × SoundBlaster16)
  | 0 => .ok (.eTimedOut, sb)
  | timeout + 1 =>
    if sb.ctx.stopPendingFlag then do
      let sb ← sb16Interrupts sb (irqs 0)
      if timeout = 0 then .ok (.eTimedOut, sb)
      else sb16StopLoop sb (fun turn => irqs (turn + 1)) timeout
    else .ok (.sOk, sb)

/-- `sb16_stop_playback` -/
def sb16StopPlayback (sb : SoundBlaster16) (irqs : Interrupts) :
    Except Halt (HResult × SoundBlaster16) :=
  if sb.ctx.playerState ≠ .playing ∧ sb.ctx.playerState ≠ .paused then .ok (.eInvalidState, sb)
  else do
    let (hr, sb) ← sb16StopLoop { sb with ctx := { sb.ctx with stopPendingFlag := true } } irqs 10000
    if hr.failed then .ok (hr, sb)
    else do
      let card ← sbEnableDacSpeaker sb.card false
      .ok (.sOk, { sb with
        ctx := { sb.ctx with audioRp := 0, audioWp := 0 }
        card := card
        isr := (unregisterIsrCallback sb.isr (irqToIntid sb.ctx.irqId)).2
        dmaWrites := sb.dmaWrites ++ (isadmaCloseChannel sb.ctx.dmaChannel).2 })

/-- The driver as `sb16_device_init` leaves it on success.  `dmaMemory` and `audioBuffer` are
what the memory holds that it is given. -/
def sb16DeviceInit (dmaMemory audioBuffer : Nat → BitVec 8) (dmaMemoryPhys : Nat)
    (card : Sb16Card) (isr : IsrState InterruptHandler) (dmaWrites : List PortWrite) :
    SoundBlaster16 where
  ctx := {
    toSb16DrvContext := Sb16.deviceInit audioBuffer (128 * 1024 * 3)
    dmaMemory := dmaMemory
    dmaMemoryPhys := dmaMemoryPhys
    dmaMode := .none
    dmaCurrentHalf := 0
    irqId := 0
    dmaChannel := 0
    playerState := .stopped
    stopPendingFlag := false
    skipCntr := 0
    fmt := ⟨0, 0, 0, 0⟩ }
  card := card
  isr := isr
  dmaWrites := dmaWrites

end Antonix
