import Antonix.Audio.LifeCycle
import Antonix.Lib.DoubleBuffer
import Antonix.RingBuffer.Refinement

/-! # Gapless playback (`sound_blaster16.c`)

The card plays the two halves of the DMA memory in turn, from the first one on, and
interrupts at the end of each.  The interrupt routine keeps the half that it fills
next in `dma_current_half`, and passes over one interrupt when `skip_cntr` is set. -/

namespace Antonix

open Buffer DoubleBuffer Transition

/-- The size of a half of the DMA memory. -/
abbrev dmaHalfSize : Nat := dmaBufferSize / 2

/-- The driver, the half that the card is playing and what it has played. -/
structure Playback where
  driver : SoundBlaster16
  playing : Nat
  played : List (BitVec 8)

/-- The half that `sb16_isr` fills, if it fills one. -/
def sb16RefilledHalf (ctx : Sb16Context) : Option Nat :=
  if ctx.stopPendingFlag then none
  else if ctx.skipCntr ≠ 0 then none
  else some (if ctx.dmaCurrentHalf ^^^ 1 = 0 then 0 else 1)

/-- What happens while the card plays: a call of `sb16_write`, with its status, and the end of a
half, with the half that the interrupt routine fills. -/
inductive PlaybackOp where
  | write (bytes : List (BitVec 8)) (hr : HResult)
  | halfEnds (finished : Nat) (refilled : Option Nat)

/-- A step of the card and the driver. -/
inductive PlaybackStep : Playback → PlaybackOp → Playback → Prop
  | write {s : Playback} {bytes : List (BitVec 8)} {hr : HResult} {driver : SoundBlaster16}
      (called : sb16Write s.driver bytes = (hr, driver)) :
      PlaybackStep s (.write bytes hr) { s with driver := driver }
  | halfEnds {s : Playback} {intrStatus : Nat} {driver : SoundBlaster16}
      (called : sb16Isr s.driver intrStatus = .ok driver) :
      PlaybackStep s (.halfEnds s.playing (sb16RefilledHalf s.driver.ctx))
        { driver := driver
          playing := 1 - s.playing
          played := s.played ++ half s.driver.ctx.dmaMemory dmaHalfSize s.playing }

/-- The card starts with the first half. -/
def startPlayback (driver : SoundBlaster16) : Playback where
  driver := driver
  playing := 0
  played := []

/-- A refill goes to the half that has just finished. -/
def PlaybackOp.RefillsFinished : PlaybackOp → Prop
  | .write .. => True
  | .halfEnds finished refilled => ∀ h, refilled = some h → h = finished

/-- The bytes that `sb16_write` has accepted. -/
def PlaybackOp.accepted : PlaybackOp → List (BitVec 8)
  | .write bytes .sOk => bytes
  | _ => []

/-- What a step means for the tape. -/
def feedAfter (feed : Feed (BitVec 8)) : PlaybackOp → Feed (BitVec 8)
  | .write bytes .sOk => feed.accept bytes
  | .halfEnds _ (some _) => feed.fill 0#8 dmaHalfSize
  | _ => feed

/-- The tape after the pre-roll of `queue` and some steps. -/
def feedOf (queue : List (BitVec 8)) (ops : List PlaybackOp) : Feed (BitVec 8) :=
  ops.foldl feedAfter ((Feed.start queue).fill 0#8 dmaBufferSize)

/-- What was accepted is on the tape, each byte once and in order, or still in the ring buffer; the
card has played the tape up to the two halves that are in the DMA memory. -/
structure PlaysInOrder (queue : List (BitVec 8)) (ops : List PlaybackOp) (s : Playback) : Prop where
  accepted : (feedOf queue ops).data ++ (feedOf queue ops).queue =
    queue ++ ops.flatMap PlaybackOp.accepted
  ring : ∃ cap, Stores (Sb16.ring s.driver.ctx.toSb16DrvContext) cap (feedOf queue ops).queue
  tape : s.played ++ upcoming s.driver.ctx.dmaMemory dmaHalfSize s.playing =
    (feedOf queue ops).tape

/-- In every run, refills go to the half that has just finished, and the bytes are played in
order. -/
def Gapless (queue : List (BitVec 8)) (start : Playback) : Prop :=
  ∀ ops s, Run PlaybackStep start ops s →
    (∀ op ∈ ops, op.RefillsFinished) ∧ PlaysInOrder queue ops s

/-! ## The ring buffer of the driver -/

section

variable {rb : RingBuffer} {cap : Nat} {queue : List (BitVec 8)}

/-- `rb_read_upto` takes what there is, up to `max` bytes. -/
theorem Stores.rbReadUpto_take (stores : Stores rb cap queue) {max : Nat} (asked : max ≠ 0) :
    ∃ hr rb', rbReadUpto rb max = (hr, queue.take max, min max queue.length, rb') ∧
      Stores rb' cap (queue.drop max) := by
  by_cases empty : queue = []
  · subst empty
    refine ⟨_, rb, by simpa using stores.rbReadUpto_refused (.inr rfl), ?_⟩
    simpa using stores
  · have dropped : queue.drop (min max queue.length) = queue.drop max := by
      by_cases short : max ≤ queue.length
      · rw [Nat.min_eq_left short]
      · rw [Nat.min_eq_right (by omega), List.drop_length, List.drop_eq_nil_of_le (by omega)]
    exact ⟨_, _, stores.rbReadUpto_eq asked empty,
      dropped ▸ stores.consumed (Nat.min_le_right max queue.length)⟩

end

/-! ## The routines of the driver -/

section

variable {sb sb' : SoundBlaster16} {cap : Nat} {queue : List (BitVec 8)}

/-- A write that is accepted comes behind what is queued; a refused one changes nothing. -/
theorem sb16Write_stores {bytes : List (BitVec 8)} {hr : HResult}
    (stores : Stores (Sb16.ring sb.ctx.toSb16DrvContext) cap queue)
    (called : sb16Write sb bytes = (hr, sb')) :
    (∃ ring, sb' = { sb with ctx := { sb.ctx with toSb16DrvContext := ring } }) ∧
      Stores (Sb16.ring sb'.ctx.toSb16DrvContext) cap
        (queue ++ PlaybackOp.accepted (.write bytes hr)) := by
  by_cases room : queue.length + bytes.length < cap
  · simp only [sb16Write, Sb16.rbWrite, stores.rbWrite_eq room] at called
    obtain ⟨rfl, rfl⟩ := Prod.mk.inj called
    exact ⟨⟨_, rfl⟩, stores.written room⟩
  · simp only [sb16Write, Sb16.rbWrite, stores.rbWrite_refused (Nat.not_lt.mp room)] at called
    obtain ⟨rfl, rfl⟩ := Prod.mk.inj called
    have nothing : PlaybackOp.accepted (.write bytes .eBufferOverflow) = [] := rfl
    refine ⟨⟨_, rfl⟩, ?_⟩
    rw [nothing, List.append_nil]
    exact stores

/-- A refill takes its data from the ring buffer, and adds silence when that is too little. -/
theorem sb16FillHalf_eq {ctx : Sb16Context}
    (stores : Stores (Sb16.ring ctx.toSb16DrvContext) cap queue) (feed : Feed (BitVec 8))
    (content : feed.queue = queue) :
    ∃ ring, sb16FillHalf ctx = { ctx with
        toSb16DrvContext := ring
        dmaMemory := writeAt ctx.dmaMemory ((if ctx.dmaCurrentHalf = 0 then 0 else 1) * dmaHalfSize)
          (feed.block 0#8 dmaHalfSize) } ∧
      Stores (Sb16.ring ring) cap (feed.fill 0#8 dmaHalfSize).queue := by
  subst content
  obtain ⟨hr, rb, taken, left⟩ := stores.rbReadUpto_take (show dmaHalfSize ≠ 0 by decide)
  refine ⟨Sb16.setRing ctx.toSb16DrvContext rb, ?_, left⟩
  have silence : dmaHalfSize - min dmaHalfSize feed.queue.length =
      dmaHalfSize - feed.queue.length := by omega
  have place : (if ctx.dmaCurrentHalf = 0 then 0 else dmaHalfSize) =
      (if ctx.dmaCurrentHalf = 0 then 0 else 1) * dmaHalfSize := by
    split <;> simp
  simp only [sb16FillHalf, Sb16.rbReadUpto, taken, silence, place, Feed.block]

/-- The interrupt routine without a stop request. -/
theorem sb16Isr_eq {intrStatus : Nat} (running : sb.ctx.stopPendingFlag = false)
    (called : sb16Isr sb intrStatus = .ok sb') :
    sb'.ctx = if sb.ctx.skipCntr ≠ 0 then
        { sb.ctx with
          dmaCurrentHalf := sb.ctx.dmaCurrentHalf ^^^ 1
          skipCntr := sb.ctx.skipCntr - 1 }
      else sb16FillHalf { sb.ctx with dmaCurrentHalf := sb.ctx.dmaCurrentHalf ^^^ 1 } := by
  rw [sb16Isr] at called
  dsimp only at called
  split at called
  · cases called
  · rw [if_neg (by simp [running])] at called
    split at called
    · next skips =>
      rw [if_pos skips]
      obtain rfl := Except.ok.inj called
      rfl
    · next fills =>
      rw [if_neg fills]
      obtain rfl := Except.ok.inj called
      rfl

/-! ## Runs -/

/-- The driver will fill the half that the card is playing. -/
structure InPhase (s : Playback) : Prop where
  running : s.driver.ctx.stopPendingFlag = false
  fills : s.driver.ctx.skipCntr = 0
  playing : s.playing ≤ 1
  other : s.driver.ctx.dmaCurrentHalf = 1 - s.playing

namespace InPhase

variable {s : Playback}

theorem flipped (phase : InPhase s) : s.driver.ctx.dmaCurrentHalf ^^^ 1 = s.playing := by
  have one := phase.playing
  obtain first | second : s.playing = 0 ∨ s.playing = 1 := by omega
  · rw [phase.other, first]
    decide
  · rw [phase.other, second]
    decide

theorem finished (phase : InPhase s) :
    (if s.driver.ctx.dmaCurrentHalf ^^^ 1 = 0 then 0 else 1) = s.playing := by
  have one := phase.playing
  rw [phase.flipped]
  split <;> omega

/-- The interrupt routine fills the half that the card has just played. -/
theorem refilled (phase : InPhase s) : sb16RefilledHalf s.driver.ctx = some s.playing := by
  rw [sb16RefilledHalf, if_neg (by simp [phase.running]), if_neg (by simp [phase.fills]),
    phase.finished]

end InPhase

theorem feedOf_append (queue : List (BitVec 8)) (ops : List PlaybackOp) (op : PlaybackOp) :
    feedOf queue (ops ++ [op]) = feedAfter (feedOf queue ops) op := by
  simp [feedOf]

theorem accepted_feedAfter (feed : Feed (BitVec 8)) (op : PlaybackOp) :
    (feedAfter feed op).accepted = feed.accepted ++ op.accepted := by
  cases op with
  | write bytes hr =>
    cases hr with
    | sOk => exact Feed.accepted_accept feed bytes
    | _ => simp [feedAfter, PlaybackOp.accepted]
  | halfEnds finished refilled =>
    cases refilled with
    | none => simp [feedAfter, PlaybackOp.accepted]
    | some half => simp [feedAfter, PlaybackOp.accepted]

theorem accepted_feedOf (queue : List (BitVec 8)) (ops : List PlaybackOp) :
    (feedOf queue ops).accepted = queue ++ ops.flatMap PlaybackOp.accepted := by
  induction ops using List.reverseRecOn with
  | nil => simp [feedOf]
  | append_singleton ops op inductionHypothesis =>
    rw [feedOf_append, accepted_feedAfter, inductionHypothesis, List.flatMap_append,
      List.flatMap_singleton, List.append_assoc]

theorem queue_feedAfter_write (feed : Feed (BitVec 8)) (bytes : List (BitVec 8)) (hr : HResult) :
    (feedAfter feed (.write bytes hr)).queue =
        feed.queue ++ PlaybackOp.accepted (.write bytes hr) ∧
      (feedAfter feed (.write bytes hr)).tape = feed.tape := by
  cases hr with
  | sOk => exact ⟨rfl, rfl⟩
  | _ => exact ⟨(List.append_nil _).symm, rfl⟩

/-- One step in phase: the refill goes to the half that has just finished, the bytes stay in order,
and the driver stays in phase. -/
theorem InPhase.step {s s' : Playback} {op : PlaybackOp} {ops : List PlaybackOp}
    (phase : InPhase s) (order : PlaysInOrder queue ops s) (taken : PlaybackStep s op s') :
    op.RefillsFinished ∧ InPhase s' ∧ PlaysInOrder queue (ops ++ [op]) s' := by
  obtain ⟨cap, stores⟩ := order.ring
  have running := phase.running
  have fills := phase.fills
  have accepted := accepted_feedOf queue (ops ++ [op])
  cases taken with
  | @write bytes hr driver called =>
    obtain ⟨⟨ring, kept⟩, written⟩ := sb16Write_stores stores called
    obtain ⟨content, tape⟩ := queue_feedAfter_write (feedOf queue ops) bytes hr
    refine ⟨trivial, ?_, accepted, ⟨cap, ?_⟩, ?_⟩
    · -- a write only changes the ring buffer
      have ⟨_, _, one, other⟩ := phase
      constructor <;> simp only [kept] <;> assumption
    · rw [feedOf_append, content]
      exact written
    · rw [feedOf_append, tape, ← order.tape]
      simp only [kept]
  | @halfEnds intrStatus driver called =>
    have one := phase.playing
    -- the half that has finished is read for the last time and gets the next block of the tape
    let next := { s.driver.ctx with dmaCurrentHalf := s.driver.ctx.dmaCurrentHalf ^^^ 1 }
    have same : Stores (Sb16.ring next.toSb16DrvContext) cap (feedOf queue ops).queue := stores
    obtain ⟨ring, filled, left⟩ := sb16FillHalf_eq same (feedOf queue ops) rfl
    have after := sb16Isr_eq running called
    rw [if_neg (by simp [fills]), filled] at after
    simp only [next, phase.finished] at after
    rw [phase.refilled] at accepted ⊢
    refine ⟨fun h same => (Option.some.inj same).symm, ?_, accepted, ⟨cap, ?_⟩, ?_⟩
    · have back : 1 - (1 - s.playing) = s.playing := by omega
      constructor
      · simp only [after, running]
      · simp only [after, fills]
      · exact Nat.sub_le 1 s.playing
      · simp only [after, phase.flipped, back]
    · rw [feedOf_append]
      simp only [after]
      exact left
    · rw [feedOf_append]
      simp only [after]
      rw [List.append_assoc, upcoming_writeAt (Feed.length_block _ _ _) one, ← List.append_assoc,
        order.tape]
      rfl

/-! ## The start -/

/-- What `sb16_begin_playback` leaves when it starts the player from the stopped state. -/
theorem sb16BeginPlayback_ctx (stopped : sb.ctx.playerState = .stopped)
    (begun : sb16BeginPlayback sb = .ok (.sOk, sb')) :
    ∃ irqId dmaChannel, sb'.ctx = { sb16Preroll (sb16SelectChannel { sb.ctx with
        dmaMemory := writeAt sb.ctx.dmaMemory 0 (List.replicate dmaBufferSize 0#8)
        irqId := irqId
        dmaChannel := dmaChannel }) with playerState := .playing } := by
  rw [sb16BeginPlayback, if_neg (by simp [stopped]), if_pos (by simp [stopped])] at begun
  obtain ⟨⟨status, middle⟩, configured, later⟩ := exists_of_bind begun
  have installed : ∃ irqId dmaChannel, (sb16InstallIsr sb).ctx = { sb.ctx with
      dmaMemory := writeAt sb.ctx.dmaMemory 0 (List.replicate dmaBufferSize 0#8)
      irqId := irqId
      dmaChannel := dmaChannel } := by
    simp only [sb16InstallIsr, sbGetMixerIrqDma]
    split <;> exact ⟨_, _, rfl⟩
  obtain ⟨irqId, dmaChannel, installed⟩ := installed
  refine ⟨irqId, dmaChannel, ?_⟩
  rw [← installed]
  have selected : middle.ctx = sb16SelectChannel (sb16InstallIsr sb).ctx := by
    simp only [sb16ConfigureDma] at configured
    split at configured
    · rw [← (eq_of_returned configured).2]
    · obtain ⟨_, _, stored⟩ := exists_of_bind configured
      rw [← (eq_of_returned stored).2]
  simp only at later
  split at later
  · next failed =>
    rw [(eq_of_returned later).1] at failed
    cases failed
  · obtain ⟨_, _, spoken⟩ := exists_of_bind later
    obtain ⟨_, _, prepared⟩ := exists_of_bind spoken
    obtain ⟨_, _, stored⟩ := exists_of_bind prepared
    rw [← (eq_of_returned stored).2, selected]

/-- The pre-roll commits the first block of the tape. -/
theorem sb16Preroll_eq {ctx : Sb16Context} {memory : Nat → BitVec 8}
    (stores : Stores (Sb16.ring ctx.toSb16DrvContext) cap queue)
    (cleared : ctx.dmaMemory = writeAt memory 0 (List.replicate dmaBufferSize 0#8)) :
    readAt (sb16Preroll ctx).dmaMemory 0 dmaBufferSize =
        (Feed.start queue).block 0#8 dmaBufferSize ∧
      Stores (Sb16.ring (sb16Preroll ctx).toSb16DrvContext) cap (queue.drop dmaBufferSize) ∧
      (sb16Preroll ctx).stopPendingFlag = ctx.stopPendingFlag ∧
      (sb16Preroll ctx).skipCntr = (if queue.length < dmaBufferSize then 0 else ctx.skipCntr) ∧
      (sb16Preroll ctx).dmaCurrentHalf =
        if queue.length < dmaBufferSize then 1 else ctx.dmaCurrentHalf := by
  obtain ⟨hr, rb, taken, left⟩ := stores.rbReadUpto_take (show dmaBufferSize ≠ 0 by decide)
  have committed : readAt (writeAt ctx.dmaMemory 0 (queue.take dmaBufferSize)) 0 dmaBufferSize =
      (Feed.start queue).block 0#8 dmaBufferSize := by
    rw [cleared, readAt_writeAt_cleared (List.length_take_le _ _), List.length_take, Feed.block,
      show (Feed.start queue).queue = queue from rfl]
    congr 2
    omega
  have short : min dmaBufferSize queue.length < dmaBufferSize ↔ queue.length < dmaBufferSize := by
    omega
  simp only [sb16Preroll, Sb16.rbReadUpto, taken, short]
  split
  · exact ⟨committed, left, rfl, rfl, rfl⟩
  · exact ⟨committed, left, rfl, rfl, rfl⟩

/-- What the card and the driver start with. -/
theorem startPlayback_phase (stopped : sb.ctx.playerState = .stopped)
    (running : sb.ctx.stopPendingFlag = false)
    (stores : Stores (Sb16.ring sb.ctx.toSb16DrvContext) cap queue)
    (begun : sb16BeginPlayback sb = .ok (.sOk, sb')) :
    PlaysInOrder queue [] (startPlayback sb') ∧ sb'.ctx.stopPendingFlag = false ∧
      sb'.ctx.skipCntr = (if queue.length < dmaBufferSize then 0 else 1) ∧
      sb'.ctx.dmaCurrentHalf = if queue.length < dmaBufferSize then 1 else 0 := by
  obtain ⟨irqId, dmaChannel, ctx⟩ := sb16BeginPlayback_ctx stopped begun
  let cleared := sb16SelectChannel { sb.ctx with
    dmaMemory := writeAt sb.ctx.dmaMemory 0 (List.replicate dmaBufferSize 0#8)
    irqId := irqId
    dmaChannel := dmaChannel }
  have same : Stores (Sb16.ring cleared.toSb16DrvContext) cap queue := stores
  obtain ⟨memory, left, stop, skip, current⟩ := sb16Preroll_eq same rfl
  refine ⟨⟨accepted_feedOf queue [], ⟨cap, ?_⟩, ?_⟩, ?_, ?_, ?_⟩
  · simp only [startPlayback, ctx]
    exact left
  · simp only [startPlayback, ctx]
    rw [List.nil_append, upcoming_zero]
    exact memory
  · simp only [ctx]
    exact stop.trans running
  · simp only [ctx]
    exact skip
  · simp only [ctx]
    exact current

/-- A run that starts with room in the DMA memory stays in phase. -/
theorem InPhase.run {start s : Playback} {ops : List PlaybackOp} (phase : InPhase start)
    (order : PlaysInOrder queue [] start) (run : Run PlaybackStep start ops s) :
    (∀ op ∈ ops, op.RefillsFinished) ∧ PlaysInOrder queue ops s := by
  have kept := run.history
    (fun past s => InPhase s ∧ (∀ op ∈ past, op.RefillsFinished) ∧ PlaysInOrder queue past s)
    ⟨phase, by simp, order⟩ fun past s op s' before taken => by
      obtain ⟨phase, refills, order⟩ := before
      obtain ⟨refill, phase', order'⟩ := phase.step order taken
      refine ⟨phase', ?_, order'⟩
      rw [List.forall_mem_append, List.forall_mem_singleton]
      exact ⟨refills, refill⟩
  exact kept.2

/-- After a pre-roll of the whole DMA memory the second interrupt fills the half that the card has
just begun to play. -/
theorem not_gapless_of_full {start : Playback}
    (running : start.driver.ctx.stopPendingFlag = false) (skips : start.driver.ctx.skipCntr = 1)
    (current : start.driver.ctx.dmaCurrentHalf = 0) (first : start.playing = 0) :
    ¬ Gapless queue start := by
  intro gapless
  -- the first interrupt is passed over, but it moves on to the other half
  let ctx := start.driver.ctx
  let skipped : SoundBlaster16 := { start.driver with ctx := { ctx with
    dmaCurrentHalf := ctx.dmaCurrentHalf ^^^ 1
    skipCntr := ctx.skipCntr - 1 } }
  have firstCall : sb16Isr start.driver 1 = .ok skipped := by
    rw [sb16Isr]
    dsimp only
    rw [if_neg (by decide), if_neg (by simp [running]), if_pos (by simp [skips])]
  let filled :=
    sb16FillHalf { skipped.ctx with dmaCurrentHalf := skipped.ctx.dmaCurrentHalf ^^^ 1 }
  have secondCall : sb16Isr skipped 1 = .ok { skipped with ctx := filled } := by
    rw [sb16Isr]
    dsimp only
    rw [if_neg (by decide), if_neg (by simp [skipped, ctx, running]),
      if_neg (by simp [skipped, ctx, skips])]
  have refilled : sb16RefilledHalf skipped.ctx = some 0 := by
    simp [sb16RefilledHalf, skipped, ctx, running, skips, current]
  have run := Run.cons (PlaybackStep.halfEnds firstCall)
    (Run.cons (PlaybackStep.halfEnds secondCall) (Run.nil _))
  have late := (gapless _ _ run).1 _ (List.mem_cons_of_mem _ List.mem_cons_self)
  have same := late 0 refilled
  simp only [first] at same
  omega

/-- Playback is gapless exactly when less than the DMA memory holds is queued before it begins. -/
theorem sb16BeginPlayback_gapless_iff (stopped : sb.ctx.playerState = .stopped)
    (running : sb.ctx.stopPendingFlag = false)
    (stores : Stores (Sb16.ring sb.ctx.toSb16DrvContext) cap queue)
    (begun : sb16BeginPlayback sb = .ok (.sOk, sb')) :
    Gapless queue (startPlayback sb') ↔ queue.length < dmaBufferSize := by
  obtain ⟨order, running', skip, current⟩ := startPlayback_phase stopped running stores begun
  constructor
  · intro gapless
    by_contra full
    rw [if_neg full] at skip current
    exact not_gapless_of_full running' skip current rfl gapless
  · intro room
    rw [if_pos room] at skip current
    exact fun ops s run => InPhase.run ⟨running', skip, Nat.zero_le 1, current⟩ order run

end

theorem stores_quietStart : Stores (Sb16.ring quietStart.driver.ctx.toSb16DrvContext)
    (128 * 1024 * 3) [] :=
  stores_createRingBuffer (by decide) (by decide)

/-- Nothing is queued before playback begins. -/
theorem sb16BeginPlayback_gapless_empty :
    ∃ sb', sb16BeginPlayback quietStart.driver = .ok (.sOk, sb') ∧
      Gapless [] (startPlayback sb') := by
  obtain ⟨sb', begun, -⟩ := sb16BeginPlayback_ready quietStart.driver rfl rfl
    (fun _ => show 0 < 50000 by decide) (by decide)
  exact ⟨sb', begun, (sb16BeginPlayback_gapless_iff rfl rfl stores_quietStart begun).mpr
    (by decide)⟩

/-- As much as the DMA memory holds is queued before playback begins. -/
theorem sb16BeginPlayback_not_gapless :
    ∃ driver sb', sb16Write quietStart.driver (List.replicate dmaBufferSize 7#8) = (.sOk, driver) ∧
      sb16BeginPlayback driver = .ok (.sOk, sb') ∧
      ¬ Gapless (List.replicate dmaBufferSize 7#8) (startPlayback sb') := by
  have room : ([] : List (BitVec 8)).length + (List.replicate dmaBufferSize 7#8).length <
      128 * 1024 * 3 := by
    rw [List.length_replicate, List.length_nil]
    decide
  obtain ⟨driver, written⟩ : ∃ driver,
      sb16Write quietStart.driver (List.replicate dmaBufferSize 7#8) = (.sOk, driver) :=
    ⟨_, by rw [sb16Write, Sb16.rbWrite, stores_quietStart.rbWrite_eq room]⟩
  obtain ⟨⟨ring, kept⟩, stores⟩ := sb16Write_stores stores_quietStart written
  have stopped : driver.ctx.playerState = .stopped := by
    rw [kept]
    rfl
  have idle : driver.ctx.stopPendingFlag = false := by
    rw [kept]
    rfl
  have card : driver.card = quietStart.driver.card := by rw [kept]
  have phys : driver.ctx.dmaMemoryPhys = 0x100000 := by
    rw [kept]
    rfl
  obtain ⟨sb', begun, -⟩ := sb16BeginPlayback_ready driver stopped (by rw [card]; rfl)
    (by rw [card]; exact fun _ => show 0 < 50000 by decide) (by rw [phys]; decide)
  obtain ⟨-, running, skip, current⟩ := startPlayback_phase stopped idle stores begun
  have full : ¬ ([] ++ PlaybackOp.accepted
      (.write (List.replicate dmaBufferSize 7#8) .sOk)).length < dmaBufferSize := by
    simp [PlaybackOp.accepted]
  rw [if_neg full] at skip current
  exact ⟨driver, sb', written, begun, not_gapless_of_full running skip current rfl⟩

end Antonix
