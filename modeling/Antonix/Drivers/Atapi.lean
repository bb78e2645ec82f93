import Antonix.Drivers.AtaBlocks
import Antonix.SyncObjs.Event

/-! # Packet commands (`drivers/ata.c`)

A controller on a cable with two packet devices.  Between two accesses of the driver to its ports
the devices move as they like, and their interrupts signal the event of the controller.  The
locks have no part in what is read. -/

namespace Antonix.Drivers.Atapi

open Event PacketDrive Transition

abbrev ATA_REG_FEATURES : Nat := 0x1

abbrev ATA_CMD_PACKET : BitVec 8 := 0xA0

abbrev ATAPI_CMD_READ : BitVec 8 := 0xA8

abbrev ATAPI_SECTOR_SIZE : Nat := 2048

/-- The discs in the devices, what the devices do before each access, and how often a wait for the
event looks at it before its time is up.  A device that is busy does something in the end. -/
structure Environment where
  disc : Bool → Nat → List (BitVec 16)
  steps : Nat → List (Bool × Bool)
  polls : Nat → Nat → Nat
  bound : Nat
  sectors : ∀ which lba, (disc which lba).length = ATAPI_SECTOR_SIZE / 2
  fair : ∀ n which, ∃ k < bound, ∃ fails, (which, fails) ∈ steps (n + k)

/-- `ATA_CONTROLLER_CTX` with its cable and the number of accesses so far. -/
structure Controller where
  bus : AtaBus
  drive : BitVec 32
  nIEN : BitVec 8
  irqEvent : KEvent
  cable : Cable
  accesses : Nat

variable (env : Environment)

/-- A device moves, and its interrupt is served by `irq14_isr` or `irq15_isr`. -/
def deviceStep (ctrl : Controller) (step : Bool × Bool) : Controller :=
  let (cable, irq) := ctrl.cable.tick env.disc step.1 step.2
  { ctrl with
    cable := cable
    irqEvent := if irq then eventSignal ctrl.irqEvent else ctrl.irqEvent }

/-- What happens before an access. -/
def elapse (ctrl : Controller) : Controller :=
  let later := (env.steps ctrl.accesses).foldl (deviceStep env) ctrl
  { later with accesses := ctrl.accesses + 1 }

/-- `WRITE_PORT_UCHAR` and `WRITE_PORT_USHORT`; the cable has the ports of the command block and
one for the device control register. -/
def writePort (write : PortWrite) (ctrl : Controller) : Controller :=
  let ctrl := elapse env ctrl
  match write with
  | .uchar port value =>
    if ctrl.bus.cmdBase ≤ port ∧ port < ctrl.bus.cmdBase + 8 then
      { ctrl with cable := ctrl.cable.write (port - ctrl.bus.cmdBase) value }
    else if port = ctrl.bus.controlBase then
      { ctrl with cable := { ctrl.cable with interrupts := !value.getLsbD 1 } }
    else ctrl
  | .ushort port value =>
    if port = ctrl.bus.cmdBase then
      { ctrl with cable := ctrl.cable.modify (ctrl.cable.selected.put value) }
    else ctrl

/-- `READ_PORT_UCHAR` -/
def readPortUchar (port : Nat) (ctrl : Controller) : BitVec 8 × Controller :=
  let ctrl := elapse env ctrl
  if ctrl.bus.cmdBase ≤ port ∧ port < ctrl.bus.cmdBase + 8 then
    (ctrl.cable.read (port - ctrl.bus.cmdBase), ctrl)
  else (0, ctrl)

/-- `READ_PORT_USHORT` -/
def readPortUshort (port : Nat) (ctrl : Controller) : BitVec 16 × Controller :=
  let ctrl := elapse env ctrl
  if port = ctrl.bus.cmdBase then
    let (word, drive) := ctrl.cable.selected.get
    (word, { ctrl with cable := ctrl.cable.modify drive })
  else (0, ctrl)

/-- `ata_write_reg`, for the registers that packet commands need. -/
def ataWriteReg (reg : Nat) (value : BitVec 8) (ctrl : Controller) : Controller :=
  match ctrl.bus.portOf reg with
  | some port => writePort env (.uchar port value) ctrl
  | none => ctrl

/-- `ata_read_reg`, for the status registers. -/
def ataReadReg (reg : Nat) (ctrl : Controller) : BitVec 8 × Controller :=
  readPortUchar env
    (if reg < 0x08 then ctrl.bus.cmdBase + reg else ctrl.bus.controlBase + reg - 0x0A) ctrl

/-- `ata_wait_4us` -/
def ataWait4us (ctrl : Controller) : Controller :=
  let ctrl := (ataReadReg env ATA_REG_ALTSTATUS ctrl).2
  let ctrl := (ataReadReg env ATA_REG_ALTSTATUS ctrl).2
  let ctrl := (ataReadReg env ATA_REG_ALTSTATUS ctrl).2
  (ataReadReg env ATA_REG_ALTSTATUS ctrl).2

/-- The loop of `ata_wait_status`. -/
def ataWaitLoop : Nat → Controller → HResult × Controller
  | 0, ctrl => (.eTimedOut, ctrl)
  | turns + 1, ctrl =>
    let (status, ctrl) := ataReadReg env ATA_REG_STATUS ctrl
    if status &&& ATA_STATUS_BSY = 0 then (.sOk, ctrl) else ataWaitLoop turns ctrl

/-- `ata_wait_status` -/
def ataWaitStatus (timeout : Nat) (ctrl : Controller) : HResult × Controller :=
  let ctrl := ataWait4us env ctrl
  let timeout := if timeout = 0 then 1 else timeout
  ataWaitLoop env ((timeout + 9) / 10) ctrl

/-- `ata_wait_ex` -/
def ataWaitEx (timeout : Nat) (ctrl : Controller) : HResult × Controller :=
  let ctrl := ataWait4us env ctrl
  let (hr, ctrl) := ataWaitStatus env timeout ctrl
  if hr.failed then (hr, ctrl)
  else
    let (status, ctrl) := ataReadReg env ATA_REG_STATUS ctrl
    if status &&& (ATA_STATUS_ERR ||| ATA_STATUS_DF) ≠ 0 ∨ status &&& ATA_STATUS_DRQ = 0 then
      (.eFail, ctrl)
    else (.sOk, ctrl)

/-- `event_reset` -/
def eventReset (e : KEvent) : KEvent := { e with state := stateUnsignaled }

/-- `ata_enable_interrupts` -/
def ataEnableInterrupts (enable : Bool) (ctrl : Controller) : Controller :=
  let newNIEN := if enable then 0x00 else 0x02
  let ctrl := { ctrl with
    nIEN := newNIEN
    irqEvent := if newNIEN ≠ ctrl.nIEN then eventReset ctrl.irqEvent else ctrl.irqEvent }
  ataWriteReg env ATA_REG_CONTROL newNIEN ctrl

/-- `ata_select_drive` -/
def ataSelectDrive (newDriveId : BitVec 32) (ctrl : Controller) : HResult × Controller :=
  if newDriveId ≥ 2 then (.eInvalidArg, ctrl)
  else if ctrl.drive ≠ newDriveId then
    let ctrl := writePort env
      (.uchar (ctrl.bus.cmdBase + ATA_REG_DRIVE) (0xA0 ||| (newDriveId <<< 4).setWidth 8)) ctrl
    let ctrl := ataWait4us env ctrl
    let (hr, ctrl) := ataWaitStatus env 1000 ctrl
    if hr.succeeded then (hr, { ctrl with drive := newDriveId }) else (hr, ctrl)
  else (.sOk, ctrl)

/-- The loop of `event_waitfor`, for the event of the controller. -/
def eventWaitforLoop : Nat → Controller → HResult × Controller
  | 0, ctrl => (.eTimedOut, ctrl)
  | polls + 1, ctrl =>
    let ctrl := elapse env ctrl
    let (state, event) := eventPoll ctrl.irqEvent
    let ctrl := { ctrl with irqEvent := event }
    if state = stateUnsignaled then eventWaitforLoop polls ctrl else (.sOk, ctrl)

/-- `event_waitfor`, which looks at the event at least once. -/
def eventWaitfor (timeout : Nat) (ctrl : Controller) : HResult × Controller :=
  eventWaitforLoop env (env.polls timeout ctrl.accesses + 1) ctrl

/-- The `packet` of `atapi_read_sectors`. -/
def readPacket (start : BitVec 64) (count : Nat) : List (BitVec 8) :=
  [ATAPI_CMD_READ, 0, ((start >>> 24) &&& 0xFF).setWidth 8, ((start >>> 16) &&& 0xFF).setWidth 8,
    ((start >>> 8) &&& 0xFF).setWidth 8, ((start >>> 0) &&& 0xFF).setWidth 8, 0, 0, 0,
    BitVec.ofNat 8 (if count = 256 then 0 else count), 0, 0]

/-- Word `i` of a packet, as `uint16_t`. -/
def packetWord (packet : List (BitVec 8)) (i : Nat) : BitVec 16 :=
  packet.getD (2 * i + 1) 0 ++ packet.getD (2 * i) 0

/-- The loop that sends the words of the packet from `i` on. -/
def sendPacket (packet : List (BitVec 8)) : Nat → Nat → Controller → Controller
  | 0, _, ctrl => ctrl
  | left + 1, i, ctrl =>
    sendPacket packet left (i + 1)
      (writePort env (.ushort ctrl.bus.cmdBase (packetWord packet i)) ctrl)

/-- Words are read one after the other. -/
def readWords : Nat → Nat → (Nat → BitVec 16) → Controller → (Nat → BitVec 16) × Controller
  | 0, _, buffer, ctrl => (buffer, ctrl)
  | n + 1, ptr, buffer, ctrl =>
    let (word, ctrl) := readPortUshort env (ctrl.bus.cmdBase + ATA_REG_DATA) ctrl
    readWords n (ptr + 1) (Buffer.writeAt buffer ptr [word]) ctrl

/-- The status is checked, and the words of a sector are read. -/
def readSector (ptr : Nat) (buffer : Nat → BitVec 16) (ctrl : Controller) :
    HResult × (Nat → BitVec 16) × Controller :=
  let (hr, ctrl) := ataWaitEx env 0 ctrl
  if hr.failed then (hr, buffer, ctrl)
  else (hr, readWords env (ATAPI_SECTOR_SIZE / 2) ptr buffer ctrl)

/-- A turn of the loop that receives the sectors. -/
def receiveSector (ptr : Nat) (buffer : Nat → BitVec 16) (ctrl : Controller) :
    HResult × (Nat → BitVec 16) × Controller :=
  let (hr, ctrl) := eventWaitfor env 1000 ctrl
  if hr.failed then (hr, buffer, ctrl) else readSector env ptr buffer ctrl

/-- The loop that receives the sectors. -/
def receiveLoop : Nat → Nat → (Nat → BitVec 16) → Controller →
    HResult × (Nat → BitVec 16) × Controller
  | 0, _, buffer, ctrl => (.sOk, buffer, ctrl)
  | count + 1, ptr, buffer, ctrl =>
    let (hr, buffer, ctrl) := receiveSector env ptr buffer ctrl
    if hr.failed then (hr, buffer, ctrl)
    else receiveLoop count (ptr + ATAPI_SECTOR_SIZE / 2) buffer ctrl

/-- The last loop of `atapi_read_sectors`, which polls until the device is neither busy nor
requests data. -/
def settleLoop : Nat → Controller → Controller
  | 0, ctrl => ctrl
  | turns + 1, ctrl =>
    let (status, ctrl) := ataReadReg env ATA_REG_STATUS ctrl
    if status &&& (ATA_STATUS_BSY ||| ATA_STATUS_DRQ) = 0 then ctrl else settleLoop turns ctrl

/-- The end of `atapi_read_sectors`, behind the sectors. -/
def atapiFinish (ctrl : Controller) : HResult × Controller :=
  let (hr, ctrl) := eventWaitfor env 1000 ctrl
  if hr.failed then (hr, ctrl) else (hr, settleLoop env (env.bound + 1) ctrl)

/-- `atapi_read_sectors` from the packet on. -/
def atapiReceive (start : BitVec 64) (count ptr : Nat) (buffer : Nat → BitVec 16)
    (ctrl : Controller) : HResult × (Nat → BitVec 16) × Controller :=
  let ctrl := sendPacket env (readPacket start count) 6 0 ctrl
  let (hr, buffer, ctrl) := receiveLoop env count ptr buffer ctrl
  if hr.failed then (hr, buffer, ctrl)
  else
    let (hr, ctrl) := atapiFinish env ctrl
    (hr, buffer, ctrl)

/-- The registers for a packet command are set, and the command is written. -/
def atapiProgram (ctrl : Controller) : Controller :=
  let ctrl := ataWait4us env ctrl
  let ctrl := ataWriteReg env ATA_REG_FEATURES 0 ctrl
  let ctrl := ataWriteReg env ATA_REG_LBA_MID (BitVec.ofNat 8 (ATAPI_SECTOR_SIZE &&& 0xFF)) ctrl
  let ctrl := ataWriteReg env ATA_REG_LBA_HIGH (BitVec.ofNat 8 (ATAPI_SECTOR_SIZE >>> 8)) ctrl
  ataWriteReg env ATA_REG_COMMAND ATA_CMD_PACKET ctrl

/-- `atapi_read_sectors` from the selected drive on. -/
def atapiCommand (start : BitVec 64) (count ptr : Nat) (buffer : Nat → BitVec 16)
    (ctrl : Controller) : HResult × (Nat → BitVec 16) × Controller :=
  let (hr, ctrl) := ataWaitEx env 10000 (atapiProgram env ctrl)
  if hr.failed then (hr, buffer, ctrl) else atapiReceive env start count ptr buffer ctrl

/-- `atapi_read_sectors` up to `finally`; the buffer is given by words, and `ptr` is the first. -/
def atapiTransfer (dev : AtaDevice) (start : BitVec 64) (count ptr : Nat)
    (buffer : Nat → BitVec 16) (ctrl : Controller) : HResult × (Nat → BitVec 16) × Controller :=
  if dev.mode ≠ .pio then (.eNotImpl, buffer, ctrl)
  else
    let (hr, ctrl) := ataSelectDrive env dev.driveId (ataEnableInterrupts env true ctrl)
    let ctrl := ataWriteReg env ATA_REG_DRIVE ((dev.driveId <<< 4).setWidth 8) ctrl
    if hr.failed then (hr, buffer, ctrl) else atapiCommand env start count ptr buffer ctrl

/-- `atapi_read_sectors` -/
def atapiReadSectors (dev : AtaDevice) (start : BitVec 64) (count ptr : Nat)
    (buffer : Nat → BitVec 16) (ctrl : Controller) : HResult × (Nat → BitVec 16) × Controller :=
  if count > 256 then (.eInvalidArg, buffer, ctrl)
  else
    let (hr, buffer, ctrl) := atapiTransfer env dev start count ptr buffer ctrl
    (hr, buffer, ataEnableInterrupts env false ctrl)

/-! ## Waiting for a device -/

/-- From `c` to `c'` nothing was written to the devices, and no data was read. -/
structure Waits (c c' : Controller) : Prop where
  bus : c'.bus = c.bus
  second : c'.cable.second = c.cable.second
  moves : ∀ which, Moves (env.disc which) (c.cable.drives which) (c'.cable.drives which)

/-- The phase of the device that is selected. -/
abbrev Controller.phase (c : Controller) : Phase := c.cable.selected.phase

/-- No device is at anything. -/
def Rests (c : Controller) : Prop := ∀ which, (c.cable.drives which).phase.Rests

/-- One device is selected and has come so far, and the other one is at nothing. -/
structure Stands (which : Bool) (P : Phase → Prop) (c : Controller) : Prop where
  second : c.cable.second = which
  phase : P (c.cable.drives which).phase
  others : ∀ other, other ≠ which → (c.cable.drives other).phase.Rests

section

variable {env : Environment} {c c' c'' : Controller}

theorem Waits.refl : Waits env c c := ⟨rfl, rfl, fun _ => .refl⟩

theorem Waits.trans (first : Waits env c c') (second : Waits env c' c'') : Waits env c c'' :=
  ⟨second.bus.trans first.bus, second.second.trans first.second,
    fun which => (first.moves which).trans (second.moves which)⟩

/-- What the controller keeps beside its cable does not matter. -/
theorem Waits.congr (waits : Waits env c c') (bus : c''.bus = c'.bus)
    (cable : c''.cable = c'.cable) : Waits env c c'' :=
  ⟨bus.trans waits.bus, by rw [cable, waits.second], by rw [cable]; exact waits.moves⟩

theorem Waits.selected (waits : Waits env c c') :
    Moves (env.disc c.cable.second) c.cable.selected c'.cable.selected := by
  have moves := waits.moves c.cable.second
  rwa [Cable.selected, Cable.selected, waits.second]

theorem deviceStep_waits (step : Bool × Bool) : Waits env c (deviceStep env c step) := by
  obtain ⟨which, fails⟩ := step
  refine ⟨rfl, rfl, fun other => ?_⟩
  simp only [deviceStep, Cable.tick]
  by_cases same : other = which
  · subst same
    rw [Function.update_self]
    exact .single ⟨fails, rfl⟩
  · rw [Function.update_of_ne same]
    exact .refl

theorem elapse_waits : Waits env c (elapse env c) := by
  have all : ∀ (steps : List (Bool × Bool)) (c : Controller),
      Waits env c (steps.foldl (deviceStep env) c) := by
    intro steps
    induction steps with
    | nil => exact fun c => .refl
    | cons step steps inductionHypothesis =>
      exact fun c => (deviceStep_waits step).trans (inductionHypothesis _)
  exact (all (env.steps c.accesses) c).congr rfl rfl

@[simp] theorem elapse_bus : (elapse env c).bus = c.bus := elapse_waits.bus

@[simp] theorem elapse_second : (elapse env c).cable.second = c.cable.second := elapse_waits.second

/-- The status of the device that is selected, at the time of the access. -/
theorem ataReadReg_status :
    ataReadReg env ATA_REG_STATUS c = ((elapse env c).phase.status, elapse env c) := by
  simp [ataReadReg, readPortUchar, Cable.read]

theorem readPortUchar_snd (port : Nat) : (readPortUchar env port c).2 = elapse env c := by
  unfold readPortUchar
  dsimp only
  split
  · rfl
  · rfl

theorem ataReadReg_waits (reg : Nat) : Waits env c (ataReadReg env reg c).2 := by
  rw [ataReadReg, readPortUchar_snd]
  exact elapse_waits

theorem ataWait4us_eq :
    ataWait4us env c = elapse env (elapse env (elapse env (elapse env c))) := by
  rw [ataWait4us]
  simp only [ataReadReg, readPortUchar_snd]

theorem ataWait4us_waits : Waits env c (ataWait4us env c) :=
  (((ataReadReg_waits _).trans (ataReadReg_waits _)).trans (ataReadReg_waits _)).trans
    (ataReadReg_waits _)

/-- When the wait succeeds, the device that is selected is not busy. -/
theorem ataWaitLoop_waits (turns : Nat) :
    Waits env c (ataWaitLoop env turns c).2 ∧
      ((ataWaitLoop env turns c).1 = .sOk ∧ (ataWaitLoop env turns c).2.phase.Still ∨
        (ataWaitLoop env turns c).1 = .eTimedOut) := by
  induction turns generalizing c with
  | zero => exact ⟨.refl, .inr rfl⟩
  | succ turns inductionHypothesis =>
    rw [ataWaitLoop, ataReadReg_status]
    dsimp only
    split
    · next still => exact ⟨elapse_waits, .inl ⟨rfl, (still_iff _).mpr still⟩⟩
    · obtain ⟨waits, outcome⟩ := @inductionHypothesis (elapse env c)
      exact ⟨elapse_waits.trans waits, outcome⟩

theorem ataWaitStatus_waits (timeout : Nat) :
    Waits env c (ataWaitStatus env timeout c).2 ∧
      ((ataWaitStatus env timeout c).1 = .sOk ∧ (ataWaitStatus env timeout c).2.phase.Still ∨
        (ataWaitStatus env timeout c).1 = .eTimedOut) := by
  obtain ⟨waits, outcome⟩ := @ataWaitLoop_waits env (ataWait4us env c)
    (((if timeout = 0 then 1 else timeout) + 9) / 10)
  exact ⟨ataWait4us_waits.trans waits, outcome⟩

/-- How `ata_wait_ex` ends: the device requests data, or it does not and is not busy either, or
the time was up. -/
theorem ataWaitEx_waits (timeout : Nat) :
    Waits env c (ataWaitEx env timeout c).2 ∧
      ((ataWaitEx env timeout c).1 = .sOk ∧ (ataWaitEx env timeout c).2.phase.Requests ∨
        (ataWaitEx env timeout c).1 = .eFail ∧ (ataWaitEx env timeout c).2.phase.Still ∧
          ¬ (ataWaitEx env timeout c).2.phase.Requests ∨
        (ataWaitEx env timeout c).1 = .eTimedOut) := by
  obtain ⟨waits, outcome⟩ := @ataWaitStatus_waits env (ataWait4us env c) timeout
  have waited := ataWait4us_waits.trans waits
  unfold ataWaitEx
  dsimp only
  generalize ataWaitStatus env timeout (ataWait4us env c) = result at outcome waited
  obtain ⟨hr, after⟩ := result
  cases outcome with
  | inr late =>
    obtain rfl := late
    exact ⟨waited, .inr (.inr rfl)⟩
  | inl ready =>
    obtain ⟨rfl, still⟩ := ready
    have quiet := (@elapse_waits env after).selected.eq_of_still still
    dsimp only
    rw [if_neg (by decide), ataReadReg_status]
    dsimp only
    have same : (elapse env after).phase = after.phase := by rw [Controller.phase, quiet]
    refine ⟨?_, ?_⟩
    · split
      · exact waited.trans elapse_waits
      · exact waited.trans elapse_waits
    · split
      · next refused =>
        refine .inr (.inl ⟨rfl, by rwa [same], ?_⟩)
        intro requests
        cases refused with
        | inl error => exact error requests.1
        | inr none => exact requests.2.1 none
      · next granted =>
        obtain ⟨noError, data⟩ := not_or.mp granted
        exact .inl ⟨rfl, by simpa using noError, data, by rwa [same]⟩

theorem Waits.rests (waits : Waits env c c') (rests : Rests c) : Rests c' := by
  intro which
  rw [(waits.moves which).eq_of_still (rests which).still]
  exact rests which

/-! ## Registers -/

/-- The port that `ata_write_reg` computes for the device control register is another one. -/
theorem ataWriteReg_control (value : BitVec 8) :
    ataWriteReg env ATA_REG_CONTROL value c = elapse env c := by
  have outside (bus : AtaBus) : ¬ (bus.cmdBase ≤ bus.controlBase + 2 ∧
      bus.controlBase + 2 < bus.cmdBase + 8) := by
    cases bus with
    | primary => decide
    | secondary => decide
  have port : c.bus.portOf ATA_REG_CONTROL = some (c.bus.controlBase + 2) := rfl
  rw [ataWriteReg, port]
  simp only [writePort, elapse_bus]
  rw [if_neg (outside c.bus), if_neg (by omega)]

theorem ataEnableInterrupts_waits (enable : Bool) :
    Waits env c (ataEnableInterrupts env enable c) := by
  rw [ataEnableInterrupts, ataWriteReg_control]
  refine Waits.trans ?_ elapse_waits
  exact Waits.refl.congr rfl rfl

/-- A register of the command block is written after what happens before the access. -/
theorem writePort_command {offset : Nat} (value : BitVec 8) (inside : offset < 8) :
    writePort env (.uchar (c.bus.cmdBase + offset) value) c =
      { elapse env c with cable := (elapse env c).cable.write offset value } := by
  simp [writePort, inside]

theorem ataWriteReg_command {reg : Nat} (value : BitVec 8) (inside : reg < 8) :
    ataWriteReg env reg value c =
      { elapse env c with cable := (elapse env c).cable.write reg value } := by
  have port : c.bus.portOf reg = some (c.bus.cmdBase + reg) := if_pos inside
  rw [ataWriteReg, port]
  exact writePort_command value inside

/-- Only a command makes a device do something. -/
theorem write_phase {offset : Nat} (value : BitVec 8) (cable : Cable) (noCommand : offset ≠ 7)
    (which : Bool) :
    ((cable.write offset value).drives which).phase = (cable.drives which).phase := by
  unfold Cable.write
  split
  · rfl
  · rfl
  · rfl
  · rfl
  · contradiction
  · rfl

theorem ataWriteReg_rests {reg : Nat} (value : BitVec 8) (inside : reg < 7) (rests : Rests c) :
    Rests (ataWriteReg env reg value c) := by
  rw [ataWriteReg_command value (by omega)]
  intro which
  have before : Rests (elapse env c) := elapse_waits.rests rests
  rw [write_phase value _ (by omega) which]
  exact before which

theorem ataSelectDrive_rests (newDriveId : BitVec 32) (rests : Rests c) :
    Rests (ataSelectDrive env newDriveId c).2 := by
  unfold ataSelectDrive
  split
  · exact rests
  · split
    · rw [writePort_command _ (by decide)]
      dsimp only
      generalize before : ({ elapse env c with cable := _ } : Controller) = d
      have atRest : Rests d := by
        subst before
        intro which
        have was : Rests (elapse env c) := elapse_waits.rests rests
        rw [write_phase _ _ (by decide) which]
        exact was which
      have waits := ataWait4us_waits.trans (@ataWaitStatus_waits env (ataWait4us env d) 1000).1
      split
      · exact fun which => waits.rests atRest which
      · exact waits.rests atRest
    · exact rests

/-! ## A packet and its answer -/

theorem Stands.of_waits {which : Bool} {P : Phase → Prop} (stands : Stands which P c)
    (waits : Waits env c c')
    (kept : ∀ d d', Moves (env.disc which) d d' → P d.phase → P d'.phase) : Stands which P c' where
  second := waits.second.trans stands.second
  phase := kept _ _ (waits.moves which) stands.phase
  others := by
    intro other different
    rw [(waits.moves other).eq_of_still (stands.others other different).still]
    exact stands.others other different

/-- A device that is not busy stays where it is. -/
theorem Stands.still_waits {which : Bool} {phase : Phase} (stands : Stands which (· = phase) c)
    (still : phase.Still) (waits : Waits env c c') : Stands which (· = phase) c' := by
  refine stands.of_waits waits fun d d' moves same => ?_
  rw [moves.eq_of_still (by rwa [same])]
  exact same

theorem Stands.rests {which : Bool} (stands : Stands which Phase.Rests c) : Rests c := by
  intro other
  by_cases same : other = which
  · rw [same]
    exact stands.phase
  · exact stands.others other same

/-- What the device that is selected is made to do. -/
theorem Stands.modify {which : Bool} {P Q : Phase → Prop} {d : Drive} (stands : Stands which P c)
    (does : Q d.phase) : Stands which Q { c with cable := c.cable.modify d } where
  second := stands.second
  phase := by
    simp only [Cable.modify, stands.second, Function.update_self]
    exact does
  others := by
    intro other different
    simp only [Cable.modify, stands.second, Function.update_of_ne different]
    exact stands.others other different

/-- The command `PACKET` is accepted. -/
theorem ataWriteReg_packet (rests : Rests c) :
    Stands c.cable.second Phase.Takes (ataWriteReg env ATA_REG_COMMAND ATA_CMD_PACKET c) := by
  rw [ataWriteReg_command _ (by decide)]
  have stands : Stands c.cable.second (fun _ => True) (elapse env c) :=
    ⟨elapse_second, trivial, fun other _ => elapse_waits.rests rests other⟩
  exact stands.modify (by simp [Drive.command, Phase.Takes])

/-- The data register is written after what happens before the access. -/
theorem writePort_data (word : BitVec 16) :
    writePort env (.ushort c.bus.cmdBase word) c = { elapse env c with
      cable := (elapse env c).cable.modify ((elapse env c).cable.selected.put word) } := by
  simp [writePort]

/-- The words of a packet arrive one behind the other. -/
theorem sendPacket_stands {which : Bool} {packet : List (BitVec 8)} (left : Nat) :
    ∀ {i : Nat} {c : Controller}, i + (left + 1) = 6 →
      Stands which (· = .packet ((List.range i).map (packetWord packet))) c →
      Stands which (· = execute ((List.range 6).map (packetWord packet)))
        (sendPacket env packet (left + 1) i c) := by
  induction left with
  | zero =>
    intro i c last stands
    have before := stands.still_waits (by simp [Phase.Still]) (@elapse_waits env c)
    have here : (elapse env c).cable.selected.phase = _ := before.second ▸ before.phase
    have five : i = 5 := by omega
    subst five
    rw [sendPacket, sendPacket, writePort_data]
    refine before.modify ?_
    rw [put_phase _ here]
    rfl
  | succ left inductionHypothesis =>
    intro i c last stands
    have before := stands.still_waits (by simp [Phase.Still]) (@elapse_waits env c)
    have here : (elapse env c).cable.selected.phase = _ := before.second ▸ before.phase
    rw [sendPacket, writePort_data]
    refine inductionHypothesis (by omega) ?_
    refine before.modify ?_
    rw [put_phase _ here, List.length_map, List.length_range, if_neg (by omega), List.range_succ,
      List.map_append]
    rfl

/-- The data register is read after what happens before the access. -/
theorem readPortUshort_data :
    readPortUshort env (c.bus.cmdBase + ATA_REG_DATA) c =
      ((elapse env c).cable.selected.get.1, { elapse env c with
        cable := (elapse env c).cable.modify (elapse env c).cable.selected.get.2 }) := by
  simp [readPortUshort]

/-- The words of a block are read one after the other. -/
theorem readWords_stands {which : Bool} {next left : Nat} (block : List (BitVec 16)) :
    ∀ {ptr : Nat} {buffer : Nat → BitVec 16} {c : Controller}, block ≠ [] →
      Stands which (· = .data block next left) c →
      (readWords env block.length ptr buffer c).1 = Buffer.writeAt buffer ptr block ∧
        Stands which (· = .working next left) (readWords env block.length ptr buffer c).2 := by
  induction block with
  | nil =>
    intro ptr buffer c some
    contradiction
  | cons word block inductionHypothesis =>
    intro ptr buffer c _ stands
    have before := stands.still_waits (by simp [Phase.Still]) (@elapse_waits env c)
    have here : (elapse env c).cable.selected.phase = _ := before.second ▸ before.phase
    have read : (elapse env c).cable.selected.get.1 = word := by
      rw [get_of_data here]
    have whole : Buffer.writeAt (Buffer.writeAt buffer ptr [word]) (ptr + 1) block =
        Buffer.writeAt buffer ptr (word :: block) := Buffer.writeAt_append
    rw [List.length_cons, readWords, readPortUshort_data]
    dsimp only
    rw [read]
    by_cases last : block = []
    · subst last
      exact ⟨rfl, before.modify (by simp [get_of_data here])⟩
    · have offered : (elapse env c).cable.selected.get.2.phase = .data block next left := by
        simp only [get_of_data here, if_neg last]
      obtain ⟨bytes, working⟩ := @inductionHypothesis (ptr + 1) (Buffer.writeAt buffer ptr [word])
        _ last (before.modify offered)
      exact ⟨bytes.trans whole, working⟩

/-- A wait for the event ends because it was signalled or because the time was up. -/
theorem eventWaitfor_waits (timeout : Nat) :
    Waits env c (eventWaitfor env timeout c).2 ∧
      ((eventWaitfor env timeout c).1 = .sOk ∨ (eventWaitfor env timeout c).1 = .eTimedOut) := by
  have all : ∀ (polls : Nat) (c : Controller), Waits env c (eventWaitforLoop env polls c).2 ∧
      ((eventWaitforLoop env polls c).1 = .sOk ∨
        (eventWaitforLoop env polls c).1 = .eTimedOut) := by
    intro polls
    induction polls with
    | zero => exact fun c => ⟨.refl, .inr rfl⟩
    | succ polls inductionHypothesis =>
      intro c
      rw [eventWaitforLoop]
      dsimp only
      have polled : Waits env c
          { elapse env c with irqEvent := (eventPoll (elapse env c).irqEvent).2 } :=
        elapse_waits.congr rfl rfl
      split
      · obtain ⟨waits, outcome⟩ := inductionHypothesis
          { elapse env c with irqEvent := (eventPoll (elapse env c).irqEvent).2 }
        exact ⟨polled.trans waits, outcome⟩
      · exact ⟨polled, .inl rfl⟩
  exact all _ c

end

/-- The sectors of a disc, word by word. -/
def sectorWords (disc : Nat → List (BitVec 16)) (lba count : Nat) : List (BitVec 16) :=
  (List.range count).flatMap fun i => disc (lba + i)

section

variable {env : Environment} {c c' : Controller} {which : Bool} {lba n : Nat}

theorem sectorWords_succ (disc : Nat → List (BitVec 16)) (lba count : Nat) :
    sectorWords disc lba (count + 1) = disc lba ++ sectorWords disc (lba + 1) count := by
  rw [sectorWords, sectorWords, List.range_succ_eq_map, List.flatMap_cons, List.flatMap_map]
  congr 1
  apply List.flatMap_congr
  intro i _
  rw [Nat.add_right_comm, Nat.add_assoc]

theorem length_sectorWords (env : Environment) (which : Bool) (lba count : Nat) :
    (sectorWords (env.disc which) lba count).length = ATAPI_SECTOR_SIZE / 2 * count := by
  induction count generalizing lba with
  | zero => rfl
  | succ count inductionHypothesis =>
    rw [sectorWords_succ, List.length_append, inductionHypothesis, env.sectors, Nat.mul_succ,
      Nat.add_comm]

theorem Stands.selected {P : Phase → Prop} (stands : Stands which P c) :
    c.phase = (c.cable.drives which).phase := by
  rw [Controller.phase, Cable.selected, stands.second]

/-- How `ata_wait_ex` ends for a device that serves sectors. -/
theorem ataWaitEx_serves (timeout : Nat)
    (stands : Stands which (Phase.Serves (env.disc which) lba n) c) :
    (ataWaitEx env timeout c).1 = .sOk ∧ (∃ left, n = left + 1 ∧
        Stands which (· = .data (env.disc which lba) (lba + 1) left) (ataWaitEx env timeout c).2) ∨
      (ataWaitEx env timeout c).1 = .eFail ∧ Rests (ataWaitEx env timeout c).2 ∨
      (ataWaitEx env timeout c).1 = .eTimedOut := by
  obtain ⟨waits, outcome⟩ := @ataWaitEx_waits env c timeout
  have after := stands.of_waits waits fun d d' moves => moves.serves
  rw [after.selected] at outcome
  rcases outcome with ⟨granted, requests⟩ | ⟨refused, still, none⟩ | late
  · obtain ⟨left, phase, last⟩ := after.phase.data requests
    exact .inl ⟨granted, left, last.symm, after.second, phase, after.others⟩
  · have gone : Stands which Phase.Rests (ataWaitEx env timeout c).2 :=
      ⟨after.second, after.phase.rests still none, after.others⟩
    exact .inr (.inl ⟨refused, gone.rests⟩)
  · exact .inr (.inr late)

/-- How it ends for a device that takes a packet. -/
theorem ataWaitEx_takes (timeout : Nat) (stands : Stands which Phase.Takes c) :
    (ataWaitEx env timeout c).1 = .sOk ∧
        Stands which (· = .packet []) (ataWaitEx env timeout c).2 ∨
      (ataWaitEx env timeout c).1 = .eFail ∧ Rests (ataWaitEx env timeout c).2 ∨
      (ataWaitEx env timeout c).1 = .eTimedOut := by
  obtain ⟨waits, outcome⟩ := @ataWaitEx_waits env c timeout
  have after := stands.of_waits waits fun d d' moves => moves.takes
  rw [after.selected] at outcome
  rcases outcome with ⟨granted, requests⟩ | ⟨refused, still, none⟩ | late
  · exact .inl ⟨granted, after.second, after.phase.packet requests, after.others⟩
  · have gone : Stands which Phase.Rests (ataWaitEx env timeout c).2 :=
      ⟨after.second, after.phase.rests still none, after.others⟩
    exact .inr (.inl ⟨refused, gone.rests⟩)
  · exact .inr (.inr late)

/-- How the transfer of some sectors ends.  All of them are in the buffer, or the device gave up,
or the time was up; what is in the buffer then are the first of them. -/
structure Received (env : Environment) (which : Bool) (lba n count ptr : Nat)
    (buffer : Nat → BitVec 16) (result : HResult × (Nat → BitVec 16) × Controller) : Prop where
  words : ∃ got ≤ count, (result.1 = .sOk → got = count) ∧
    result.2.1 = Buffer.writeAt buffer ptr (sectorWords (env.disc which) lba got)
  outcome : result.1 = .sOk ∧ (∃ left, n = count + left ∧
      Stands which (Phase.Serves (env.disc which) (lba + count) left) result.2.2) ∨
    result.1 = .eFail ∧ Rests result.2.2 ∨ result.1 = .eTimedOut

/-- Nothing has come. -/
theorem Received.nothing {hr : HResult} {count ptr : Nat} {buffer : Nat → BitVec 16}
    (outcome : hr = .eFail ∧ Rests c ∨ hr = .eTimedOut) :
    Received env which lba n count ptr buffer (hr, buffer, c) where
  words := by
    refine ⟨0, Nat.zero_le count, fun done => ?_, ?_⟩
    · rcases outcome with ⟨rfl, -⟩ | rfl
      · cases done
      · cases done
    · rw [sectorWords, List.range_zero, List.flatMap_nil, Buffer.writeAt_nil]
  outcome := .inr outcome

/-- The words of a sector are read. -/
theorem readWords_sector {ptr : Nat} {buffer : Nat → BitVec 16} {left : Nat}
    (stands : Stands which (· = .data (env.disc which lba) (lba + 1) left) c) :
    Received env which lba (left + 1) 1 ptr buffer
      (.sOk, readWords env (ATAPI_SECTOR_SIZE / 2) ptr buffer c) := by
  have some : env.disc which lba ≠ [] :=
    List.ne_nil_of_length_pos (by rw [env.sectors]; exact Nat.succ_pos 1023)
  obtain ⟨bytes, working⟩ := @readWords_stands env which (lba + 1) left (env.disc which lba) ptr
    buffer c some stands
  rw [env.sectors] at bytes working
  generalize readWords env (ATAPI_SECTOR_SIZE / 2) ptr buffer c = words at bytes working
  have after : Stands which (Phase.Serves (env.disc which) (lba + 1) left) words.2 := by
    refine ⟨working.second, ?_, working.others⟩
    rw [working.phase]
    exact ⟨rfl, rfl⟩
  refine ⟨⟨1, Nat.le_refl 1, fun _ => rfl, ?_⟩, .inl ⟨rfl, left, Nat.add_comm left 1, after⟩⟩
  rw [sectorWords_succ, sectorWords, List.range_zero, List.flatMap_nil, List.append_nil]
  exact bytes

theorem readSector_received (ptr : Nat) (buffer : Nat → BitVec 16)
    (stands : Stands which (Phase.Serves (env.disc which) lba n) c) :
    Received env which lba n 1 ptr buffer (readSector env ptr buffer c) := by
  have outcome := @ataWaitEx_serves env c which lba n 0 stands
  rw [readSector]
  generalize ataWaitEx env 0 c = ready at outcome
  obtain ⟨hr, c1⟩ := ready
  rcases outcome with ⟨rfl, left, rfl, offered⟩ | ⟨rfl, rests⟩ | rfl
  · exact readWords_sector offered
  · exact .nothing (.inl ⟨rfl, rests⟩)
  · exact .nothing (.inr rfl)

theorem receiveSector_received (ptr : Nat) (buffer : Nat → BitVec 16)
    (stands : Stands which (Phase.Serves (env.disc which) lba n) c) :
    Received env which lba n 1 ptr buffer (receiveSector env ptr buffer c) := by
  obtain ⟨waits, signalled⟩ := @eventWaitfor_waits env c 1000
  have serving := stands.of_waits waits fun d d' moves => moves.serves
  rw [receiveSector]
  generalize eventWaitfor env 1000 c = event at signalled serving
  obtain ⟨hr, c1⟩ := event
  rcases signalled with rfl | rfl
  · exact readSector_received ptr buffer serving
  · exact .nothing (.inr rfl)

theorem receiveLoop_received (count : Nat) : ∀ {lba n ptr : Nat} {buffer : Nat → BitVec 16}
    {c : Controller}, Stands which (Phase.Serves (env.disc which) lba n) c →
      Received env which lba n count ptr buffer (receiveLoop env count ptr buffer c) := by
  induction count with
  | zero =>
    intro lba n ptr buffer c stands
    refine ⟨⟨0, Nat.le_refl 0, fun _ => rfl, ?_⟩, .inl ⟨rfl, n, (Nat.zero_add n).symm, stands⟩⟩
    rw [sectorWords, List.range_zero, List.flatMap_nil, Buffer.writeAt_nil]
    rfl
  | succ count inductionHypothesis =>
    intro lba n ptr buffer c stands
    have first := receiveSector_received ptr buffer stands
    rw [receiveLoop]
    generalize receiveSector env ptr buffer c = result at first
    obtain ⟨hr, buffer', c'⟩ := result
    obtain ⟨⟨got, atMost, all, bytes⟩, outcome⟩ := first
    dsimp only at all bytes outcome ⊢
    rcases outcome with ⟨rfl, left, rfl, after⟩ | refused | late
    · -- one sector is in the buffer, and the next one goes behind it
      obtain rfl := all rfl
      rw [if_neg (by decide)]
      have length : ptr + ATAPI_SECTOR_SIZE / 2 =
          ptr + (sectorWords (env.disc which) lba 1).length := by
        rw [length_sectorWords, Nat.mul_one]
      obtain ⟨⟨more, atMost, all, rest⟩, outcome⟩ := @inductionHypothesis (lba + 1) left
        (ptr + ATAPI_SECTOR_SIZE / 2) buffer' c' after
      refine ⟨⟨more + 1, by omega, fun done => by rw [all done], ?_⟩, ?_⟩
      · rw [rest, bytes, length, Buffer.writeAt_append, sectorWords_succ _ _ more,
          sectorWords_succ _ _ 0, sectorWords, List.range_zero, List.flatMap_nil, List.append_nil]
      · rcases outcome with ⟨done, later, rfl, next⟩ | failed
        · refine .inl ⟨done, later, by omega, ?_⟩
          rwa [Nat.add_right_comm, Nat.add_assoc] at next
        · exact .inr failed
    · obtain ⟨rfl, rests⟩ := refused
      rw [if_pos (by decide)]
      exact ⟨⟨got, by omega, (nomatch ·), bytes⟩, .inr (.inl ⟨rfl, rests⟩)⟩
    · obtain rfl := late
      rw [if_pos (by decide)]
      exact ⟨⟨got, by omega, (nomatch ·), bytes⟩, .inr (.inr rfl)⟩

/-- The number of sectors in a packet: none for 256 of them, since the byte of the count is 0. -/
def granted (count : Nat) : Nat := if count = 256 then 0 else count

theorem toNat_shift_and (start : BitVec 64) (k : Nat) :
    (((start >>> k) &&& 0xFF).setWidth 8).toNat = start.toNat / 2 ^ k % 256 := by
  have mask : (0xFF : BitVec 64).toNat = 2 ^ 8 - 1 := rfl
  rw [BitVec.toNat_setWidth, BitVec.toNat_and, BitVec.toNat_ushiftRight, mask,
    Nat.and_two_pow_sub_one_eq_mod, Nat.shiftRight_eq_div_pow]
  exact Nat.mod_mod _ _

theorem append_low (high low : BitVec 8) : ((high ++ low) >>> 0).setWidth 8 = low := by
  apply BitVec.eq_of_toNat_eq
  have small := low.isLt
  rw [BitVec.toNat_setWidth, BitVec.toNat_ushiftRight, BitVec.toNat_append,
    ← Nat.shiftLeft_add_eq_or_of_lt low.isLt, Nat.shiftLeft_eq, Nat.shiftRight_zero]
  omega

theorem append_high (high low : BitVec 8) : ((high ++ low) >>> 8).setWidth 8 = high := by
  apply BitVec.eq_of_toNat_eq
  have small := low.isLt
  have least := high.isLt
  rw [BitVec.toNat_setWidth, BitVec.toNat_ushiftRight, BitVec.toNat_append,
    ← Nat.shiftLeft_add_eq_or_of_lt low.isLt, Nat.shiftLeft_eq, Nat.shiftRight_eq_div_pow]
  omega

/-- The bytes of a packet arrive in order. -/
theorem packetByte_packetWord (packet : List (BitVec 8)) {k : Nat} (inside : k < 12) :
    packetByte ((List.range 6).map (packetWord packet)) k = packet.getD k 0 := by
  have word : ((List.range 6).map (packetWord packet)).getD (k / 2) 0 =
      packetWord packet (k / 2) := by
    have short : k / 2 < 6 := by omega
    simp [List.getD_eq_getElem?_getD, short]
  rw [packetByte, word, packetWord]
  rcases Nat.mod_two_eq_zero_or_one k with even | odd
  · have same : 2 * (k / 2) = k := by omega
    rw [even, same]
    exact append_low _ _
  · have same : 2 * (k / 2) + 1 = k := by omega
    rw [odd, same]
    exact append_high _ _

theorem execute_readPacket (start : BitVec 64) {count : Nat} (most : count ≤ 256) :
    execute ((List.range 6).map (packetWord (readPacket start count))) =
      .working (start.toNat % 2 ^ 32) (granted count) := by
  have first : packetByte ((List.range 6).map (packetWord (readPacket start count))) 0 = 0xA8 := by
    rw [packetByte_packetWord _ (by omega)]
    rfl
  have sector : packetNumber ((List.range 6).map (packetWord (readPacket start count))) 2 =
      start.toNat % 2 ^ 32 := by
    simp only [packetNumber, packetByte_packetWord _ (by omega : 2 < 12),
      packetByte_packetWord _ (by omega : 2 + 1 < 12),
      packetByte_packetWord _ (by omega : 2 + 2 < 12),
      packetByte_packetWord _ (by omega : 2 + 3 < 12)]
    simp only [readPacket, List.getD_cons_succ, List.getD_cons_zero, toNat_shift_and]
    omega
  have sectors : packetNumber ((List.range 6).map (packetWord (readPacket start count))) 6 =
      granted count := by
    simp only [packetNumber, packetByte_packetWord _ (by omega : 6 < 12),
      packetByte_packetWord _ (by omega : 6 + 1 < 12),
      packetByte_packetWord _ (by omega : 6 + 2 < 12),
      packetByte_packetWord _ (by omega : 6 + 3 < 12)]
    have none : (0 : BitVec 8).toNat = 0 := rfl
    simp only [readPacket, List.getD_cons_succ, List.getD_cons_zero, BitVec.toNat_ofNat, none,
      granted]
    split
    · rfl
    · omega
  rw [execute, if_pos first, sector, sectors]

/-- A device that has no sector left to give is at nothing once it has moved. -/
theorem tick_rests {disc : Nat → List (BitVec 16)} {d : Drive} (fails : Bool)
    (serves : d.phase.Serves disc lba 0) : (d.tick disc fails).1.phase.Rests := by
  obtain ⟨phase, features, lbaMid, lbaHigh⟩ := d
  cases phase with
  | idle => exact .inl rfl
  | working next left =>
    obtain ⟨rfl, rfl⟩ := serves
    exact .inl rfl
  | data block next left => exact absurd serves.2.2 (Nat.succ_ne_zero left)
  | failed => exact .inr rfl
  | _ => contradiction

theorem deviceStep_phase (step : Bool × Bool) :
    ((deviceStep env c step).cable.drives which).phase =
      if step.1 = which then (((c.cable.drives which).tick (env.disc which) step.2).1).phase
      else (c.cable.drives which).phase := by
  obtain ⟨moved, fails⟩ := step
  simp only [deviceStep, Cable.tick]
  by_cases same : moved = which
  · subst same
    rw [if_pos rfl, Function.update_self]
  · rw [if_neg same, Function.update_of_ne (Ne.symm same)]

/-- Before an access at which a device moves it comes to an end, or has come to it. -/
theorem elapse_rests (serves : (c.cable.drives which).phase.Serves (env.disc which) lba 0)
    (moves : ∃ fails, (which, fails) ∈ env.steps c.accesses) :
    ((elapse env c).cable.drives which).phase.Rests := by
  have all : ∀ (steps : List (Bool × Bool)) (c : Controller),
      (c.cable.drives which).phase.Serves (env.disc which) lba 0 →
      (∃ fails, (which, fails) ∈ steps) ∨ (c.cable.drives which).phase.Rests →
        ((steps.foldl (deviceStep env) c).cable.drives which).phase.Rests := by
    intro steps
    induction steps with
    | nil =>
      intro c _ reason
      rcases reason with ⟨fails, member⟩ | rests
      · cases member
      · exact rests
    | cons step steps inductionHypothesis =>
      intro c serves reason
      have phase := @deviceStep_phase env c which step
      have after : ((deviceStep env c step).cable.drives which).phase.Serves (env.disc which) lba
          0 := ((deviceStep_waits step).moves which).serves serves
      refine inductionHypothesis _ after ?_
      -- once the device has moved it stays where it is
      by_cases same : step.1 = which
      · rw [if_pos same] at phase
        rw [phase]
        exact .inr (tick_rests step.2 serves)
      · rw [if_neg same] at phase
        rcases reason with ⟨fails, member⟩ | rests
        · rcases List.mem_cons.mp member with here | later
          · exact absurd (congrArg Prod.fst here).symm same
          · exact .inl ⟨fails, later⟩
        · rw [phase]
          exact .inr rests
  exact all (env.steps c.accesses) c serves (.inl moves)

theorem elapse_accesses : (elapse env c).accesses = c.accesses + 1 := rfl

/-- The status of a device that serves no more sectors says whether it is at nothing. -/
theorem settled_iff {disc : Nat → List (BitVec 16)} {phase : Phase}
    (serves : phase.Serves disc lba 0) :
    phase.status &&& (ATA_STATUS_BSY ||| ATA_STATUS_DRQ) = 0 ↔ phase.Rests := by
  cases phase with
  | idle => exact ⟨fun _ => .inl rfl, fun _ => by decide⟩
  | failed => exact ⟨fun _ => .inr rfl, fun _ => by decide⟩
  | working next left =>
    have busy : ¬ ((0x80 : BitVec 8) &&& (ATA_STATUS_BSY ||| ATA_STATUS_DRQ) = 0) := by decide
    refine ⟨fun quiet => absurd quiet busy, ?_⟩
    rintro (idle | failed)
    · cases idle
    · cases failed
  | data block next left => exact absurd serves.2.2 (Nat.succ_ne_zero left)
  | _ => contradiction

/-- The last loop ends because the device is at nothing. -/
theorem settleLoop_rests {k : Nat} (turns : Nat) : ∀ {c : Controller},
    Stands which (Phase.Serves (env.disc which) lba 0) c →
    k < turns → (∃ fails, (which, fails) ∈ env.steps (c.accesses + k)) →
      Rests (settleLoop env turns c) := by
  induction turns generalizing k with
  | zero =>
    intro c _ short
    exact absurd short (Nat.not_lt_zero k)
  | succ turns inductionHypothesis =>
    intro c stands short moves
    have after := stands.of_waits (@elapse_waits env c) fun d d' moves => moves.serves
    rw [settleLoop, ataReadReg_status]
    dsimp only
    rw [after.selected]
    -- the device moves before the access that is `k` turns ahead, if it has not done so yet
    split
    · next quiet =>
      exact Stands.rests ⟨after.second, (settled_iff after.phase).mp quiet, after.others⟩
    · next busy =>
      cases k with
      | zero => exact absurd ((settled_iff after.phase).mpr (elapse_rests stands.phase moves)) busy
      | succ k =>
        refine @inductionHypothesis k _ after (by omega) ?_
        rw [elapse_accesses, Nat.add_assoc, Nat.add_comm 1 k]
        exact moves

/-- The transfer ends behind the last sector. -/
theorem atapiFinish_rests (stands : Stands which (Phase.Serves (env.disc which) lba 0) c) :
    (atapiFinish env c).1 = .sOk ∧ Rests (atapiFinish env c).2 ∨
      (atapiFinish env c).1 = .eTimedOut := by
  obtain ⟨waits, signalled⟩ := @eventWaitfor_waits env c 1000
  have serving := stands.of_waits waits fun d d' moves => moves.serves
  rw [atapiFinish]
  generalize eventWaitfor env 1000 c = event at signalled serving
  obtain ⟨hr, c1⟩ := event
  rcases signalled with rfl | rfl
  · obtain ⟨k, below, moves⟩ := env.fair c1.accesses which
    exact .inl ⟨rfl, settleLoop_rests (env.bound + 1) serving (Nat.lt_succ_of_lt below) moves⟩
  · exact .inr rfl

/-- How a read ends.  The first sectors of it are in the buffer, all of them if it succeeded, which
it does with less than 256 of them only.  Unless the time was up the devices are at nothing. -/
structure Answered (env : Environment) (which : Bool) (lba count ptr : Nat)
    (buffer : Nat → BitVec 16) (result : HResult × (Nat → BitVec 16) × Controller) : Prop where
  words : ∃ got ≤ count, (result.1.failed = false → got = count) ∧
    result.2.1 = Buffer.writeAt buffer ptr (sectorWords (env.disc which) lba got)
  few : result.1.failed = false → count < 256
  rests : result.1 ≠ .eTimedOut → Rests result.2.2

/-- A read that gives up before anything has come. -/
theorem Answered.refused {hr : HResult} {count ptr : Nat} {buffer : Nat → BitVec 16}
    (failed : hr.failed = true) (rests : hr ≠ .eTimedOut → Rests c) :
    Answered env which lba count ptr buffer (hr, buffer, c) where
  words := by
    refine ⟨0, Nat.zero_le count, fun done => ?_, ?_⟩
    · exact absurd failed (by simpa using done)
    · rw [sectorWords, List.range_zero, List.flatMap_nil, Buffer.writeAt_nil]
  few := fun done => absurd failed (by simpa using done)
  rests := rests

theorem atapiReceive_answered (start : BitVec 64) {count : Nat} (most : count ≤ 256) (ptr : Nat)
    (buffer : Nat → BitVec 16) (stands : Stands which (· = .packet []) c) :
    Answered env which (start.toNat % 2 ^ 32) count ptr buffer
      (atapiReceive env start count ptr buffer c) := by
  have sent := @sendPacket_stands env which (readPacket start count) 5 0 c (by omega) stands
  have serving : Stands which
      (Phase.Serves (env.disc which) (start.toNat % 2 ^ 32) (granted count))
      (sendPacket env (readPacket start count) 6 0 c) := by
    refine ⟨sent.second, ?_, sent.others⟩
    rw [sent.phase, execute_readPacket start most]
    exact ⟨rfl, rfl⟩
  have received := @receiveLoop_received env which count _ _ ptr buffer _ serving
  rw [atapiReceive]
  dsimp only
  generalize receiveLoop env count ptr buffer _ = result at received
  obtain ⟨hr, buffer', c'⟩ := result
  obtain ⟨⟨got, atMost, all, bytes⟩, outcome⟩ := received
  dsimp only at all bytes outcome ⊢
  rcases outcome with ⟨rfl, left, enough, after⟩ | ⟨rfl, rests⟩ | rfl
  · -- 256 sectors are too many for the byte of the count, and never come
    have few : count < 256 ∧ left = 0 := by
      rw [granted] at enough
      split at enough
      · omega
      · omega
    obtain ⟨few, rfl⟩ := few
    rw [if_neg (by decide)]
    have finish := atapiFinish_rests after
    generalize atapiFinish env c' = last at finish
    obtain ⟨hr, c''⟩ := last
    refine ⟨⟨got, atMost, fun _ => all rfl, bytes⟩, fun _ => few, fun inTime => ?_⟩
    rcases finish with ⟨-, rests⟩ | late
    · exact rests
    · exact absurd late inTime
  · rw [if_pos (by decide)]
    exact ⟨⟨got, atMost, (nomatch ·), bytes⟩, (nomatch ·), fun _ => rests⟩
  · rw [if_pos (by decide)]
    exact ⟨⟨got, atMost, (nomatch ·), bytes⟩, (nomatch ·), fun inTime => absurd rfl inTime⟩

/-- The device that a drive number selects. -/
def secondOf (driveId : BitVec 32) : Bool := ((driveId <<< 4).setWidth 8).getLsbD 4

theorem write_second (cable : Cable) (offset : Nat) (value : BitVec 8) :
    (cable.write offset value).second = if offset = 6 then value.getLsbD 4 else cable.second := by
  unfold Cable.write
  split
  · rfl
  · rfl
  · rfl
  · rfl
  · rfl
  · next _ _ _ other _ => rw [if_neg other]

theorem ataWriteReg_second {reg : Nat} (value : BitVec 8) (inside : reg < 8) :
    (ataWriteReg env reg value c).cable.second =
      if reg = 6 then value.getLsbD 4 else c.cable.second := by
  rw [ataWriteReg_command value inside]
  exact (write_second _ _ _).trans (by rw [elapse_second])

/-- The device that is selected takes the packet. -/
theorem atapiProgram_takes (rests : Rests c) :
    Stands c.cable.second Phase.Takes (atapiProgram env c) := by
  have waited : Rests (ataWait4us env c) := ataWait4us_waits.rests rests
  have features := @ataWriteReg_rests env _ ATA_REG_FEATURES 0 (by decide) waited
  have lbaMid := @ataWriteReg_rests env _ ATA_REG_LBA_MID
    (BitVec.ofNat 8 (ATAPI_SECTOR_SIZE &&& 0xFF)) (by decide) features
  have lbaHigh := @ataWriteReg_rests env _ ATA_REG_LBA_HIGH
    (BitVec.ofNat 8 (ATAPI_SECTOR_SIZE >>> 8)) (by decide) lbaMid
  have stands := @ataWriteReg_packet env _ lbaHigh
  rw [ataWriteReg_second _ (by decide), ataWriteReg_second _ (by decide),
    ataWriteReg_second _ (by decide), if_neg (by decide), if_neg (by decide), if_neg (by decide),
    ataWait4us_waits.second] at stands
  exact stands

/-- From the selected drive on. -/
theorem atapiCommand_answered (start : BitVec 64) {count : Nat} (most : count ≤ 256) (ptr : Nat)
    (buffer : Nat → BitVec 16) (rests : Rests c) :
    Answered env c.cable.second (start.toNat % 2 ^ 32) count ptr buffer
      (atapiCommand env start count ptr buffer c) := by
  have outcome := @ataWaitEx_takes env _ _ 10000 (@atapiProgram_takes env c rests)
  rw [atapiCommand]
  generalize ataWaitEx env 10000 (atapiProgram env c) = ready at outcome
  obtain ⟨hr, c'⟩ := ready
  rcases outcome with ⟨rfl, stands⟩ | ⟨rfl, after⟩ | rfl
  · exact atapiReceive_answered start most ptr buffer stands
  · exact .refused rfl fun _ => after
  · exact .refused rfl fun inTime => absurd rfl inTime

theorem atapiTransfer_answered (dev : AtaDevice) (start : BitVec 64) {count : Nat}
    (most : count ≤ 256) (ptr : Nat) (buffer : Nat → BitVec 16) (rests : Rests c) :
    Answered env (secondOf dev.driveId) (start.toNat % 2 ^ 32) count ptr buffer
      (atapiTransfer env dev start count ptr buffer c) := by
  rw [atapiTransfer]
  split
  · exact .refused rfl fun _ => rests
  · have enabled : Rests (ataEnableInterrupts env true c) :=
      (ataEnableInterrupts_waits true).rests rests
    have selected := @ataSelectDrive_rests env _ dev.driveId enabled
    generalize ataSelectDrive env dev.driveId (ataEnableInterrupts env true c) = drive at selected
    obtain ⟨hr, c1⟩ := drive
    have written := @ataWriteReg_rests env _ ATA_REG_DRIVE
      ((dev.driveId <<< 4).setWidth 8) (by decide) selected
    have second : (ataWriteReg env ATA_REG_DRIVE ((dev.driveId <<< 4).setWidth 8) c1).cable.second =
        secondOf dev.driveId := ataWriteReg_second _ (by decide)
    dsimp only
    generalize ataWriteReg env ATA_REG_DRIVE ((dev.driveId <<< 4).setWidth 8) c1 = c2
      at written second
    by_cases failed : hr.failed = true
    · rw [if_pos failed]
      exact .refused failed fun _ => written
    · rw [if_neg failed, ← second]
      exact atapiCommand_answered start most ptr buffer written

/-- A command leaves the first sectors of what it is to read in the buffer. -/
theorem atapiReadSectors_answered (dev : AtaDevice) (start : BitVec 64) (count ptr : Nat)
    (buffer : Nat → BitVec 16) (rests : Rests c) :
    Answered env (secondOf dev.driveId) (start.toNat % 2 ^ 32) count ptr buffer
      (atapiReadSectors env dev start count ptr buffer c) := by
  rw [atapiReadSectors]
  split
  · exact .refused rfl fun _ => rests
  · next most =>
    have answered := @atapiTransfer_answered env c dev start count (Nat.not_lt.mp most) ptr buffer
      rests
    generalize atapiTransfer env dev start count ptr buffer c = result at answered
    obtain ⟨hr, buffer', c'⟩ := result
    exact ⟨answered.words, answered.few, fun inTime => (ataEnableInterrupts_waits false).rests
      (answered.rests inTime)⟩

end

/-! ## Requests -/

/-- A request of `IOCTL_STORAGE_READ_BLOCKS` to a device, and its buffer by words. -/
structure Request where
  dev : AtaDevice
  args : IoctlStorageReadwrite
  buffer : Nat → BitVec 16

/-- A request to a packet device, for sectors from one on that has a number of 32 bits. -/
structure Request.Valid (r : Request) : Prop where
  packet : ataIsPacketInterface r.dev = true
  start : r.args.start < 2 ^ 32

/-- The call of `atapi_read_sectors` for a command. -/
def Request.run (env : Environment) (r : Request)
    (s : HResult × (Nat → BitVec 16) × Controller) (command : BlockCommand) :
    HResult × (Nat → BitVec 16) × Controller :=
  atapiReadSectors env r.dev (BitVec.ofNat 64 command.pos) command.count
    ((command.ptr - r.args.buffer).toNat / 2) s.2.1 s.2.2

/-- What the commands of a request leave, and the status of the last. -/
def Request.after (env : Environment) (r : Request) (ctrl : Controller)
    (issued : List BlockCommand) : HResult × (Nat → BitVec 16) × Controller :=
  issued.foldl (r.run env) (.sOk, r.buffer, ctrl)

/-- `atadev_read_blocks` of a packet device, with its commands. -/
def Request.serve (env : Environment) (r : Request) (ctrl : Controller) :
    HResult × (Nat → BitVec 16) × Controller :=
  let (hr, issued) := atadevReadBlocks (fun issued => (r.after env ctrl issued).1) r.dev r.args
  (hr, (r.after env ctrl issued).2)

/-- Requests one after the other, to either device: their statuses. -/
def serveAll (env : Environment) : List Request → Controller → List HResult × Controller
  | [], ctrl => ([], ctrl)
  | r :: requests, ctrl =>
    let (hr, _, ctrl) := r.serve env ctrl
    let (answers, ctrl) := serveAll env requests ctrl
    (hr :: answers, ctrl)

section

variable {env : Environment} {c : Controller} {r : Request}

theorem after_append (issued : List BlockCommand) (command : BlockCommand) :
    r.after env c (issued ++ [command]) = r.run env (r.after env c issued) command := by
  rw [Request.after, List.foldl_append]
  rfl

theorem after_first (r : Request) (count : Nat) :
    r.after env c [⟨ataIsPacketInterface r.dev, .read, r.args.start, count, r.args.buffer⟩] =
      atapiReadSectors env r.dev (BitVec.ofNat 64 r.args.start) count 0 r.buffer c := by
  rw [← List.nil_append [_], after_append, Request.run, BitVec.sub_self]
  rfl

theorem serve_eq :
    r.serve env c =
      let (hr, issued) := issueAll (fun issued => (r.after env c issued).1)
        (blockCommands .read r.dev r.args) []
      (hr, (r.after env c issued).2) := by
  rw [Request.serve, atadevReadBlocks_eq, perform, if_neg (by rintro ⟨write, -⟩; cases write)]

/-- A request for sectors needs one command at most, or its first command fails. -/
theorem serve_answered (valid : r.Valid) (rests : Rests c) :
    Answered env (secondOf r.dev.driveId) r.args.start r.args.count 0 r.buffer
      (r.serve env c) := by
  obtain ⟨dev, ⟨start, count, base⟩, buffer⟩ := r
  rw [serve_eq]
  by_cases none : count = 0
  · subst none
    rw [blockCommands_zero]
    refine ⟨⟨0, Nat.le_refl 0, fun _ => rfl, ?_⟩, fun _ => Nat.succ_pos 255, fun _ => rests⟩
    rw [sectorWords, List.range_zero, List.flatMap_nil, Buffer.writeAt_nil]
    rfl
  · have low : (BitVec.ofNat 64 start).toNat % 2 ^ 32 = start := by
      have small : start < 2 ^ 32 := valid.start
      rw [BitVec.toNat_ofNat, Nat.mod_eq_of_lt (by omega : start < 2 ^ 64), Nat.mod_eq_of_lt small]
    have first := @atapiReadSectors_answered env c dev (BitVec.ofNat 64 start)
      (min 256 count) 0 buffer rests
    rw [blockCommands_cons .read dev start base (Nat.pos_of_ne_zero none), issueAll_cons,
      List.nil_append]
    rw [low] at first
    have step : (⟨dev, ⟨start, count, base⟩, buffer⟩ : Request).after env c
        [⟨ataIsPacketInterface dev, .read, start, min 256 count, base⟩] =
          atapiReadSectors env dev (BitVec.ofNat 64 start) (min 256 count) 0 buffer c :=
      after_first _ (min 256 count)
    rw [← step] at first
    by_cases failed : ((⟨dev, ⟨start, count, base⟩, buffer⟩ : Request).after env c
        [⟨ataIsPacketInterface dev, .read, start, min 256 count, base⟩]).1.failed = true
    · rw [if_pos failed]
      obtain ⟨got, atMost, -, bytes⟩ := first.words
      exact ⟨⟨got, atMost.trans (Nat.min_le_right 256 count),
          fun done => absurd failed (by simpa using done), bytes⟩,
        fun done => absurd failed (by simpa using done), first.rests⟩
    · have fine := Bool.not_eq_true _ ▸ failed
      have few := first.few fine
      have last : count - min 256 count = 0 := by omega
      have whole : min 256 count = count := by omega
      rw [if_neg failed, last, blockCommands_zero]
      obtain ⟨got, atMost, all, bytes⟩ := first.words
      rw [whole] at few atMost
      exact ⟨⟨got, atMost, fun _ => (all fine).trans whole, bytes⟩, fun _ => few,
        fun _ => first.rests fun late => by rw [late] at fine; cases fine⟩

/-- Requests that were answered in time leave the devices at nothing. -/
theorem serveAll_rests (requests : List Request) : ∀ {c : Controller}, Rests c →
    (∀ r ∈ requests, r.Valid) → (∀ hr ∈ (serveAll env requests c).1, hr ≠ .eTimedOut) →
      Rests (serveAll env requests c).2 := by
  induction requests with
  | nil => exact fun rests _ _ => rests
  | cons r requests inductionHypothesis =>
    intro c rests valid inTime
    have answered := @serve_answered env c r (valid r (by simp)) rests
    rw [serveAll] at inTime ⊢
    generalize r.serve env c = result at answered inTime
    obtain ⟨hr, buffer, c'⟩ := result
    dsimp only at inTime ⊢
    exact inductionHypothesis (answered.rests (inTime hr (by simp)))
      (fun q member => valid q (by simp [member])) fun hr member => inTime hr (by simp [member])

/-- Whatever the two devices do between the accesses of the driver, as long as no request has
timed out: a request leaves the first sectors of what it asks for in its buffer, in order, from
the disc of its device and nothing else; all of them if it succeeds, and it succeeds with less
than 256 sectors only. -/
theorem packetReads_right (env : Environment) {c : Controller} (rests : Rests c)
    (earlier : List Request) (r : Request) (valid : ∀ q ∈ r :: earlier, q.Valid)
    (inTime : ∀ hr ∈ (serveAll env earlier c).1, hr ≠ .eTimedOut) :
    ∃ got ≤ r.args.count,
      (r.serve env (serveAll env earlier c).2).2.1 = Buffer.writeAt r.buffer 0
        (sectorWords (env.disc (secondOf r.dev.driveId)) r.args.start got) ∧
      ((r.serve env (serveAll env earlier c).2).1.failed = false →
        got = r.args.count ∧ r.args.count < 256) := by
  have before := serveAll_rests earlier rests (fun q member => valid q (by simp [member])) inTime
  have answered := @serve_answered env _ r (valid r (by simp)) before
  obtain ⟨got, atMost, all, bytes⟩ := answered.words
  exact ⟨got, atMost, bytes, fun done => ⟨all done, answered.few done⟩⟩

/-- A device that is ready before each access, and a disc of zeros in both. -/
def blankDiscs : Environment where
  disc := fun _ _ => List.replicate (ATAPI_SECTOR_SIZE / 2) 0
  steps := fun _ => [(false, false), (true, false)]
  polls := fun _ _ => 0
  bound := 1
  sectors := fun _ _ => List.length_replicate
  fair := fun _ which => ⟨0, Nat.one_pos, false, by cases which <;> simp⟩

/-- A controller whose devices have done nothing yet. -/
def idleController : Controller where
  bus := .secondary
  drive := 0xFF
  nIEN := 0x02
  irqEvent := eventCreate flagAutoreset
  cable := ⟨false, fun _ => ⟨.idle, 0, 0, 0⟩, true⟩
  accesses := 0

/-- A request for sectors from 16 on. -/
def sectorRequest (driveId : BitVec 32) (count : Nat) : Request :=
  ⟨⟨.pio, .lba28, driveId, .patapi, 100, 2048⟩, ⟨16, count, 0x100000⟩, fun _ => 0⟩

theorem packetReads_right_first :
    ∃ got ≤ 2,
      ((sectorRequest 1 2).serve blankDiscs idleController).2.1 =
        Buffer.writeAt (fun _ => 0) 0 (sectorWords (blankDiscs.disc true) 16 got) ∧
      (((sectorRequest 1 2).serve blankDiscs idleController).1.failed = false →
        got = 2 ∧ 2 < 256) :=
  packetReads_right blankDiscs (fun _ => .inl rfl) [] (sectorRequest 1 2)
    (fun q member => by
      obtain rfl := List.mem_singleton.mp member
      exact ⟨rfl, by decide⟩)
    (fun _ member => by cases member)

end

end Antonix.Drivers.Atapi
